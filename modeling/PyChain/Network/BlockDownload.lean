import PyChain.Network.PeerSlots

/-!
# One block download at a time

A request for blocks is answered, refused, given up or lost with its connection, and each
of these ends forgets the source of the download by itself.  While a response is handled
its session is busy: the request is gone, and the source may still name the session.
-/

namespace PyChain

open Foundation

namespace Network

/-- A session awaits blocks under a token. -/
def Session.Asks (session : Session) (token : Str) : Prop :=
  exists pending, session.pending.get? token = some pending ∧
    pending.request.kind = .getBlocks

theorem Session.hasRequest_iff (session : Session) :
    session.hasRequest .getBlocks = true <-> exists token, session.Asks token := by
  unfold Session.hasRequest
  rw [List.any_eq_true]
  constructor
  · rintro ⟨pending, hpending, hkind⟩
    rcases List.mem_map.mp hpending with ⟨item, hitem, hvalue⟩
    refine ⟨item.1, pending, ?_, of_decide_eq_true hkind⟩
    rw [Dict.get?_eq_some_iff, ← hvalue]
    exact hitem
  · rintro ⟨token, pending, hpending, hkind⟩
    exact ⟨pending, List.mem_map.mpr ⟨_, (Dict.get?_eq_some_iff _ _ _).mp hpending, rfl⟩,
      decide_eq_true hkind⟩

/-- A change that neither asks for blocks nor settles a request for them. -/
structure Session.Alike (session next : Session) : Prop where
  closed : session.peer.closed = true -> next.peer.closed = true
  established : session.peer.established = true ->
    next.peer.established = true ∨ next.peer.closed = true
  asks : forall token, next.Asks token <-> session.Asks token

theorem Session.Stays.alike {session next : Session} (h : session.Stays next) :
    session.Alike next := by
  refine ⟨h.closed, h.established, ?_⟩
  intro token
  unfold Session.Asks
  rw [h.pending]

namespace Node

variable {disk : Type}

def Drawn (node : Node disk) (token : Str) : Prop :=
  exists n, n < node.drawn ∧ node.entropy.token n = token

/-- The random tokens drawn so far are distinct. -/
def DistinctTokens (node : Node disk) : Prop :=
  forall i, i < node.drawn -> forall j, j < node.drawn ->
    node.entropy.token i = node.entropy.token j -> i = j

instance (node : Node disk) : Decidable node.DistinctTokens :=
  inferInstanceAs (Decidable (forall i, i < node.drawn -> forall j, j < node.drawn ->
    node.entropy.token i = node.entropy.token j -> i = j))

/-- The source is the open session that awaits blocks, apart from a busy one. -/
structure Flight (busy : Option Str) (node : Node disk) : Prop where
  ids : forall id session, node.sessions.get? id = some session -> node.Drawn id
  source : forall id, node.sync.source = some id -> node.Drawn id
  tokens : forall id session token pending, node.sessions.get? id = some session ->
    session.pending.get? token = some pending -> node.Drawn token
  established : forall id session token, node.sessions.get? id = some session ->
    session.peer.closed = false -> session.Asks token -> session.peer.established = true
  single : forall id session token other, node.sessions.get? id = some session ->
    session.Asks token -> session.Asks other -> token = other
  owner : forall id session, node.sessions.get? id = some session ->
    session.peer.closed = false -> busy ≠ some id ->
    (node.sync.source = some id <-> exists token, session.Asks token)
  busy : forall id, busy = some id ->
    (node.sync.source = none ∨ node.sync.source = some id) ∧
      forall session token, node.sessions.get? id = some session ->
        session.peer.closed = false -> ¬ session.Asks token

theorem Flight.alike {busy : Option Str} {node next : Node disk} (h : Flight busy node)
    (hdrawn : forall token, node.Drawn token -> next.Drawn token)
    (hsource : next.sync.source = node.sync.source)
    (hsessions : forall id later, next.sessions.get? id = some later ->
      exists session, node.sessions.get? id = some session ∧ session.Alike later)
    (htokens : forall id later token pending, next.sessions.get? id = some later ->
      later.pending.get? token = some pending -> next.Drawn token) : Flight busy next := by
  have hopen : forall {session later : Session}, session.Alike later ->
      later.peer.closed = false -> session.peer.closed = false := by
    intro session later halike hlater
    rw [Bool.eq_false_iff] at hlater ⊢
    exact fun hclosed => hlater (halike.closed hclosed)
  refine ⟨?_, ?_, htokens, ?_, ?_, ?_, ?_⟩
  · intro id later hlater
    rcases hsessions id later hlater with ⟨session, hsession, _⟩
    exact hdrawn id (h.ids id session hsession)
  · intro id hid
    rw [hsource] at hid
    exact hdrawn id (h.source id hid)
  · intro id later token hlater hclosed hasks
    rcases hsessions id later hlater with ⟨session, hsession, halike⟩
    have hestablished := h.established id session token hsession (hopen halike hclosed)
      ((halike.asks token).mp hasks)
    rcases halike.established hestablished with hkept | hlost
    · exact hkept
    · rw [hclosed] at hlost
      cases hlost
  · intro id later token other hlater hasks hother
    rcases hsessions id later hlater with ⟨session, hsession, halike⟩
    exact h.single id session token other hsession ((halike.asks token).mp hasks)
      ((halike.asks other).mp hother)
  · intro id later hlater hclosed hbusy
    rcases hsessions id later hlater with ⟨session, hsession, halike⟩
    rw [hsource, h.owner id session hsession (hopen halike hclosed) hbusy]
    exact exists_congr (fun token => (halike.asks token).symm)
  · intro id hbusy
    rcases h.busy id hbusy with ⟨hnamed, hidle⟩
    rw [hsource]
    refine ⟨hnamed, ?_⟩
    intro later token hlater hclosed hasks
    rcases hsessions id later hlater with ⟨session, hsession, halike⟩
    exact hidle session token hsession (hopen halike hclosed) ((halike.asks token).mp hasks)

/-- A flight, as long as random tokens do not repeat. -/
def Sound (busy : Option Str) (node : Node disk) : Prop :=
  node.DistinctTokens -> Flight busy node

theorem Drawn.mono {node next : Node disk} (hentropy : next.entropy = node.entropy)
    (hdrawn : node.drawn ≤ next.drawn) {token : Str} (h : node.Drawn token) :
    next.Drawn token := by
  rcases h with ⟨n, hn, htoken⟩
  refine ⟨n, hn.trans_le hdrawn, ?_⟩
  rw [hentropy]
  exact htoken

theorem DistinctTokens.earlier {node next : Node disk} (hentropy : next.entropy = node.entropy)
    (hdrawn : node.drawn ≤ next.drawn) (h : next.DistinctTokens) : node.DistinctTokens := by
  intro i hi j hj hsame
  rw [← hentropy] at hsame
  exact h i (hi.trans_le hdrawn) j (hj.trans_le hdrawn) hsame

theorem Flight.frame {busy : Option Str} {node next : Node disk} (h : Flight busy node)
    (hframe : Frame node next) : Flight busy next := by
  have hdrawn : forall token, node.Drawn token -> next.Drawn token :=
    fun _ => Drawn.mono hframe.entropy hframe.drawn
  refine h.alike hdrawn hframe.source ?_ ?_
  · intro id later hlater
    rcases hframe.earlier hlater with ⟨session, hsession, hstays⟩
    exact ⟨session, hsession, hstays.alike⟩
  · intro id later token pending hlater hpending
    rcases hframe.earlier hlater with ⟨session, hsession, hstays⟩
    rw [hstays.pending] at hpending
    exact hdrawn token (h.tokens id session token pending hsession hpending)

theorem Frame.sound {busy : Option Str} {node next : Node disk} (hframe : Frame node next)
    (h : Sound busy node) : Sound busy next :=
  fun hdistinct => (h (hdistinct.earlier hframe.entropy hframe.drawn)).frame hframe

theorem Flight.fresh {busy : Option Str} {node : Node disk} (h : Flight busy node)
    {id : Str} {session : Session} (hsession : node.sessions.get? id = some session)
    {next : Node disk} (hdistinct : next.DistinctTokens) (hentropy : next.entropy = node.entropy)
    (hdrawn : node.drawn < next.drawn) :
    session.pending.get? (node.entropy.token node.drawn) = none := by
  cases hpending : session.pending.get? (node.entropy.token node.drawn) with
  | none => rfl
  | some pending =>
      rcases h.tokens id session _ pending hsession hpending with ⟨n, hn, htoken⟩
      rw [← hentropy] at htoken
      have hsame := hdistinct n (hn.trans hdrawn) node.drawn hdrawn htoken
      omega

theorem asks_set {session : Session} {token : Str} {pending : PendingRequest}
    (hfresh : session.pending.get? token = none) (hkind : pending.request.kind ≠ .getBlocks)
    (other : Str) :
    Session.Asks { session with pending := session.pending.set token pending } other <->
      session.Asks other := by
  unfold Session.Asks
  rw [Dict.get?_set]
  by_cases hother : other = token
  · rw [if_pos hother, hother, hfresh]
    constructor
    · rintro ⟨found, hfound, hblocks⟩
      rw [← Option.some.inj hfound] at hblocks
      exact absurd hblocks hkind
    · rintro ⟨_, hfound, _⟩
      cases hfound
  · rw [if_neg hother]

theorem asks_erase {session : Session} {token : Str} {pending : PendingRequest}
    (hpending : session.pending.get? token = some pending)
    (hkind : pending.request.kind ≠ .getBlocks) (other : Str) :
    Session.Asks { session with pending := session.pending.erase token } other <->
      session.Asks other := by
  unfold Session.Asks
  rw [Dict.get?_erase]
  by_cases hother : other = token
  · rw [if_pos hother, hother, hpending]
    constructor
    · rintro ⟨_, hfound, _⟩
      cases hfound
    · rintro ⟨found, hfound, hblocks⟩
      rw [← Option.some.inj hfound] at hblocks
      exact absurd hblocks hkind
  · rw [if_neg hother]

theorem Flight.replace {busy : Option Str} {node : Node disk} (h : Flight busy node) {id : Str}
    {session later : Session} (hsession : node.sessions.get? id = some session)
    (halike : session.Alike later)
    (htokens : forall token pending, later.pending.get? token = some pending ->
      node.Drawn token) : Flight busy (node.replace id later) := by
  refine h.alike (fun _ hdrawn => hdrawn) rfl ?_ ?_
  · intro other found hfound
    rw [get?_replace hsession] at hfound
    split at hfound
    · rename_i hother
      rw [hother, ← Option.some.inj hfound]
      exact ⟨session, hsession, halike⟩
    · exact ⟨found, hfound, (Session.Stays.refl found).alike⟩
  · intro other found token pending hfound hpending
    rw [get?_replace hsession] at hfound
    split at hfound
    · rw [← Option.some.inj hfound] at hpending
      exact htokens token pending hpending
    · exact h.tokens other found token pending hfound hpending

theorem Routine.sound {busy : Option Str} {node next : Node disk} (hroutine : Routine node next)
    (h : Sound busy node) : Sound busy next := by
  cases hroutine with
  | framed hframe => exact hframe.sound h
  | @asked middle id session request deadline hframe hdrawn hsession hkind =>
      intro hdistinct
      have hearlier := h (hdistinct.earlier hframe.entropy hframe.drawn)
      rcases hframe.earlier hsession with ⟨first, hfirst, hstays⟩
      have hfresh : session.pending.get? (node.entropy.token node.drawn) = none := by
        rw [hstays.pending]
        exact hearlier.fresh hfirst hdistinct hframe.entropy hdrawn
      have hflight := hearlier.frame hframe
      refine hflight.replace hsession ⟨fun h => h, Or.inl, asks_set hfresh hkind⟩ ?_
      intro token pending hpending
      rw [Dict.get?_set] at hpending
      split at hpending
      · rename_i htoken
        refine ⟨node.drawn, hdrawn, ?_⟩
        rw [hframe.entropy, htoken]
      · exact hflight.tokens id session token pending hsession hpending
  | @answered id requestId session pending hsession hpending hkind =>
      intro hdistinct
      have hflight := h hdistinct
      refine hflight.replace hsession ⟨fun h => h, Or.inl, asks_erase hpending hkind⟩ ?_
      intro token other hother
      rw [Dict.get?_erase] at hother
      split at hother
      · cases hother
      · exact hflight.tokens id session token other hsession hother

/-!
## The course of a download
-/

section Course

variable {busy : Option Str} {node : Node disk} {id token : Str} {session : Session}

theorem Flight.answer (h : Flight none node) (hsession : node.sessions.get? id = some session)
    (hopen : session.peer.closed = false) (hasks : session.Asks token) :
    Flight (some id) (node.replace id
      { session with pending := session.pending.erase token }) := by
  have hsource : node.sync.source = some id :=
    (h.owner id session hsession hopen (by simp)).mpr ⟨token, hasks⟩
  have hsettled : forall other,
      ¬ Session.Asks { session with pending := session.pending.erase token } other := by
    rintro other ⟨pending, hpending, hkind⟩
    rw [Dict.get?_erase] at hpending
    split at hpending
    · cases hpending
    · rename_i hother
      exact hother (h.single id session other token hsession ⟨pending, hpending, hkind⟩ hasks)
  refine ⟨?_, h.source, ?_, ?_, ?_, ?_, ?_⟩
  · intro other found hfound
    rw [get?_replace hsession] at hfound
    split at hfound
    · rename_i hother
      rw [hother]
      exact h.ids id session hsession
    · exact h.ids other found hfound
  · intro other found key pending hfound hpending
    rw [get?_replace hsession] at hfound
    split at hfound
    · rw [← Option.some.inj hfound, Dict.get?_erase] at hpending
      split at hpending
      · cases hpending
      · exact h.tokens id session key pending hsession hpending
    · exact h.tokens other found key pending hfound hpending
  · intro other found key hfound hclosed hfound_asks
    rw [get?_replace hsession] at hfound
    split at hfound
    · rw [← Option.some.inj hfound] at hfound_asks
      exact absurd hfound_asks (hsettled key)
    · exact h.established other found key hfound hclosed hfound_asks
  · intro other found key key' hfound hfound_asks hfound_asks'
    rw [get?_replace hsession] at hfound
    split at hfound
    · rw [← Option.some.inj hfound] at hfound_asks
      exact absurd hfound_asks (hsettled key)
    · exact h.single other found key key' hfound hfound_asks hfound_asks'
  · intro other found hfound hclosed hbusy
    rw [get?_replace hsession] at hfound
    split at hfound
    · rename_i hother
      exact absurd (congrArg some hother.symm) hbusy
    · exact h.owner other found hfound hclosed (by simp)
  · intro other hbusy
    rw [← Option.some.inj hbusy]
    refine ⟨Or.inr hsource, ?_⟩
    intro found key hfound _
    rw [get?_replace_self hsession] at hfound
    rw [← Option.some.inj hfound]
    exact hsettled key

theorem Flight.forget (h : Flight busy node)
    (hidle : forall id session token, node.sync.source = some id ->
      node.sessions.get? id = some session -> session.peer.closed = false ->
      ¬ session.Asks token)
    {sync : SyncManager} (hsource : sync.source = none) :
    Flight none { node with sync := sync } where
  ids := h.ids
  source := by
    intro other hother
    rw [show sync.source = some other from hother] at hsource
    cases hsource
  tokens := h.tokens
  established := h.established
  single := h.single
  owner := by
    intro other found hfound hclosed _
    constructor
    · intro hother
      rw [show sync.source = some other from hother] at hsource
      cases hsource
    · rintro ⟨token, hasks⟩
      by_cases hbusy : busy = some other
      · exact absurd hasks ((h.busy other hbusy).right found token hfound hclosed)
      · have hnamed := (h.owner other found hfound hclosed hbusy).mpr ⟨token, hasks⟩
        exact absurd hasks (hidle other found token hnamed hfound hclosed)
  busy := by
    rintro other ⟨⟩

theorem Flight.settle (h : Flight (some id) node) {sync : SyncManager}
    (hsource : sync.source = none) : Flight none { node with sync := sync } := by
  refine h.forget ?_ hsource
  intro other found token hnamed hfound hclosed
  rcases h.busy id rfl with ⟨hnone | hsame, hidle⟩
  · rw [hnamed] at hnone
    cases hnone
  · rw [hnamed] at hsame
    rw [Option.some.inj hsame] at hfound
    exact hidle found token hfound hclosed

theorem Flight.close (h : Flight (some id) node)
    (hclosed : forall session, node.sessions.get? id = some session ->
      session.peer.closed = true) : Flight none node :=
  { h with
    owner := by
      intro other found hfound hopen _
      refine h.owner other found hfound hopen ?_
      intro hbusy
      rw [← Option.some.inj hbusy] at hfound
      rw [hclosed found hfound] at hopen
      cases hopen
    busy := by
      rintro other ⟨⟩ }

theorem Flight.idle (h : Flight none node) (hsource : node.sync.source = none) (id : Str) :
    Flight (some id) node :=
  { h with
    owner := fun other found hfound hopen _ => h.owner other found hfound hopen (by simp)
    busy := by
      intro other _
      refine ⟨Or.inl hsource, ?_⟩
      intro found token hfound hopen hasks
      have hnamed := (h.owner other found hfound hopen (by simp)).mpr ⟨token, hasks⟩
      rw [hsource] at hnamed
      cases hnamed }

theorem Flight.ask (h : Flight none node) (hsource : node.sync.source = none)
    (hsession : node.sessions.get? id = some session)
    (hestablished : session.peer.established = true ∨ session.peer.closed = true)
    (hfree : forall other, ¬ session.Asks other) (hdrawn : node.Drawn token)
    {pending : PendingRequest} (hkind : pending.request.kind = .getBlocks)
    {sync : SyncManager} (hnamed : sync.source = some id) :
    Flight none { node.replace id
      { session with pending := session.pending.set token pending } with sync := sync } := by
  have hasks : forall other,
      Session.Asks { session with pending := session.pending.set token pending } other <->
        other = token := by
    intro other
    unfold Session.Asks
    rw [Dict.get?_set]
    by_cases hother : other = token
    · rw [if_pos hother]
      exact ⟨fun _ => hother, fun _ => ⟨pending, rfl, hkind⟩⟩
    · rw [if_neg hother]
      exact ⟨fun hfound => absurd hfound (hfree other), fun h => absurd h hother⟩
  have hget : forall other, (node.replace id
      { session with pending := session.pending.set token pending }).sessions.get? other =
        if other = id then some { session with pending := session.pending.set token pending }
        else node.sessions.get? other := get?_replace hsession
  refine ⟨?_, ?_, ?_, ?_, ?_, ?_, ?_⟩
  · intro other found hfound
    rw [hget] at hfound
    split at hfound
    · rename_i hother
      rw [hother]
      exact h.ids id session hsession
    · exact h.ids other found hfound
  · intro other hother
    have hsame := hnamed.symm.trans hother
    rw [← Option.some.inj hsame]
    exact h.ids id session hsession
  · intro other found key request hfound hrequest
    rw [hget] at hfound
    split at hfound
    · rw [← Option.some.inj hfound, Dict.get?_set] at hrequest
      split at hrequest
      · rename_i hkey
        rw [hkey]
        exact hdrawn
      · exact h.tokens id session key request hsession hrequest
    · exact h.tokens other found key request hfound hrequest
  · intro other found key hfound hclosed hfound_asks
    rw [hget] at hfound
    split at hfound
    · rw [← Option.some.inj hfound] at hclosed ⊢
      rcases hestablished with hkept | hlost
      · exact hkept
      · rw [show session.peer.closed = false from hclosed] at hlost
        cases hlost
    · exact h.established other found key hfound hclosed hfound_asks
  · intro other found key key' hfound hfound_asks hfound_asks'
    rw [hget] at hfound
    split at hfound
    · rw [← Option.some.inj hfound] at hfound_asks hfound_asks'
      rw [(hasks key).mp hfound_asks, (hasks key').mp hfound_asks']
    · exact h.single other found key key' hfound hfound_asks hfound_asks'
  · intro other found hfound hclosed _
    rw [hget] at hfound
    split at hfound
    · rename_i hother
      rw [hother, ← Option.some.inj hfound]
      exact ⟨fun _ => ⟨token, (hasks token).mpr rfl⟩, fun _ => hnamed⟩
    · rename_i hother
      constructor
      · intro hlater
        have hsame := hnamed.symm.trans hlater
        exact absurd (Option.some.inj hsame).symm hother
      · intro hfound_asks
        have hearlier := (h.owner other found hfound hclosed (by simp)).mpr hfound_asks
        rw [hsource] at hearlier
        cases hearlier
  · rintro other ⟨⟩

theorem Flight.leave (h : Flight busy node) (id : Str) (closedPeers : List Str) :
    Flight busy { node with
      closedPeers := closedPeers
      sessions := node.sessions.erase id } := by
  have hkept : forall {other : Str} {found : Session},
      (node.sessions.erase id).get? other = some found ->
        node.sessions.get? other = some found := by
    intro other found hfound
    rw [Dict.get?_erase] at hfound
    split at hfound
    · cases hfound
    · exact hfound
  refine h.alike (fun _ hdrawn => hdrawn) rfl ?_ ?_
  · intro other found hfound
    exact ⟨found, hkept hfound, (Session.Stays.refl found).alike⟩
  · intro other found token pending hfound hpending
    exact h.tokens other found token pending (hkept hfound) hpending

theorem Flight.enter (h : Flight none node) (remote : Endpoint) (dialEndpoint : Option Endpoint)
    (now : Rat) (hdistinct : (node.opened remote dialEndpoint now).DistinctTokens) :
    Flight none (node.opened remote dialEndpoint now) := by
  have hfresh : ¬ node.Drawn (node.entropy.token node.drawn) := by
    rintro ⟨n, hn, htoken⟩
    have hsame := hdistinct n (hn.trans (by simp [opened])) node.drawn (by simp [opened]) htoken
    omega
  have hdrawn : forall {token : Str}, node.Drawn token ->
      (node.opened remote dialEndpoint now).Drawn token := by
    intro token hold
    refine Drawn.mono ?_ ?_ hold
    · rfl
    · exact Nat.le_add_right node.drawn 2
  have hget : forall {other : Str} {found : Session},
      (node.opened remote dialEndpoint now).sessions.get? other = some found ->
        (other = node.entropy.token node.drawn ∧ found.pending = Dict.empty) ∨
          node.sessions.get? other = some found := by
    intro other found hfound
    rw [opened, Dict.get?_set] at hfound
    split at hfound
    · rename_i hother
      refine Or.inl ⟨hother, ?_⟩
      rw [← Option.some.inj hfound]
      rfl
    · exact Or.inr hfound
  have hquiet : forall {found : Session} {token : Str}, found.pending = Dict.empty ->
      ¬ found.Asks token := by
    rintro found token hempty ⟨pending, hpending, _⟩
    rw [hempty] at hpending
    cases hpending
  refine ⟨?_, fun other hother => hdrawn (h.source other hother), ?_, ?_, ?_, ?_, ?_⟩
  · intro other found hfound
    rcases hget hfound with ⟨hother, _⟩ | hold
    · rw [hother]
      exact ⟨node.drawn, by simp [opened], rfl⟩
    · exact hdrawn (h.ids other found hold)
  · intro other found token pending hfound hpending
    rcases hget hfound with ⟨_, hempty⟩ | hold
    · rw [hempty] at hpending
      cases hpending
    · exact hdrawn (h.tokens other found token pending hold hpending)
  · intro other found token hfound hopen hasks
    rcases hget hfound with ⟨_, hempty⟩ | hold
    · exact absurd hasks (hquiet hempty)
    · exact h.established other found token hold hopen hasks
  · intro other found token token' hfound hasks hasks'
    rcases hget hfound with ⟨_, hempty⟩ | hold
    · exact absurd hasks (hquiet hempty)
    · exact h.single other found token token' hold hasks hasks'
  · intro other found hfound hopen _
    rcases hget hfound with ⟨hother, hempty⟩ | hold
    · constructor
      · intro hnamed
        rw [hother] at hnamed
        exact absurd (h.source _ hnamed) hfresh
      · rintro ⟨token, hasks⟩
        exact absurd hasks (hquiet hempty)
    · exact h.owner other found hold hopen (by simp)
  · rintro other ⟨⟩

end Course

/-!
## Methods
-/

def Any (_ _ : Node disk) : Prop :=
  True

section Rules

variable {alpha : Type} {act : NodeM disk alpha} {P : Node disk -> Prop} {node : Node disk}

theorem within_holds (h : Within (Preserves P) act) (hP : P node) :
    Leads Any act node (fun _ => P) (fun _ => P) := by
  have hfinal := preserves_final (h node) hP
  cases hrun : act node with
  | ok a next =>
      rw [finalState_of_ok hrun] at hfinal
      exact leads_of_ok hrun (Relation.ReflTransGen.single trivial) hfinal
  | error e next =>
      rw [finalState_of_error hrun] at hfinal
      exact leads_of_error hrun (Relation.ReflTransGen.single trivial) hfinal

theorem holds_within
    (h : forall node, P node -> Leads Any act node (fun _ => P) (fun _ => P)) :
    Within (Preserves P) act := by
  intro node
  cases hrun : act node with
  | ok a next =>
      exact leads_of_ok hrun
        (Relation.ReflTransGen.single (fun hP => ((h node hP).of_ok hrun).right)) trivial
  | error e next =>
      exact leads_of_error hrun
        (Relation.ReflTransGen.single (fun hP => ((h node hP).of_error hrun).right)) trivial

theorem leads_both {move : Node disk -> Node disk -> Prop} {post : alpha -> Node disk -> Prop}
    {raised : PyError -> Node disk -> Prop} (h : Leads Any act node post raised)
    (hmove : Within move act) :
    Leads Any act node (fun a next => post a next ∧ Relation.ReflTransGen move node next)
      raised := by
  cases hrun : act node with
  | ok a next =>
      exact leads_of_ok hrun (h.of_ok hrun).left
        ⟨(h.of_ok hrun).right, ((hmove node).of_ok hrun).left⟩
  | error e next => exact leads_of_error hrun (h.of_error hrun).left (h.of_error hrun).right

theorem any_step (node next : Node disk) : Relation.ReflTransGen Any node next :=
  Relation.ReflTransGen.single trivial

end Rules

def Settled (node : Node disk) : Prop :=
  Sound none node ∧ node.sync.source = none

theorem Routine.source {node next : Node disk} (h : Routine node next) :
    next.sync.source = node.sync.source := by
  cases h with
  | framed hframe => exact hframe.source
  | asked hframe _ _ _ => exact hframe.source
  | answered _ _ _ => rfl

theorem plain_sound {alpha : Type} {busy : Option Str} {act : NodeM disk alpha} (h : Plain act) :
    Within (Preserves (Sound busy)) act :=
  h.mono (fun _ _ => Routine.sound)

theorem plain_settled {alpha : Type} {act : NodeM disk alpha} (h : Plain act) :
    Within (Preserves Settled) act := by
  refine h.mono (fun node next hroutine hsettled => ⟨hroutine.sound hsettled.left, ?_⟩)
  rw [hroutine.source]
  exact hsettled.right

theorem Settled.busy {node : Node disk} (h : Settled node) (id : Str) : Sound (some id) node :=
  fun hdistinct => (h.left hdistinct).idle h.right id

theorem Sound.same {busy : Option Str} {node next : Node disk} (h : Sound busy node)
    (hsessions : next.sessions = node.sessions) (hsource : next.sync.source = node.sync.source)
    (hentropy : next.entropy = node.entropy) (hdrawn : node.drawn ≤ next.drawn) :
    Sound busy next := by
  intro hdistinct
  have hflight := h (hdistinct.earlier hentropy hdrawn)
  refine hflight.alike (fun _ => Drawn.mono hentropy hdrawn) hsource ?_ ?_
  · intro id later hlater
    rw [hsessions] at hlater
    exact ⟨later, hlater, (Session.Stays.refl later).alike⟩
  · intro id later token pending hlater hpending
    rw [hsessions] at hlater
    exact (hflight.tokens id later token pending hlater hpending).mono hentropy hdrawn

/-!
## Requests
-/

variable {node : Node disk}

theorem request_blocks_flight (env : Env) (id : Str) (payload : GetBlocksPayload)
    (h : Settled node) :
    Leads Any (Node.request env id (.getBlocks payload)) node
      (fun answer next => (answer = none -> Settled next) ∧
        (answer.isSome = true -> forall sync : SyncManager, sync.source = some id ->
          Sound none { next with sync := sync }))
      (fun _ => Settled) := by
  unfold Node.request
  apply leads_get_bind
  apply leads_session_get h
  intro known hknown
  apply leads_ite
  · intro _
    exact leads_pure ⟨fun _ => h, (by simp)⟩
  intro hallowed
  rw [not_or, not_or, not_or, Bool.not_eq_false, Bool.not_eq_true, Bool.not_eq_true] at hallowed
  rcases hallowed with ⟨hestablished, _, _, hfree⟩
  have hdrew := frame_drew node
  have hsend := send_frame id
    { payload := Request.payload (.getBlocks payload)
      requestId := some (node.entropy.token node.drawn) }
    { node with drawn := node.drawn + 1 }
  have hsettled : forall {middle : Node disk}, Frame node middle -> Settled middle := by
    intro middle hframe
    refine ⟨hframe.sound h.left, ?_⟩
    rw [hframe.source]
    exact h.right
  cases hrun : send id
      { payload := Request.payload (.getBlocks payload)
        requestId := some (node.entropy.token node.drawn) }
      { node with drawn := node.drawn + 1 } with
  | error e middle =>
      have hmiddle := hdrew.trans (frames_frame (hsend.of_error hrun).left)
      exact leads_of_error (run_bind_error hrun _) (any_step _ _) (hsettled hmiddle)
  | ok sent middle =>
      have hsent := frames_frame (hsend.of_ok hrun).left
      have hmiddle := hdrew.trans hsent
      cases sent with
      | false =>
          exact leads_of_ok (run_bind_ok hrun _) (any_step _ _)
            ⟨fun _ => hsettled hmiddle, (by simp)⟩
      | true =>
          rcases hmiddle.later hknown with ⟨session, hsession, hstays⟩
          refine leads_of_ok ((run_bind_ok hrun _).trans
            (run_bind_ok (modifySession_run hsession _) _)) (any_step _ _)
            ⟨(by simp), ?_⟩
          intro _ sync hnamed hdistinct
          have hflight := (hsettled hmiddle).left hdistinct
          have hdrawn : middle.Drawn (node.entropy.token node.drawn) :=
            ⟨node.drawn, Nat.lt_of_lt_of_le (Nat.lt_succ_self _) hsent.drawn,
              by rw [hmiddle.entropy]⟩
          refine hflight.ask (hsettled hmiddle).right hsession
            (hstays.established hestablished) ?_ hdrawn rfl hnamed
          intro other hasks
          rw [hstays.alike.asks] at hasks
          have hasked := (Session.hasRequest_iff known).mpr ⟨other, hasks⟩
          rw [show known.hasRequest .getBlocks = false from hfree] at hasked
          cases hasked

theorem requestBlocks_flight (env : Env) (height : Nat) (tipHash : Str) (h : Settled node) :
    Leads Any (requestBlocks env height tipHash) node (fun _ => Sound none)
      (fun _ => Sound none) := by
  unfold requestBlocks
  apply leads_get_bind
  apply leads_lift_bind _ (fun _ _ => h.left)
  intro best _
  split
  · exact leads_pure h.left
  · rename_i id _ _
    refine leads_bind ((request_blocks_flight env id _ h).weaken (fun _ _ _ h => h)
      (fun _ _ _ h => h.left)) ?_
    rintro answer next _ ⟨hnone, hsome⟩
    apply leads_ite
    · intro hanswered
      refine leads_modify_bind (any_step _ _) ?_
      exact within_holds (plain_sound (modifySession_same id (fun _ => rfl) (fun _ => rfl)
        (fun _ => rfl) (fun _ => rfl))) (hsome hanswered _ rfl)
    · intro hanswered
      apply leads_pure
      refine (hnone ?_).left
      rw [← Option.not_isSome_iff_eq_none]
      exact hanswered

/-!
## Answers
-/

/-- The session that is busy while a request of it is settled. -/
def busyWith (id : Str) (request : Request) : Option Str :=
  if request.kind = .getBlocks then some id else none

theorem answer_sound {id token : Str} {known : Session} {pending : PendingRequest}
    (h : Sound none node) (hknown : node.sessions.get? id = some known)
    (hopen : known.peer.closed = false) (hpending : known.pending.get? token = some pending) :
    Sound (busyWith id pending.request) (node.replace id
      { known with pending := known.pending.erase token }) := by
  unfold busyWith
  by_cases hkind : pending.request.kind = .getBlocks
  · rw [if_pos hkind]
    exact fun hdistinct => (h hdistinct).answer hknown hopen ⟨pending, hpending, hkind⟩
  · rw [if_neg hkind]
    exact (Routine.answered hknown hpending hkind).sound h

theorem modify_sound {busy : Option Str} (h : Sound busy node) (id : Str)
    {f : Session -> Session} (hf : forall session : Session, session.Stays (f session)) :
    Sound busy { node with sessions := node.sessions.modify id f } :=
  (frame_modify node id (fun session _ => hf session)).sound h

theorem failedBlocks_flight (env : Env) (id : Str) (payload : GetBlocksPayload)
    (code : FailureCode) (h : Sound (some id) node) :
    Leads Any (failedRequest env id (.getBlocks payload) code) node (fun _ => Sound none)
      (fun _ => Sound none) := by
  unfold failedRequest
  apply leads_get_bind
  have herror : Sound (some id) { node with
      sessions := node.sessions.modify id (fun session =>
        { session with error := some (.failed code) }) } :=
    modify_sound h id (fun _ => ⟨rfl, rfl, fun h => h, fun h => h, Or.inl⟩)
  refine leads_modify_bind (any_step _ _) (leads_modify_bind (any_step _ _) ?_)
  refine within_holds (plain_sound ?_) (fun hdistinct => (herror hdistinct).settle rfl)
  refine within_bind (modifySession_same id (fun _ => rfl) (fun _ => rfl) (fun _ => rfl)
    (fun _ => rfl)) (fun _ => within_ite ?_ (within_pure _))
  exact within_bind (modifySession_same id (fun _ => rfl) (fun _ => rfl) (fun _ => rfl)
    (fun _ => rfl)) (fun _ => within_discard (request_plain env id (by decide)))

theorem failedRequest_flight (env : Env) (id : Str) (request : Request) (code : FailureCode)
    (h : Sound (busyWith id request) node) :
    Leads Any (failedRequest env id request code) node (fun _ => Sound none)
      (fun _ => Sound none) := by
  cases request with
  | getBlocks payload => exact failedBlocks_flight env id payload code h
  | getMempool payload =>
      exact within_holds (plain_sound (failedRequest_plain env id code (by rintro ⟨⟩))) h
  | getStatus => exact within_holds (plain_sound (failedRequest_plain env id code (by decide))) h
  | getPeers => exact within_holds (plain_sound (failedRequest_plain env id code (by decide))) h

/-- What an exception of a handler leaves: the download is sound, or the session that is
going to be closed is busy. -/
def Interrupted (id : Str) (e : PyError) (node : Node disk) : Prop :=
  Sound none node ∨ rejectsPeer e = true ∧ Sound (some id) node

theorem correlate_flight (env : Env) (id requestId : Str) (kind : MessageType) {known : Session}
    (h : Sound none node) (hknown : node.sessions.get? id = some known)
    (hopen : known.peer.closed = false) :
    Leads Any (correlate env id requestId kind) node
      (fun answer next =>
        match answer with
        | none => Sound none next
        | some request => Sound (busyWith id request) next ∧
            (kind = request.response ∨ kind = .error))
      (Interrupted id) := by
  unfold correlate
  apply leads_session_bind hknown
  split
  · apply leads_ite
    · intro _
      exact leads_pure h
    · intro _
      exact leads_throw (Or.inl h)
  · rename_i pending hpending
    have hanswered := modify_sound (answer_sound h hknown hopen hpending) id
      (f := fun session =>
        { session with
          expired := (session.expired.set requestId (env.now + 60)).keepLast 64 })
      (fun _ => ⟨rfl, rfl, fun h => h, fun h => h, Or.inl⟩)
    refine leads_modifySession_bind hknown (any_step _ _)
      (leads_modify_bind (any_step _ _) ?_)
    apply leads_ite
    · intro _
      apply leads_throw
      unfold busyWith at hanswered
      split at hanswered
      · exact Or.inr ⟨rfl, hanswered⟩
      · exact Or.inl hanswered
    · intro hresponse
      refine leads_pure ⟨hanswered, ?_⟩
      by_contra hother
      rw [not_or] at hother
      exact hresponse hother

section Chain

variable [Crypto] {store : Option (ChainStore disk)}

theorem receiveBlocks_flight (env : Env) (id : Str) (expected : GetBlocksPayload)
    (payload : BlocksPayload) (h : Sound (some id) node) :
    Leads Any (receiveBlocks store env id expected payload) node (fun _ => Sound none)
      (fun _ => Sound none) := by
  unfold receiveBlocks
  refine leads_modify_bind (any_step _ _) ?_
  have hsettled : Settled { node with sync := { node.sync with source := none } } :=
    ⟨fun hdistinct => (h hdistinct).settle rfl, rfl⟩
  have hidle : Within (Preserves Settled)
      (modifySession id (fun session => { session with syncState := .idle }) :
        NodeM disk Unit) :=
    plain_settled (modifySession_same id (fun _ => rfl) (fun _ => rfl) (fun _ => rfl)
      (fun _ => rfl))
  have hweak : forall {alpha : Type} {act : NodeM disk alpha} {node : Node disk},
      Within (Preserves Settled) act -> Settled node ->
        Leads Any act node (fun _ => Settled) (fun _ => Sound none) :=
    fun hact hnode => (within_holds hact hnode).weaken (fun _ _ _ h => h) (fun _ _ _ h => h.left)
  refine leads_bind (hweak hidle hsettled) ?_
  intro _ waiting _ hwaiting
  apply leads_ite
  · intro _
    exact leads_throw hwaiting.left
  intro _
  refine leads_bind (hweak (plain_settled tip_plain) hwaiting) ?_
  intro current later _ hlater
  apply leads_ite
  · intro _
    exact leads_pure hlater.left
  intro _
  apply leads_ite
  · intro _
    exact leads_throw hlater.left
  intro _
  refine leads_bind (hweak (plain_settled (acceptBatch_plain env id _)) hlater) ?_
  intro accepted last _ hlast
  apply leads_ite
  · intro _
    exact failedBlocks_flight env id expected _ (hlast.busy id)
  intro _
  refine within_holds (plain_sound (within_bind tip_plain (fun reached =>
    within_ite (within_throw _) (within_get_bind (fun node => ?_))))) hlast.left
  exact within_bind (modifySession_same id (fun _ => rfl) (fun _ => rfl) (fun _ => rfl)
    (fun _ => rfl)) (fun _ => within_ite
      (within_discard (request_plain env id (by decide))) (within_pure _))

theorem receiveResponse_flight (env : Env) (id : Str) (request : Request) (payload : Payload)
    (htype : payload.type = request.response ∨ payload.type = .error)
    (h : Sound (busyWith id request) node) :
    Leads Any (receiveResponse store env id request payload) node (fun _ => Sound none)
      (fun _ => Sound none) := by
  by_cases hblocks : exists expected, request = .getBlocks expected
  · rcases hblocks with ⟨expected, rfl⟩
    cases payload with
    | error code _ => exact failedBlocks_flight env id expected _ h
    | blocks payload => exact receiveBlocks_flight env id expected payload h
    | _ =>
        rcases htype with hresponse | herror
        · cases hresponse
        · cases herror
  · have hkind : request.kind ≠ .getBlocks := by
      intro hkind
      cases request with
      | getBlocks expected => exact hblocks ⟨expected, rfl⟩
      | _ => cases hkind
    have hsound : Sound none node := by
      unfold busyWith at h
      rw [if_neg hkind] at h
      exact h
    refine within_holds (plain_sound ?_) hsound
    unfold receiveResponse
    split
    · exact failedRequest_plain env id _ hkind
    · exact receiveStatus_plain id true _
    · exact within_forM (fun endpoint => learnEndpoint_plain env endpoint)
    · exact absurd ⟨_, rfl⟩ hblocks
    · exact receiveMempool_plain env id _ _
    · exact within_throw _

theorem remote_flight (env : Env) (id : Str) (packet : Packet) {known : Session}
    (h : Sound none node) (hknown : node.sessions.get? id = some known)
    (hopen : known.peer.closed = false) :
    Leads Any (remote store env id packet) node (fun _ => Sound none) (Interrupted id) := by
  have hplain : forall {alpha : Type} {act : NodeM disk alpha} {node : Node disk}, Plain act ->
      Sound none node -> Leads Any act node (fun _ => Sound none) (Interrupted id) :=
    fun hact hnode => (within_holds (plain_sound hact) hnode).weaken (fun _ _ _ h => h)
      (fun _ _ _ h => Or.inl h)
  unfold remote
  refine leads_modify_bind (any_step _ _) ?_
  generalize hcounted : ({ node with counters := _ } : Node disk) = counted
  have hsound : Sound none counted := by
    rw [← hcounted]
    exact h.same rfl rfl rfl (Nat.le_refl _)
  have hfound : counted.sessions.get? id = some known := by
    rw [← hcounted]
    exact hknown
  apply leads_session_bind hfound
  apply leads_ite
  · intro _
    exact hplain (handshake_plain env id _) hsound
  intro _
  split
  · exact leads_throw (Or.inl hsound)
  · exact leads_throw (Or.inl hsound)
  · exact hplain (within_discard (send_plain _ _)) hsound
  · exact hplain (within_ite (within_throw _) (modifySession_same id (fun _ => rfl)
      (fun _ => rfl) (fun _ => rfl) (fun _ => rfl))) hsound
  · exact hplain (within_bind statusPayload_plain (fun _ =>
      within_discard (send_plain _ _))) hsound
  · exact hplain (servePeers_plain env id _) hsound
  · exact hplain (within_bind (consumeService_plain env id) (fun _ => within_ite
      (serveBlocks_plain id _ _) (sendError_plain _ _ _))) hsound
  · exact hplain (within_bind (consumeService_plain env id) (fun _ => within_ite
      (serveMempool_plain env id _ _) (sendError_plain _ _ _))) hsound
  · split
    · exact hplain (receiveAnnouncement_plain env id _) hsound
    · refine leads_bind (correlate_flight env id _ _ hsound hfound hopen) ?_
      intro answer next _ hanswer
      cases answer with
      | none => exact leads_pure hanswer
      | some request =>
          exact (receiveResponse_flight env id request _ hanswer.right hanswer.left).weaken
            (fun _ _ _ h => h) (fun _ _ _ h => Or.inl h)

omit [Crypto] in
theorem close_flight {id : Str} {raised : PyError -> Node disk -> Prop}
    (h : Sound none node ∨ Sound (some id) node) :
    Leads Any (closePeer id) node (fun _ => Sound none) raised := by
  refine leads_modify (any_step _ _) ?_
  have hclosing : forall session : Session,
      session.Stays { session with peer := { session.peer with closed := true } } :=
    fun session => Session.Stays.transport session rfl (fun _ => rfl) (fun _ => Or.inr rfl)
  rcases h with hsound | hbusy
  · exact modify_sound hsound id hclosing
  · intro hdistinct
    refine (modify_sound hbusy id hclosing hdistinct).close ?_
    intro session hsession
    rw [Dict.get?_modify, if_pos rfl, Option.map_eq_some_iff] at hsession
    rcases hsession with ⟨known, _, heq⟩
    rw [← heq]

theorem handleRemote_flight (env : Env) (id : Str) (packet : Packet) :
    Within (Preserves (Sound none)) (handleRemote store env id packet) := by
  apply holds_within
  intro node h
  unfold handleRemote
  apply leads_get_bind
  split
  · exact leads_pure h
  rename_i known hknown
  apply leads_ite
  · intro _
    exact leads_pure h
  intro hopen
  rw [Bool.not_eq_true] at hopen
  refine leads_tryCatch (remote_flight env id packet h hknown hopen) ?_
  intro e next _ hinterrupted
  apply leads_ite
  · intro _
    refine leads_modify_bind (any_step _ _) (close_flight ?_)
    rcases hinterrupted with hsound | ⟨_, hbusy⟩
    · exact Or.inl (modify_sound hsound id (fun _ => ⟨rfl, rfl, fun h => h, fun h => h, Or.inl⟩))
    · exact Or.inr (modify_sound hbusy id (fun _ => ⟨rfl, rfl, fun h => h, fun h => h, Or.inl⟩))
  · intro hkept
    apply leads_throw
    rcases hinterrupted with hsound | ⟨hrejects, _⟩
    · exact hsound
    · exact absurd hrejects hkept

end Chain

/-!
## Ticks
-/

/-- A session that stays open with its requests. -/
def Waits (id : Str) (node next : Node disk) : Prop :=
  forall session, node.sessions.get? id = some session ->
    exists later, next.sessions.get? id = some later ∧ later.peer = session.peer ∧
      later.pending = session.pending

theorem waits_moves {id : Str} {next : Node disk}
    (h : Relation.ReflTransGen (Waits id) node next) : Waits id node next := by
  induction h with
  | refl => exact fun session hsession => ⟨session, hsession, rfl, rfl⟩
  | tail _ hlast ih =>
      intro session hsession
      rcases ih session hsession with ⟨middle, hmiddle, hpeer, hpending⟩
      rcases hlast middle hmiddle with ⟨later, hlater, hpeer', hpending'⟩
      exact ⟨later, hlater, hpeer'.trans hpeer, hpending'.trans hpending⟩

theorem modifySession_waits (id : Str) {f : Session -> Session}
    (hpeer : forall session, (f session).peer = session.peer)
    (hpending : forall session, (f session).pending = session.pending) :
    Within (Waits id) (modifySession id f : NodeM disk Unit) := by
  apply within_modify
  intro node session hsession
  refine ⟨f session, ?_, hpeer session, hpending session⟩
  rw [Dict.get?_modify, if_pos rfl, hsession]
  rfl

theorem failedRequest_waits (env : Env) (id : Str) (request : Request) :
    Within (Waits id) (failedRequest env id request .timeout : NodeM disk Unit) := by
  have hsync : forall f : SyncManager -> SyncManager,
      Within (Waits id) (modifySync f : NodeM disk Unit) :=
    fun f => within_modify (fun _ session hsession => ⟨session, hsession, rfl, rfl⟩)
  unfold failedRequest
  refine within_get_bind (fun node => within_bind
    (modifySession_waits id (fun _ => rfl) (fun _ => rfl)) (fun _ => ?_))
  cases request with
  | getBlocks payload =>
      refine within_bind (hsync _) (fun _ => within_bind
        (modifySession_waits id (fun _ => rfl) (fun _ => rfl)) (fun _ => ?_))
      rw [if_neg (by decide)]
      exact within_pure _
  | getMempool payload =>
      refine within_bind (hsync _) (fun _ => within_bind
        (modifySession_waits id (fun _ => rfl) (fun _ => rfl)) (fun _ => ?_))
      rw [if_neg (by decide)]
      exact within_pure _
  | getStatus => exact within_pure _
  | getPeers => exact within_pure _

theorem timeoutRequest_flight (env : Env) {id : Str} {item : Str × PendingRequest}
    {known : Session} (h : Sound none node) (hknown : node.sessions.get? id = some known)
    (hopen : known.peer.closed = false) (hpending : known.pending.get? item.1 = some item.2) :
    Leads Any (timeoutRequest env id item) node
      (fun _ next => Sound none next ∧ exists later, next.sessions.get? id = some later ∧
        later.peer.closed = false ∧
          forall token, token ≠ item.1 ->
            later.pending.get? token = known.pending.get? token)
      (fun _ => Sound none) := by
  unfold timeoutRequest
  apply leads_ite
  · intro _
    refine leads_modifySession_bind hknown (any_step _ _) ?_
    have herased := answer_sound h hknown hopen hpending
    have hfound : (node.replace id
        { known with pending := known.pending.erase item.1 }).sessions.get? id =
          some { known with pending := known.pending.erase item.1 } :=
      get?_replace_self hknown
    have hexpired := modify_sound herased id
      (f := fun session =>
        { session with expired := (session.expired.set item.1 (env.now + 60)).keepLast 64 })
      (fun _ => ⟨rfl, rfl, fun h => h, fun h => h, Or.inl⟩)
    refine leads_modify_bind (any_step _ _) ?_
    refine (leads_both (failedRequest_flight env id item.2.request .timeout hexpired)
      (failedRequest_waits env id item.2.request)).weaken ?_ (fun _ _ _ h => h)
    rintro _ next _ ⟨hsound, hmoves⟩
    refine ⟨hsound, ?_⟩
    have hremembered := waits_moves hmoves
      { known with
        pending := known.pending.erase item.1
        expired := (known.expired.set item.1 (env.now + 60)).keepLast 64 }
    rcases hremembered (by
        dsimp only
        rw [Dict.get?_modify, if_pos rfl, hfound]
        rfl) with ⟨later, hlater, hpeer, hrest⟩
    refine ⟨later, hlater, ?_, ?_⟩
    · rw [hpeer]
      exact hopen
    · intro token htoken
      rw [hrest, Dict.get?_erase, if_neg htoken]
  · intro _
    exact leads_pure ⟨h, known, hknown, hopen, fun _ _ => rfl⟩

theorem timeouts_flight (env : Env) (id : Str) (items : List (Str × PendingRequest)) :
    forall (node : Node disk) (known : Session), Sound none node ->
      node.sessions.get? id = some known -> known.peer.closed = false ->
      (items.map Prod.fst).Nodup ->
      (forall item, item ∈ items -> known.pending.get? item.1 = some item.2) ->
      Leads Any (items.forM (timeoutRequest env id)) node (fun _ => Sound none)
        (fun _ => Sound none) := by
  induction items with
  | nil =>
      intro node known h _ _ _ _
      exact leads_pure h
  | cons item rest ih =>
      intro node known h hknown hopen hnodup hpending
      rw [List.map_cons, List.nodup_cons] at hnodup
      rw [List.forM_eq_forM, List.forM_cons]
      refine leads_bind (timeoutRequest_flight env h hknown hopen
        (hpending item List.mem_cons_self)) ?_
      rintro _ next _ ⟨hsound, later, hlater, hstill, hrest⟩
      refine ih next later hsound hlater hstill hnodup.right ?_
      intro other hother
      rw [hrest]
      · exact hpending other (List.mem_cons_of_mem _ hother)
      · intro hsame
        apply hnodup.left
        rw [← hsame]
        exact List.mem_map.mpr ⟨other, hother, rfl⟩

theorem tickSession_flight (env : Env) (id : Str) :
    Within (Preserves (Sound none)) (tickSession env id : NodeM disk Unit) := by
  apply holds_within
  intro node h
  unfold tickSession
  apply leads_get_bind
  apply leads_session_get h
  intro known hknown
  apply leads_ite
  · intro _
    exact leads_pure h
  intro hopen
  rw [Bool.not_eq_true] at hopen
  apply leads_ite
  · intro _
    exact within_holds (plain_sound (within_ite (closePeer_plain id) (within_pure _))) h
  intro _
  refine leads_bind (timeouts_flight env id known.pending.items node known h hknown hopen
    known.pending.nodupKeys (fun item hitem => (Dict.get?_eq_some_iff _ _ _).mpr hitem)) ?_
  intro _ next _ hsound
  exact within_holds (plain_sound (within_bind (modifySession_same id (fun _ => rfl)
    (fun _ => rfl) (fun _ => rfl) (fun _ => rfl)) (fun _ => maintain_plain env id))) hsound

section Chain

variable [Crypto] {store : Option (ChainStore disk)}

/-- The sessions a tick may ask. -/
def liveIds (node : Node disk) : List Str :=
  (node.sessions.items.filter (fun item => item.2.live)).map Prod.fst

omit [Crypto] in
theorem mem_liveIds_iff {id : Str} :
    id ∈ node.liveIds <-> exists session, node.sessions.get? id = some session ∧
      session.live = true := by
  unfold liveIds
  rw [List.mem_map]
  constructor
  · rintro ⟨item, hitem, rfl⟩
    rcases List.mem_filter.mp hitem with ⟨hmem, hlive⟩
    exact ⟨item.2, (Dict.get?_eq_some_iff _ _ _).mpr hmem, hlive⟩
  · rintro ⟨session, hsession, hlive⟩
    exact ⟨(id, session), List.mem_filter.mpr
      ⟨(Dict.get?_eq_some_iff _ _ _).mp hsession, hlive⟩, rfl⟩

/-- What is left of the source when a tick looks for a new one. -/
def keptSource (node : Node disk) : Option Str :=
  match node.sync.source with
  | none => none
  | some id => if id ∈ node.liveIds then some id else none

omit [Crypto] in
theorem keptSource_sound (h : Sound none node) :
    Sound none { node with sync := { node.sync with source := node.keptSource } } := by
  cases hsource : node.sync.source with
  | none =>
      have hkept : node.keptSource = none := by
        unfold keptSource
        rw [hsource]
      rw [hkept]
      exact h.same rfl hsource.symm rfl (Nat.le_refl _)
  | some id =>
      by_cases hlive : id ∈ node.liveIds
      · have hkept : node.keptSource = some id := by
          unfold keptSource
          rw [hsource]
          exact if_pos hlive
        rw [hkept]
        exact h.same rfl hsource.symm rfl (Nat.le_refl _)
      · have hkept : node.keptSource = none := by
          unfold keptSource
          rw [hsource]
          exact if_neg hlive
        rw [hkept]
        intro hdistinct
        have hflight := h hdistinct
        refine hflight.forget ?_ rfl
        intro other session token hnamed hsession hopen hasks
        rw [hsource] at hnamed
        rw [← Option.some.inj hnamed] at hsession
        apply hlive
        rw [mem_liveIds_iff]
        refine ⟨session, hsession, ?_⟩
        unfold Session.live
        rw [hflight.established id session token hsession hopen hasks, hopen]
        rfl

theorem syncTick_flight (env : Env) :
    Within (Preserves (Sound none)) (syncTick env : NodeM disk Unit) := by
  unfold syncTick
  refine within_get_bind (fun _ => within_bind
    (within_forM (fun id => plain_sound (expireExport_plain env id))) (fun _ =>
      within_bind (plain_sound tip_plain) (fun current => ?_)))
  apply holds_within
  intro node h
  apply leads_get_bind
  refine leads_modify_bind (any_step _ _) ?_
  have hkept := keptSource_sound h
  apply leads_get_bind
  have hmempool : forall ids : List Str, Within (Preserves (Sound none))
      (ids.forM (requestMempool env current.1 current.2) : NodeM disk Unit) :=
    fun _ => within_forM (fun id => plain_sound (requestMempool_plain env _ _ id))
  apply leads_ite
  · intro hsource
    refine leads_bind (requestBlocks_flight env _ _ ⟨hkept, hsource⟩) ?_
    intro _ next _ hnext
    exact within_holds (hmempool _) hnext
  · intro _
    exact within_holds (hmempool _) hkept

/-!
## Connections
-/

omit [Crypto] in
theorem syncDisconnected_flight (id : Str) (h : Sound none node)
    (hgone : node.sessions.get? id = none) :
    Leads Any (syncDisconnected id) node (fun _ => Sound none) (fun _ => Sound none) := by
  unfold syncDisconnected
  have hdropped : Leads Any (dropExport id) node
      (fun _ next => Sound none next ∧ next.sessions = node.sessions) (fun _ => Sound none) := by
    refine leads_modify (any_step _ _) ⟨h.same rfl ?_ rfl (Nat.le_refl _), rfl⟩
    dsimp only
    split
    · rfl
    · rfl
  refine leads_bind hdropped ?_
  rintro _ next _ ⟨hsound, hsessions⟩
  refine leads_modify (any_step _ _) ?_
  dsimp only
  by_cases hnamed : next.sync.source = some id
  · rw [if_pos hnamed]
    refine fun hdistinct => (hsound hdistinct).forget ?_ rfl
    intro other session token hother hsession _ _
    rw [hnamed] at hother
    rw [hsessions, ← Option.some.inj hother, hgone] at hsession
    cases hsession
  · rw [if_neg hnamed]
    exact hsound.same rfl rfl rfl (Nat.le_refl _)

omit [Crypto] in
theorem reapPeer_flight (env : Env) (id : Str) :
    Within (Preserves (Sound none)) (reapPeer env id : NodeM disk Unit) := by
  apply holds_within
  intro node h
  unfold reapPeer
  apply leads_get_bind
  have hleft : Sound none { node with
      closedPeers := node.closedPeers.erase id
      sessions := node.sessions.erase id } :=
    fun hdistinct => Flight.leave (h hdistinct) id _
  have hset : Leads Any
      (set { node with
        closedPeers := node.closedPeers.erase id
        sessions := node.sessions.erase id } : NodeM disk PUnit) node
      (fun _ next => next = { node with
        closedPeers := node.closedPeers.erase id
        sessions := node.sessions.erase id }) (fun _ => Sound none) :=
    leads_of_ok rfl (any_step _ _) rfl
  refine leads_bind hset ?_
  rintro _ next _ hnext
  rw [hnext]
  split
  · exact leads_pure hleft
  · have hgone : (node.sessions.erase id).get? id = none := by
      rw [Dict.get?_erase, if_pos rfl]
    refine leads_bind (syncDisconnected_flight id hleft hgone) ?_
    intro _ later _ hlater
    split
    · exact leads_pure hlater
    · apply leads_get_bind
      apply leads_ite
      · intro _
        refine leads_drawJitter_bind trivial (fun jitter => ?_)
        apply leads_get_bind
        have hdrew := (frame_drew later).sound hlater
        apply leads_lift_bind
        · intro manager _
          exact leads_of_ok rfl (any_step _ _) (hdrew.same rfl rfl rfl (Nat.le_refl _))
        · intro _ _
          exact hdrew
      · intro _
        exact leads_pure hlater

theorem attach_flight (env : Env) (remote : Endpoint) (dialEndpoint : Option Endpoint) :
    Within (Preserves (Sound none)) (attach env remote dialEndpoint : NodeM disk Str) := by
  intro node
  refine attach_routine env remote dialEndpoint (fun _ _ h => h.sound) ?_
  intro h hdistinct
  refine Flight.enter (h (hdistinct.earlier ?_ ?_)) remote dialEndpoint env.now hdistinct
  · rfl
  · exact Nat.le_add_right node.drawn 2

/-!
## Events
-/

omit [Crypto] in
theorem dialDue_flight (env : Env) (endpoints : List Endpoint) :
    Within (Preserves (Sound none)) (dialDue env endpoints : NodeM disk Unit) := by
  have hcandidate : forall endpoint : Endpoint,
      Within (Preserves (Sound none)) (dialCandidate env endpoint : NodeM disk Bool) := by
    intro endpoint node
    unfold dialCandidate
    apply leads_get_bind
    refine leads_ite (fun _ => leads_pure trivial) (fun _ =>
      leads_ite (fun _ => leads_pure trivial) (fun _ => ?_))
    refine leads_drawJitter_bind (frame_drew node).sound (fun jitter => ?_)
    apply leads_get_bind
    apply leads_lift_bind _ (fun _ _ => trivial)
    intro marked _
    exact leads_of_ok rfl (Relation.ReflTransGen.single
      (fun h => h.same rfl rfl rfl (Nat.le_refl _))) trivial
  induction endpoints with
  | nil => exact within_pure _
  | cons endpoint rest ih =>
      unfold dialDue
      exact within_bind (hcandidate endpoint) (fun _ => within_ite ih (within_pure _))

omit [Crypto] in
theorem connect_flight (env : Env) (endpoint : Endpoint) :
    Within (Preserves (Sound none)) (connect env endpoint : NodeM disk Unit) := by
  intro node
  unfold connect
  apply leads_get_bind
  refine leads_ite (fun _ => leads_throw trivial) (fun _ => ?_)
  apply leads_lift_bind _ (fun _ _ => trivial)
  intro found _
  refine leads_ite (fun _ => leads_throw trivial) (fun _ =>
    leads_ite (fun _ => leads_pure trivial) (fun _ =>
      leads_ite (fun _ => leads_throw trivial) (fun _ => ?_)))
  apply leads_lift_bind _ (fun _ _ => trivial)
  intro added _
  refine leads_drawJitter_bind (frame_drew node).sound (fun jitter => ?_)
  apply leads_lift_bind _ (fun _ _ => trivial)
  intro marked _
  exact leads_modify (Relation.ReflTransGen.single
    (fun h => h.same rfl rfl rfl (Nat.le_refl _))) trivial

omit [Crypto] in
theorem dialFailed_flight (env : Env) (endpoint : Endpoint) :
    Within (Preserves (Sound none)) (dialFailed env endpoint : NodeM disk Unit) := by
  intro node
  unfold dialFailed
  refine leads_drawJitter_bind (frame_drew node).sound (fun jitter => ?_)
  apply leads_get_bind
  apply leads_lift_bind _ (fun _ _ => trivial)
  intro manager _
  refine leads_of_ok rfl (Relation.ReflTransGen.single ?_) trivial
  intro h
  have hclosed := (frame_mapValues { node with drawn := node.drawn + 1 }
    (f := fun session =>
      if session.dialEndpoint = some endpoint then
        { session with peer := session.peer.beginClose }
      else session) (fun session => by
        split
        · exact Session.Stays.beginClose session
        · exact Session.Stays.refl session)).sound h
  exact hclosed.same rfl rfl rfl (Nat.le_refl _)

theorem tick_flight (env : Env) :
    Within (Preserves (Sound none)) (tick env : NodeM disk Unit) := by
  unfold tick
  refine within_get_bind (fun _ => within_bind (within_forM (tickSession_flight env)) (fun _ =>
    within_bind (syncTick_flight env) (fun _ => within_bind ?_ (fun _ =>
      within_get_bind (fun _ => dialDue_flight env _)))))
  exact within_modify (fun _ h => h.same rfl rfl rfl (Nat.le_refl _))

theorem handleEvent_flight (env : Env) (kind : EventKind) :
    Within (Preserves (Sound none)) (handleEvent store env kind) := by
  unfold handleEvent
  split
  · refine within_bind (within_modify (fun _ h => h.same rfl rfl rfl (Nat.le_refl _)))
      (fun _ => within_bind (tick_flight env) (fun _ => within_pure _))
  · exact within_bind (handleRemote_flight env _ _) (fun _ => within_pure _)
  · refine within_tryCatch (within_bind (plain_sound (runCommand_plain env _))
      (fun _ => within_pure _)) (fun e => within_ite (within_pure _) (within_throw _))

theorem dispatch_flight (env : Env) (cancelled : Bool) :
    Within (Preserves (Sound none)) (dispatch store env cancelled) := by
  intro node
  unfold dispatch
  apply leads_get_bind
  apply leads_ite
  · intro _
    exact leads_pure trivial
  intro _
  split
  · exact leads_pure trivial
  rename_i event rest hevents
  have hpopped : Leads (Preserves (Sound none))
      (set { node with events := rest } : NodeM disk PUnit) node
      (fun _ _ => True) (fun _ _ => True) :=
    leads_of_ok rfl (Relation.ReflTransGen.single
      (fun h => h.same rfl rfl rfl (Nat.le_refl _))) trivial
  refine leads_bind hpopped (fun _ later _ _ => ?_)
  refine within_bind (within_tryCatch ?_ (fun e => within_bind (plain_sound (fatal_plain e))
    (fun _ => within_pure _))) (fun _ => within_bind (plain_sound (release_plain _))
      (fun _ => within_pure _)) later
  refine within_bind ?_ (fun _ => within_ite (within_pure _) (handleEvent_flight env _))
  unfold reapPeers
  exact within_get_bind (fun _ => within_forM (reapPeer_flight env))

theorem handle_flight (env : Env) (event : NodeEvent) :
    Within (Preserves (Sound none)) (handle store env event) := by
  unfold handle
  cases event with
  | acceptedSocket remote =>
      refine within_bind ?_ (fun _ => within_pure _)
      unfold acceptedSocket
      refine within_get_bind (fun node => within_ite (within_pure _) ?_)
      split
      · exact within_pure _
      · exact within_tryCatch (within_discard (attach_flight env remote none))
          (fun e => plain_sound (fatal_plain e))
  | connect endpoint => exact within_bind (connect_flight env endpoint) (fun _ => within_pure _)
  | dialled endpoint remote =>
      refine within_bind ?_ (fun _ => within_pure _)
      unfold dialled
      exact within_get_bind (fun node => within_ite
        (within_discard (attach_flight env remote (some endpoint))) (within_pure _))
  | dialFailed endpoint =>
      exact within_bind (dialFailed_flight env endpoint) (fun _ => within_pure _)
  | dialDone endpoint =>
      exact within_bind (within_modify (fun _ h => h.same rfl rfl rfl (Nat.le_refl _)))
        (fun _ => within_pure _)
  | readPrefix id a b c d =>
      exact within_bind (plain_sound (readPrefix_plain env id a b c d)) (fun _ => within_pure _)
  | readBody id body =>
      exact within_bind (plain_sound (readBody_plain id body)) (fun _ => within_pure _)
  | readStopped id =>
      exact within_bind (plain_sound (readStopped_plain id)) (fun _ => within_pure _)
  | wrote id => exact within_bind (plain_sound (wrote_plain id)) (fun _ => within_pure _)
  | startClosing id =>
      exact within_bind (plain_sound (startClosing_plain id)) (fun _ => within_pure _)
  | cleanedUp id =>
      exact within_bind (plain_sound (cleanedUp_plain id)) (fun _ => within_pure _)
  | call command =>
      exact within_bind (plain_sound (call_plain command)) (fun _ => within_pure _)
  | timer => exact within_bind (plain_sound timer_plain) (fun _ => within_pure _)
  | dispatch cancelled => exact dispatch_flight env cancelled
  | stop => exact within_bind (plain_sound stop_plain) (fun _ => within_pure _)

theorem run_sound (calls : List (Env × NodeEvent)) {start : Node disk} (h : Sound none start) :
    Sound none ((machine store).run calls start) := by
  apply (machine store).run_invariant _ calls start h
  rintro ⟨env, event⟩ node hnode
  have hlater := preserves_final (@handle_flight disk _ store env event node) hnode
  unfold machine
  cases hrun : handle store env event node with
  | ok answer next =>
      rw [finalState_of_ok hrun] at hlater
      simp only [hrun]
      exact hlater
  | error e next =>
      rw [finalState_of_error hrun] at hlater
      simp only [hrun]
      exact hlater

end Chain

/-!
## The next tick
-/

def Unasked (node : Node disk) : Prop :=
  forall id session token, node.sessions.get? id = some session ->
    session.peer.closed = false -> ¬ session.Asks token

theorem Unasked.modify (h : Unasked node) (id : Str) {f : Session -> Session}
    (hclosed : forall session : Session, session.peer.closed = true ->
      (f session).peer.closed = true)
    (hasks : forall (session : Session) token, (f session).Asks token -> session.Asks token) :
    Unasked { node with sessions := node.sessions.modify id f } := by
  intro other later token hlater hopen hasked
  have hlater : (node.sessions.modify id f).get? other = some later := hlater
  rw [Dict.get?_modify] at hlater
  split at hlater
  · rw [Option.map_eq_some_iff] at hlater
    rcases hlater with ⟨session, hsession, heq⟩
    rw [← heq] at hopen hasked
    refine h other session token hsession ?_ (hasks session token hasked)
    rw [Bool.eq_false_iff] at hopen ⊢
    exact fun hlost => hopen (hclosed session hlost)
  · exact h other later token hlater hopen hasked

theorem asks_of_erase {session : Session} {token other : Str}
    (h : Session.Asks { session with pending := session.pending.erase token } other) :
    session.Asks other := by
  rcases h with ⟨pending, hpending, hkind⟩
  rw [Dict.get?_erase] at hpending
  split at hpending
  · cases hpending
  · exact ⟨pending, hpending, hkind⟩

theorem Frame.unasked {next : Node disk} (hframe : Frame node next) (h : Unasked node) :
    Unasked next := by
  intro id later token hlater hopen hasks
  rcases hframe.earlier hlater with ⟨session, hsession, hstays⟩
  refine h id session token hsession ?_ ((hstays.alike.asks token).mp hasks)
  rw [Bool.eq_false_iff] at hopen ⊢
  exact fun hlost => hopen (hstays.closed hlost)

theorem Routine.unasked {next : Node disk} (hroutine : Routine node next) (h : Unasked node) :
    Unasked next := by
  cases hroutine with
  | framed hframe => exact hframe.unasked h
  | @asked middle id session request deadline hframe _ hsession hkind =>
      have hmiddle := hframe.unasked h
      intro other later token hlater hopen hasks
      rw [get?_replace hsession] at hlater
      split at hlater
      · rw [← Option.some.inj hlater] at hopen hasks
        rcases hasks with ⟨pending, hpending, hblocks⟩
        rw [Dict.get?_set] at hpending
        split at hpending
        · rw [← Option.some.inj hpending] at hblocks
          exact hkind hblocks
        · exact hmiddle id session token hsession hopen ⟨pending, hpending, hblocks⟩
      · exact hmiddle other later token hlater hopen hasks
  | @answered id requestId session pending hsession _ _ =>
      intro other later token hlater hopen hasks
      rw [get?_replace hsession] at hlater
      split at hlater
      · rw [← Option.some.inj hlater] at hopen hasks
        exact h id session token hsession hopen (asks_of_erase hasks)
      · exact h other later token hlater hopen hasks

theorem plain_unasked {alpha : Type} {act : NodeM disk alpha} (hact : Plain act) :
    Within (Preserves Unasked) act :=
  hact.mono (fun _ _ => Routine.unasked)

theorem tickSession_unasked (env : Env) (id : Str) :
    Within (Preserves Unasked) (tickSession env id : NodeM disk Unit) := by
  have herase : forall token : Str, Within (Preserves Unasked)
      (modifySession id (fun session =>
        { session with pending := session.pending.erase token }) : NodeM disk Unit) :=
    fun token => within_modify (fun _ h =>
      h.modify id (fun _ hclosed => hclosed) (fun _ _ => asks_of_erase))
  have hfailed : forall request : Request, Within (Preserves Unasked)
      (failedRequest env id request .timeout : NodeM disk Unit) := by
    intro request
    have hsession : forall f : Session -> Session,
        (forall session, (f session).peer = session.peer) ->
        (forall session, (f session).pending = session.pending) ->
        Within (Preserves Unasked) (modifySession id f : NodeM disk Unit) := by
      intro f hpeer hpending
      refine within_modify (fun _ h => h.modify id ?_ ?_)
      · intro session hclosed
        rw [hpeer]
        exact hclosed
      · rintro session token ⟨pending, hfound, hkind⟩
        rw [hpending] at hfound
        exact ⟨pending, hfound, hkind⟩
    by_cases hkind : request.kind = .getBlocks
    · cases request with
      | getBlocks payload =>
          unfold failedRequest
          refine within_get_bind (fun node => within_bind
            (hsession _ (fun _ => rfl) (fun _ => rfl)) (fun _ => within_bind
              (within_modify (fun _ h => h)) (fun _ => within_bind
                (hsession _ (fun _ => rfl) (fun _ => rfl)) (fun _ => ?_))))
          rw [if_neg (by decide)]
          exact within_pure _
      | _ => cases hkind
    · exact plain_unasked (failedRequest_plain env id .timeout hkind)
  unfold tickSession
  refine within_get_bind (fun _ => within_session_bind (fun known =>
    within_ite (within_pure _) (within_ite
      (plain_unasked (within_ite (closePeer_plain id) (within_pure _))) ?_)))
  refine within_bind (within_forM (fun item => ?_)) (fun _ => plain_unasked
    (within_bind (modifySession_same id (fun _ => rfl) (fun _ => rfl) (fun _ => rfl)
      (fun _ => rfl)) (fun _ => maintain_plain env id)))
  unfold timeoutRequest
  exact within_ite (within_bind (herase item.1) (fun _ => within_bind
    (plain_unasked (expire_plain env id item.1)) (fun _ => hfailed item.2.request)))
    (within_pure _)

/-- The node when a tick has looked at its sessions and comes to synchronisation. -/
def beforeSync (env : Env) (node : Node disk) : Node disk :=
  finalState (node.sessions.keys.forM (tickSession env)) node

/-- Blocks are asked from one live session at most, and it is the source. -/
structure SingleFlight (node : Node disk) : Prop where
  single : forall id other session rival, node.sessions.get? id = some session ->
    node.sessions.get? other = some rival -> session.live = true -> rival.live = true ->
    session.hasRequest .getBlocks = true -> rival.hasRequest .getBlocks = true -> id = other
  owner : forall id session, node.sessions.get? id = some session -> session.live = true ->
    (node.sync.source = some id <-> session.hasRequest .getBlocks = true)
  free : forall env, (beforeSync env node).DistinctTokens ->
    (forall id session, node.sessions.get? id = some session -> session.live = true ->
      session.hasRequest .getBlocks = false) ->
    (beforeSync env node).keptSource = none

theorem open_of_live {session : Session} (h : session.live = true) :
    session.peer.closed = false := by
  have hclosed := (Bool.and_eq_true_iff.mp h).right
  rw [Bool.not_eq_true'] at hclosed
  exact hclosed

theorem Flight.owns (h : Flight none node) {id : Str} {session : Session}
    (hsession : node.sessions.get? id = some session) (hlive : session.live = true) :
    node.sync.source = some id <-> session.hasRequest .getBlocks = true := by
  rw [h.owner id session hsession (open_of_live hlive) (by simp), Session.hasRequest_iff]

theorem Unasked.keptSource (hunasked : Unasked node) (h : Flight none node) :
    node.keptSource = none := by
  unfold Node.keptSource
  cases hsource : node.sync.source with
  | none => rfl
  | some id =>
      refine if_neg (fun hlive => ?_)
      rcases mem_liveIds_iff.mp hlive with ⟨session, hsession, hsession_live⟩
      have hopen := open_of_live hsession_live
      rcases (h.owner id session hsession hopen (by simp)).mp hsource with ⟨token, hasks⟩
      exact hunasked id session token hsession hopen hasks

theorem Flight.unasked (h : Flight none node)
    (hquiet : forall id session, node.sessions.get? id = some session -> session.live = true ->
      session.hasRequest .getBlocks = false) : Unasked node := by
  intro id session token hsession hopen hasks
  have hlive : session.live = true := by
    unfold Session.live
    rw [h.established id session token hsession hopen hasks, hopen]
    rfl
  have hasked := session.hasRequest_iff.mpr ⟨token, hasks⟩
  rw [hquiet id session hsession hlive] at hasked
  cases hasked

theorem Sound.singleFlight (h : Sound none node) (hdistinct : node.DistinctTokens) :
    SingleFlight node where
  single := by
    intro id other session rival hsession hrival hlive hrival_live hasks hrival_asks
    have hnamed := ((h hdistinct).owns hsession hlive).mpr hasks
    have hrival_named := ((h hdistinct).owns hrival hrival_live).mpr hrival_asks
    rw [hnamed] at hrival_named
    exact Option.some.inj hrival_named
  owner := fun id session hsession hlive => (h hdistinct).owns hsession hlive
  free := by
    intro env hlater hquiet
    have hsound : Sound none (beforeSync env node) :=
      preserves_final (within_forM (tickSession_flight env) node) h
    have hunasked : Unasked (beforeSync env node) :=
      preserves_final (within_forM (tickSession_unasked env) node)
        ((h hdistinct).unasked hquiet)
    exact hunasked.keptSource (hsound hlater)

section Chain

variable [Crypto] {store : Option (ChainStore disk)}

/-- After every event of a run blocks are asked from one live session at most, it is the
source, and a tick finds no source when nobody is asked. -/
theorem run_singleFlight {start : Node disk} (hsessions : start.sessions = Dict.empty)
    (hsource : start.sync.source = none) (calls : List (Env × NodeEvent))
    (hdistinct : ((machine store).run calls start).DistinctTokens) :
    ((machine store).run calls start).SingleFlight := by
  refine (run_sound calls ?_).singleFlight hdistinct
  intro _
  have hnone : forall id session, start.sessions.get? id ≠ some session := by
    intro id session hsession
    rw [hsessions] at hsession
    cases hsession
  refine ⟨?_, ?_, ?_, ?_, ?_, ?_, ?_⟩
  · exact fun id session hsession => absurd hsession (hnone id session)
  · intro id hid
    rw [hsource] at hid
    cases hid
  · exact fun id session _ _ hsession => absurd hsession (hnone id session)
  · exact fun id session _ hsession => absurd hsession (hnone id session)
  · exact fun id session _ _ hsession => absurd hsession (hnone id session)
  · exact fun id session hsession => absurd hsession (hnone id session)
  · rintro id ⟨⟩

end Chain

end Node

end Network

/-!
# A download begins

A peer is dialled and introduces itself with a higher chain, and the next tick asks it for
blocks.
-/

namespace Sample

open Network

def aheadPacket : Packet :=
  { payload := .version
      { networkId := NETWORK_ID
        genesisHash := GENESIS_HASH
        nodeId := List.replicate 32 'b'
        connectionNonce := List.replicate 32 'c'
        listenPort := peerEndpoint.port
        height := 5
        tipHash := List.replicate 64 'd' }
    requestId := none }

def downloadEvents : List NodeEvent :=
  [.connect peerEndpoint, .dialled peerEndpoint peerEndpoint] ++
    arrives (tokenAt 1) aheadPacket ++
    arrives (tokenAt 1) { payload := .verack, requestId := none } ++ [.timer, .dispatch false]

def downloadCalls : List (Env × NodeEvent) :=
  downloadEvents.map (fun event => ({ now := 0, wallClock := 1788652920 }, event))

end Sample

namespace Network

namespace Node

theorem run_singleFlight_download :
    ((@machine Sample.crypto Unit none).run Sample.downloadCalls
        Sample.listening).sync.source = some (Sample.tokenAt 1) ∧
      ((@machine Sample.crypto Unit none).run Sample.downloadCalls
        Sample.listening).SingleFlight :=
  ⟨by decide +kernel,
    @run_singleFlight Unit Sample.crypto none Sample.listening rfl rfl Sample.downloadCalls
      (by decide +kernel)⟩

end Node

end Network

end PyChain
