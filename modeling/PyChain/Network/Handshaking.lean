import Mathlib.Data.Prod.Lex
import PyChain.Network.Health
import PyChain.Network.Synchronising

/-!
# Handshakes and duplicates

Connections to one node are ordered by their ranks.  Once a handshake is
complete, only the connection of the smallest rank stays open.
-/

namespace PyChain

open Foundation

namespace Network

/-!
## Ranks
-/

def Rank.key (rank : Rank) : Str ×ₗ Str ×ₗ Str :=
  toLex (rank.initiator, toLex (rank.first, rank.second))

theorem Rank.lt_iff (a b : Rank) : Rank.lt a b = true <-> a.key < b.key := by
  unfold Rank.lt Rank.key
  rw [Prod.Lex.toLex_lt_toLex, Prod.Lex.toLex_lt_toLex]
  simp only [Bool.or_eq_true, Bool.and_eq_true, decide_eq_true_eq]

theorem Rank.not_lt_iff (a b : Rank) : Rank.lt a b = false <-> b.key ≤ a.key := by
  rw [← not_lt, ← Rank.lt_iff, Bool.not_eq_true]

namespace Node

theorem minRank_spec {nodeId : Str} (items : List (Str × Session)) :
    forall found, minRank nodeId items = .ok found ->
      (found = none <-> items = []) ∧
      forall winner rank, found = some (winner, rank) ->
        (exists session, (winner, session) ∈ items ∧ connectionRank nodeId session = .ok rank) ∧
        forall item, item ∈ items -> exists other, connectionRank nodeId item.2 = .ok other ∧
          Rank.lt other rank = false := by
  induction items with
  | nil =>
      intro found h
      cases h
      refine ⟨Iff.rfl.trans (by simp), ?_⟩
      intro winner rank hfound
      cases hfound
  | cons item rest ih =>
      intro found h
      unfold minRank at h
      rcases bind_eq_ok_iff.mp h with ⟨rank, hrank, h⟩
      rcases bind_eq_ok_iff.mp h with ⟨best, hbest, h⟩
      rcases ih best hbest with ⟨hempty, hleast⟩
      have hself : Rank.lt rank rank = false := (Rank.not_lt_iff _ _).mpr (le_refl _)
      cases best with
      | none =>
          cases h
          rw [hempty.mp rfl]
          refine ⟨by simp, ?_⟩
          rintro winner found hfound
          cases hfound
          refine ⟨⟨item.2, List.mem_singleton.mpr rfl, hrank⟩, ?_⟩
          intro other hother
          rw [List.mem_singleton.mp hother]
          exact ⟨rank, hrank, hself⟩
      | some best =>
          rcases best with ⟨other, otherRank⟩
          rcases hleast other otherRank rfl with ⟨⟨session, hsession, hother⟩, hall⟩
          simp only at h
          split at h
          · rename_i hlt
            cases h
            refine ⟨by simp, ?_⟩
            rintro winner found hfound
            cases hfound
            refine ⟨⟨session, List.mem_cons_of_mem _ hsession, hother⟩, ?_⟩
            intro entry hentry
            rcases List.mem_cons.mp hentry with hhead | htail
            · rw [hhead]
              refine ⟨rank, hrank, (Rank.not_lt_iff _ _).mpr ?_⟩
              exact le_of_lt ((Rank.lt_iff _ _).mp hlt)
            · exact hall entry htail
          · rename_i hlt
            cases h
            have hle : rank.key ≤ otherRank.key :=
              (Rank.not_lt_iff _ _).mp (Bool.eq_false_iff.mpr hlt)
            refine ⟨by simp, ?_⟩
            rintro winner found hfound
            cases hfound
            refine ⟨⟨item.2, List.mem_cons_self, hrank⟩, ?_⟩
            intro entry hentry
            rcases List.mem_cons.mp hentry with hhead | htail
            · rw [hhead]
              exact ⟨rank, hrank, hself⟩
            · rcases hall entry htail with ⟨entryRank, hentryRank, hnot⟩
              exact ⟨entryRank, hentryRank,
                (Rank.not_lt_iff _ _).mpr (hle.trans ((Rank.not_lt_iff _ _).mp hnot))⟩

theorem connectionRank_total {nodeId : Str} {session : Session}
    (hid : session.peer.nodeId.isSome = true) (hnonce : session.peer.remoteNonce.isSome = true) :
    exists rank, connectionRank nodeId session = .ok rank := by
  rcases Option.isSome_iff_exists.mp hid with ⟨remoteId, hid⟩
  rcases Option.isSome_iff_exists.mp hnonce with ⟨remoteNonce, hnonce⟩
  unfold connectionRank
  rw [hid, hnonce]
  simp only
  split
  · exact ⟨_, rfl⟩
  · exact ⟨_, rfl⟩

theorem minRank_total {nodeId : Str} {items : List (Str × Session)}
    (h : forall item, item ∈ items ->
      item.2.peer.nodeId.isSome = true ∧ item.2.peer.remoteNonce.isSome = true) :
    exists found, minRank nodeId items = .ok found := by
  induction items with
  | nil => exact ⟨none, rfl⟩
  | cons item rest ih =>
      have hitem := h item List.mem_cons_self
      have htotal : exists rank, connectionRank nodeId item.2 = .ok rank :=
        connectionRank_total hitem.left hitem.right
      rcases htotal with ⟨rank, hrank⟩
      rcases ih (fun other hother => h other (List.mem_cons_of_mem _ hother)) with
        ⟨found, hfound⟩
      unfold minRank
      rw [hrank, hfound]
      simp only [bind, Except.bind]
      split
      · exact ⟨_, rfl⟩
      · split
        · exact ⟨_, rfl⟩
        · exact ⟨_, rfl⟩

variable {disk : Type}

section Chain

variable [Crypto] {store : Option (ChainStore disk)} {input : EventKind} {node : Node disk}

/-!
## Duplicates
-/

theorem calm_closed {id : Str} {known : Session} (hknown : node.sessions.get? id = some known) :
    Calm store input node (node.replace id
      { known with peer := { known.peer with closed := true } }) :=
  calm_replace hknown (Move.closed hknown) rfl

theorem closePeer_leads {id : Str} {known : Session} {raised : PyError -> Node disk -> Prop}
    (hknown : node.sessions.get? id = some known) :
    Leads (Calm store input) (closePeer id) node (fun _ _ => True) raised :=
  leads_modifySession hknown (Relation.ReflTransGen.single (calm_closed hknown)) trivial

theorem calm_managed {manager : PeerManager} {dialTasks : List Endpoint}
    (hmanager : node.manager.Healthy node.config -> manager.Healthy node.config)
    (hdials : (forall endpoint, endpoint ∈ node.dialTasks -> node.config.Accepts endpoint) ->
      forall endpoint, endpoint ∈ dialTasks -> node.config.Accepts endpoint) :
    Calm store input node { node with manager := manager, dialTasks := dialTasks } :=
  ⟨Move.managed hmanager hdials, rfl, silent_of_sessions rfl⟩

theorem markConnected_leads {env : Env} {endpoint : Endpoint}
    (haccepts : node.Healthy -> node.config.Accepts endpoint) :
    Leads (Calm store input) (markConnected env endpoint) node
      (fun _ node' => node'.sessions = node.sessions) Unhealthy := by
  unfold markConnected
  apply leads_get_bind
  apply leads_lift_bind
  · intro marked hmarked
    refine leads_modify (Relation.ReflTransGen.single (calm_managed ?_ (fun h => h))) rfl
    intro hmanager
    exact PeerManager.markConnected_healthy hmarked hmanager
  · intro e he hhealthy
    have htotal : exists marked,
        node.manager.markConnected node.config env.now endpoint = .ok marked :=
      PeerManager.markConnected_total (haccepts hhealthy)
    rcases htotal with ⟨marked, hmarked⟩
    rw [hmarked] at he
    cases he

structure Narrowed (winner : Str) (node next : Node disk) : Prop where
  kept : next.sessions.get? winner = node.sessions.get? winner
  closed : forall id session, node.sessions.get? id = some session ->
    next.sessions.get? id = some session ∨
      next.sessions.get? id = some { session with peer := { session.peer with closed := true } }

omit [Crypto] in
theorem Narrowed.refl (winner : Str) (node : Node disk) : Narrowed winner node node :=
  ⟨rfl, fun _ _ h => Or.inl h⟩

omit [Crypto] in
theorem Narrowed.trans {winner : Str} {middle next : Node disk}
    (h : Narrowed winner node middle) (h' : Narrowed winner middle next) :
    Narrowed winner node next := by
  constructor
  · exact h'.kept.trans h.kept
  · intro id session hsession
    rcases h.closed id session hsession with hsame | hclosed
    · exact h'.closed id session hsame
    · rcases h'.closed id _ hclosed with hlater | hlater
      · exact Or.inr hlater
      · exact Or.inr hlater

omit [Crypto] in
theorem narrowed_replace {winner id : Str} {session : Session} (hne : id ≠ winner)
    (hsession : node.sessions.get? id = some session) :
    Narrowed winner node (node.replace id
      { session with peer := { session.peer with closed := true } }) := by
  constructor
  · rw [get?_replace hsession, if_neg (Ne.symm hne)]
  · intro other known hknown
    rw [get?_replace hsession]
    by_cases hother : other = id
    · rw [if_pos hother]
      rw [hother, hsession] at hknown
      rw [← Option.some.inj hknown]
      exact Or.inr rfl
    · rw [if_neg hother]
      exact Or.inl hknown

/-- A connection that loses against the winner. -/
def Loses (node : Node disk) (winner : Str) (rival : Session) (better : Rank) (id : Str) :
    Prop :=
  id ≠ winner ∧ exists session rank, node.sessions.get? id = some session ∧
    session.versionReceived = true ∧ rival.peer.nodeId = session.peer.nodeId ∧
    connectionRank node.nodeId session = .ok rank ∧ Rank.lt rank better = false

omit [Crypto] in
theorem Narrowed.loses {winner id : Str} {next : Node disk} {rival : Session} {better : Rank}
    (h : Narrowed winner node next) (hnodeId : next.nodeId = node.nodeId)
    (hloses : Loses node winner rival better id) : Loses next winner rival better id := by
  rcases hloses with ⟨hne, session, rank, hsession, hreceived, hsame, hrank, hlt⟩
  refine ⟨hne, ?_⟩
  rw [hnodeId]
  rcases h.closed id session hsession with hlater | hlater
  · exact ⟨session, rank, hlater, hreceived, hsame, hrank, hlt⟩
  · exact ⟨_, rank, hlater, hreceived, hsame, hrank, hlt⟩

theorem closeOthers_leads {winner : Str} {rival : Session} {better : Rank}
    (hopen : rival.peer.closed = false) (hintroduced : rival.versionReceived = true)
    (ids : List Str) : forall node : Node disk, node.sessions.get? winner = some rival ->
      connectionRank node.nodeId rival = .ok better ->
      (forall id, id ∈ ids -> Loses node winner rival better id) ->
      Leads (Calm store input) (ids.forM closePeer) node
        (fun _ node' => Narrowed winner node node' ∧
          forall id, id ∈ ids -> forall session, node'.sessions.get? id = some session ->
            session.peer.closed = true) Unhealthy := by
  induction ids with
  | nil =>
      intro node _ _ _
      refine leads_pure ⟨Narrowed.refl winner node, ?_⟩
      intro id hid
      cases hid
  | cons id rest ih =>
      intro node hrival hbetter hids
      rcases hids id List.mem_cons_self with
        ⟨hne, session, rank, hsession, hreceived, hsame, hrank, hlt⟩
      have hmove : Calm store input node (node.replace id
          { session with peer := { session.peer with closed := true } }) :=
        calm_replace hsession (Move.superseded hsession hreceived
          ⟨winner, rival, rank, better, Ne.symm hne, hrival, hopen, hintroduced, hsame, hrank,
            hbetter, hlt⟩) rfl
      have hnarrowed := narrowed_replace hne hsession
      have hself : (node.replace id
          { session with peer := { session.peer with closed := true } }).sessions.get? id =
            some { session with peer := { session.peer with closed := true } } :=
        get?_replace_self hsession
      have hnodeId : (node.replace id
          { session with peer := { session.peer with closed := true } }).nodeId = node.nodeId :=
        rfl
      rw [List.forM_eq_forM, List.forM_cons]
      refine leads_modifySession_bind hsession (Relation.ReflTransGen.single hmove) ?_
      generalize node.replace id
        { session with peer := { session.peer with closed := true } } = closed at *
      refine (ih closed (hnarrowed.kept.trans hrival) ?_ ?_).post ?_
      · rw [hnodeId]
        exact hbetter
      · intro other hother
        exact hnarrowed.loses hnodeId (hids other (List.mem_cons_of_mem _ hother))
      · rintro _ last _ ⟨hlast, hclosed⟩
        refine ⟨hnarrowed.trans hlast, ?_⟩
        intro other hother found hfound
        rcases List.mem_cons.mp hother with hhead | htail
        · rw [hhead] at hfound
          rcases hlast.closed id _ hself with hlater | hlater
          · rw [hlater] at hfound
            rw [← Option.some.inj hfound]
          · rw [hlater] at hfound
            rw [← Option.some.inj hfound]
        · exact hclosed other htail found hfound

omit [Crypto] in
theorem mem_duplicates {id other : Str} {session rival : Session} :
    (other, rival) ∈ node.sessions.items.filter (isDuplicate id session) <->
      node.sessions.get? other = some rival ∧ other ≠ id ∧
        rival.peer.nodeId = session.peer.nodeId ∧ rival.versionReceived = true ∧
        rival.peer.closed = false := by
  rw [List.mem_filter, ← Dict.get?_eq_some_iff]
  unfold isDuplicate
  simp only [Bool.and_eq_true, decide_eq_true_eq, Bool.not_eq_true', and_assoc]

omit [Crypto] in
theorem mem_contenders {id other : Str} {known rival : Session}
    (hknown : node.sessions.get? id = some known) (hversion : known.versionReceived = true)
    (hopen : known.peer.closed = false)
    (h : (other, rival) ∈ (id, known) :: node.sessions.items.filter (isDuplicate id known)) :
    node.sessions.get? other = some rival ∧ rival.peer.nodeId = known.peer.nodeId ∧
      rival.versionReceived = true ∧ rival.peer.closed = false := by
  rcases List.mem_cons.mp h with hself | hother
  · cases hself
    exact ⟨hknown, rfl, hversion, hopen⟩
  · rcases mem_duplicates.mp hother with ⟨hget, _, hsame, hreceived, hclosed⟩
    exact ⟨hget, hsame, hreceived, hclosed⟩

theorem establish_leads {env : Env} {id : Str} {known : Session}
    (hknown : node.sessions.get? id = some known) (hversion : known.versionReceived = true)
    (hack : known.ackReceived = true) (hopen : known.peer.closed = false)
    (hothers : forall other rival, other ≠ id -> node.sessions.get? other = some rival ->
      rival.peer.nodeId = known.peer.nodeId -> rival.versionReceived = true ->
      rival.peer.closed = true) :
    Leads (Calm store input)
      (do
        modifyPeer id (fun peer => { peer with established := true })
        match known.endpoint with
        | none => throw (.typeError "'NoneType' object is not subscriptable")
        | some endpoint => markConnected env endpoint
        modifySession id (fun session =>
          { session with ready := some (session.ready.getD true) })) node
      (fun _ node' => forall session, node'.sessions.get? id = some session ->
        session.peer.closed = true ∨ session.peer.established = true) Unhealthy := by
  have hmove : Calm store input node (node.replace id
      { known with peer := { known.peer with established := true } }) :=
    calm_replace hknown (Move.established hknown hopen hversion hack hothers) rfl
  have hself : (node.replace id
      { known with peer := { known.peer with established := true } }).sessions.get? id =
        some { known with peer := { known.peer with established := true } } :=
    get?_replace_self hknown
  refine leads_modifySession_bind hknown (Relation.ReflTransGen.single hmove) ?_
  generalize node.replace id
    { known with peer := { known.peer with established := true } } = placed at hself
  cases hendpoint : known.endpoint with
  | none =>
      apply leads_throw
      intro hhealthy
      have hsome := ((hhealthy.sessions id _ hself).introduced hversion).right.right
      rw [hendpoint] at hsome
      cases hsome
  | some endpoint =>
      have haccepts : placed.Healthy -> placed.config.Accepts endpoint :=
        fun hhealthy => (hhealthy.sessions id _ hself).endpoint endpoint hendpoint
      refine leads_bind (markConnected_leads haccepts) ?_
      intro _ marked _ hsessions
      have hmarked : marked.sessions.get? id =
          some { known with peer := { known.peer with established := true } } := by
        rw [hsessions]
        exact hself
      refine leads_modifySession hmarked (Relation.ReflTransGen.single (calm_quiet hmarked ?_)) ?_
      · exact ⟨rfl, rfl, rfl, rfl, rfl, rfl, rfl, Or.inl rfl, Or.inl rfl, Or.inl rfl⟩
      · intro session hsession
        rw [get?_replace_self hmarked] at hsession
        rw [← Option.some.inj hsession]
        exact Or.inr rfl

theorem resolveDuplicates_leads {env : Env} {id : Str} {known : Session}
    (hknown : node.sessions.get? id = some known) (hversion : known.versionReceived = true)
    (hack : known.ackReceived = true) (hopen : known.peer.closed = false) :
    Leads (Calm store input) (resolveDuplicates env id) node
      (fun _ node' => forall session, node'.sessions.get? id = some session ->
        session.peer.closed = true ∨ session.peer.established = true) Unhealthy := by
  unfold resolveDuplicates
  apply leads_get_bind
  apply leads_session_bind hknown
  have hmember : forall other rival,
      (other, rival) ∈ (id, known) :: node.sessions.items.filter (isDuplicate id known) ->
      node.sessions.get? other = some rival ∧ rival.peer.nodeId = known.peer.nodeId ∧
        rival.versionReceived = true ∧ rival.peer.closed = false :=
    fun _ _ h => mem_contenders hknown hversion hopen h
  apply leads_lift_bind
  · intro found hfound
    rcases minRank_spec _ found hfound with ⟨hempty, hleast⟩
    cases found with
    | none => exact absurd (hempty.mp rfl) (List.cons_ne_nil _ _)
    | some best =>
        rcases best with ⟨winner, better⟩
        rcases hleast winner better rfl with ⟨⟨rival, hrival, hbetter⟩, hall⟩
        rcases hmember winner rival hrival with ⟨hget, hsame, hreceived, hclosed⟩
        have hloses : forall other, other ∈
            (id :: (node.sessions.items.filter (isDuplicate id known)).map Prod.fst).filter
              (fun other => other ≠ winner) -> Loses node winner rival better other := by
          intro other hother
          rcases List.mem_filter.mp hother with ⟨hmem, hne⟩
          rw [← List.map_cons (f := Prod.fst) (a := (id, known))] at hmem
          rcases List.mem_map.mp hmem with ⟨item, hitem, heq⟩
          rcases hall item hitem with ⟨rank, hrank, hlt⟩
          rcases hmember item.1 item.2 hitem with ⟨hitemGet, hitemSame, hitemReceived, _⟩
          rw [heq] at hitemGet
          exact ⟨by simpa using hne, item.2, rank, hitemGet, hitemReceived,
            hsame.trans hitemSame.symm, hrank, hlt⟩
        simp only
        refine leads_bind (closeOthers_leads hclosed hreceived _ node hget hbetter hloses) ?_
        rintro _ narrowed hmoves ⟨hnarrowed, hothers⟩
        apply leads_ite
        · intro hwinner
          rw [hwinner] at hnarrowed
          have hstill : narrowed.sessions.get? id = some known := hnarrowed.kept.trans hknown
          refine establish_leads hstill hversion hack hopen ?_
          intro other foe hother hfoe hfoeSame hfoeReceived
          have hkey : other ∈ node.sessions.keys := by
            rw [← (calm_steady hmoves).keys]
            exact Dict.mem_keys_of_get? hfoe
          rcases Dict.exists_get?_of_mem_keys hkey with ⟨before, hbefore⟩
          rcases hnarrowed.closed other before hbefore with hlater | hlater
          · rw [hfoe] at hlater
            have hfoeBefore := Option.some.inj hlater
            subst hfoeBefore
            by_cases hbeforeClosed : foe.peer.closed = true
            · exact hbeforeClosed
            · have hdup : (other, foe) ∈
                  node.sessions.items.filter (isDuplicate id known) :=
                mem_duplicates.mpr ⟨hbefore, hother, hfoeSame, hfoeReceived,
                  Bool.eq_false_iff.mpr hbeforeClosed⟩
              apply hothers other _ foe hfoe
              rw [List.mem_filter, hwinner]
              refine ⟨List.mem_cons_of_mem _ ?_, by simpa using hother⟩
              exact List.mem_map_of_mem hdup
          · rw [hfoe] at hlater
            rw [Option.some.inj hlater]
        · intro hwinner
          apply leads_pure
          intro session hsession
          apply Or.inl
          apply hothers id _ session hsession
          rw [List.mem_filter]
          exact ⟨List.mem_cons_self, by simpa using Ne.symm hwinner⟩
  · intro e he hhealthy
    have htotal : exists found, minRank node.nodeId
        ((id, known) :: node.sessions.items.filter (isDuplicate id known)) = .ok found := by
      apply minRank_total
      intro item hitem
      rcases hmember item.1 item.2 hitem with ⟨hget, _, hreceived, _⟩
      have hintroduced := (hhealthy.sessions item.1 item.2 hget).introduced hreceived
      exact ⟨hintroduced.left, hintroduced.right.left⟩
    rcases htotal with ⟨found, hfound⟩
    rw [hfound] at he
    cases he

/-!
## The messages of a handshake
-/

omit [Crypto] in
theorem raises_validateEndpoint {config : NodeConfig} {host : Str} {port : Nat} :
    Raises (fun e => rejectsPeer e = true) (config.validateEndpoint host port) := by
  have hlocal : Raises (fun e => rejectsPeer e = true) (localIPv4 host) := by
    unfold localIPv4
    split
    · exact raises_error rfl
    · split
      · exact raises_error rfl
      · split
        · exact raises_error rfl
        · exact raises_ok _
  have hhost : Raises (fun e => rejectsPeer e = true) (config.validateHost host) := by
    apply raises_bind hlocal
    intro address _
    simp only
    split
    · exact raises_error rfl
    · split
      · exact raises_error rfl
      · exact raises_ok _
  unfold NodeConfig.validateEndpoint
  refine raises_bind (raises_require ?_) ?_
  · rfl
  · intro _ _
    exact raises_bind hhost (fun _ _ => raises_ok _)

omit [Crypto] in
theorem raises_protocolCheck {condition : Prop} [Decidable condition] {message : String} :
    Raises (fun e => rejectsPeer e = true) (require condition (protocolError message)) := by
  refine raises_require ?_
  rfl

omit [Crypto] in
theorem raises_checkVersion {session : Session} {payload : VersionPayload} :
    Raises (fun e => rejectsPeer e = true) (checkVersion node session payload) := by
  unfold checkVersion
  apply raises_bind raises_protocolCheck
  intro _ _
  apply raises_bind raises_protocolCheck
  intro _ _
  apply raises_bind raises_protocolCheck
  intro _ _
  apply raises_bind raises_protocolCheck
  intro _ _
  apply raises_bind raises_validateEndpoint
  intro _ _
  exact raises_bind raises_protocolCheck (fun _ _ => raises_ok _)

theorem introduce_leads {id : Str} {payload : Payload} {requestId : Option Str}
    {known : Session} (hknown : node.sessions.get? id = some known)
    (hfresh : known.peer.established = false)
    (hinput : input = .remote id { payload := payload, requestId := requestId }) :
    Leads (Calm store input) (introduce id payload) node (fun _ _ => True) Rejected := by
  unfold introduce
  split
  · rename_i payload
    apply leads_get_bind
    apply leads_session_bind hknown
    apply leads_lift_bind
    · intro endpoint hendpoint
      have hmove : Move store input node _ :=
        Move.introduced hknown hfresh hinput hendpoint
      have hself : (node.replace id
          { known with
            endpoint := some endpoint
            peer :=
              { known.peer with
                nodeId := some payload.nodeId
                remoteNonce := some payload.connectionNonce }
            remoteHeight := payload.height
            remoteTip := payload.tipHash
            versionReceived := true }).sessions.get? id = some
          { known with
            endpoint := some endpoint
            peer :=
              { known.peer with
                nodeId := some payload.nodeId
                remoteNonce := some payload.connectionNonce }
            remoteHeight := payload.height
            remoteTip := payload.tipHash
            versionReceived := true } := get?_replace_self hknown
      refine leads_modifySession_bind hknown
        (Relation.ReflTransGen.single (calm_replace hknown hmove rfl)) ?_
      exact send_calm hself ⟨rfl, payload, requestId, hinput⟩
    · intro e he _
      exact raises_checkVersion e he
  · apply leads_session_bind hknown
    apply leads_ite
    · intro _
      exact leads_throw (rejected_of_refusal trivial)
    · intro hexpected
      rcases not_or.mp hexpected with ⟨hversion, hack⟩
      have hmove : Move store input node _ := Move.acknowledged hknown hfresh hinput
        (by simpa using hversion) (by simpa using hack)
      exact leads_modifySession hknown
        (Relation.ReflTransGen.single (calm_replace hknown hmove rfl)) trivial
  · exact leads_throw (rejected_of_refusal trivial)

theorem handshake_leads {env : Env} {id : Str} {payload : Payload} {requestId : Option Str}
    {known : Session} (hknown : node.sessions.get? id = some known)
    (hfresh : known.peer.established = false)
    (hinput : input = .remote id { payload := payload, requestId := requestId }) :
    Leads (Calm store input) (handshake env id payload) node
      (fun _ node' => forall session, node'.sessions.get? id = some session ->
        session.versionReceived = true -> session.ackReceived = true ->
        session.peer.closed = true ∨ session.peer.established = true) Rejected := by
  unfold handshake
  refine leads_bind (introduce_leads hknown hfresh hinput) ?_
  intro _ introduced hmoves _
  rcases (calm_steady hmoves).session hknown with ⟨session, hsession⟩
  apply leads_session_bind hsession
  apply leads_ite
  · rintro ⟨hversion, hack, hopen⟩
    refine (resolveDuplicates_leads hsession hversion hack hopen).weaken ?_ ?_
    · intro _ _ _ h later hlater _ _
      exact h later hlater
    · intro _ _ _ h
      exact h.rejected
  · intro hwait
    apply leads_pure
    intro later hlater hversion hack
    rw [hsession] at hlater
    rw [← Option.some.inj hlater] at hversion hack ⊢
    by_cases hclosed : session.peer.closed = true
    · exact Or.inl hclosed
    · exact absurd ⟨hversion, hack, Bool.eq_false_iff.mpr hclosed⟩ hwait

end Chain

end Node

end Network

end PyChain
