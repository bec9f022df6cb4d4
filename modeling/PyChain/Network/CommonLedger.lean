import PyChain.Network.Growth
import PyChain.Network.Swarm

/-!
# Honest nodes on one ledger

While the chains of all nodes are prefixes of one ledger, whatever a node has heard of
another one, however late, names a block of the ledger that the other still has.  So no
node finds that another has diverged, and no anchor is unknown.
-/

namespace PyChain

open Foundation

namespace Network

section Chain

variable [Crypto] {ledger : List Block}

/-!
## What honest nodes say
-/

/-- A block of the ledger, by height and hash. -/
def Stands (ledger : List Block) (height : Nat) (hash : Str) : Prop :=
  (ledger[height]?).map Block.hash = some hash

theorem TipIs.stands {chain : Blockchain} {height : Nat} {hash : Str}
    (h : TipIs chain height hash) (hledger : chain.blocks <+: ledger) :
    Stands ledger height hash ∧ height < chain.blocks.length := by
  rcases h with ⟨block, hlast, hlength, hhash⟩
  have hheight : height < chain.blocks.length := by omega
  refine ⟨?_, hheight⟩
  rw [List.getLast?_eq_getElem?, hlength, Nat.add_sub_cancel] at hlast
  rcases hledger with ⟨rest, heq⟩
  unfold Stands
  rw [← heq, List.getElem?_append_left hheight, hlast, ← hhash]
  rfl

theorem ValidChain.stands_genesis {tip : Block} {state : ChainState}
    (h : ValidChain ledger tip state) : Stands ledger 0 GENESIS_HASH := by
  induction h with
  | genesis _ hgenesis => exact congrArg some ((isGenesisBlock_iff _).mp hgenesis).right
  | extend hchain _ _ _ ih =>
      unfold Stands at ih ⊢
      rw [List.getElem?_append_left (List.length_pos_iff.mpr hchain.ne_nil)]
      exact ih

theorem Stands.extended {blocks : List Block} {height : Nat} {hash : Str}
    (h : Stands blocks height hash) (hledger : blocks <+: ledger) : Stands ledger height hash := by
  rcases hledger with ⟨rest, heq⟩
  unfold Stands at h ⊢
  rcases Option.map_eq_some_iff.mp h with ⟨block, hblock, hhash⟩
  rw [← heq, List.getElem?_append_left (List.getElem?_eq_some_iff.mp hblock).choose, hblock,
    ← hhash]
  rfl

theorem Stands.unique {height : Nat} {hash hash' : Str} (h : Stands ledger height hash)
    (h' : Stands ledger height hash') : hash = hash' :=
  Option.some.inj (h.symm.trans h')

theorem Stands.held {blocks : List Block} {height : Nat} {hash : Str}
    (h : Stands ledger height hash) (hledger : blocks <+: ledger)
    (hheight : height < blocks.length) : (blocks[height]?).map Block.hash = some hash := by
  rcases hledger with ⟨rest, heq⟩
  unfold Stands at h
  rw [← heq, List.getElem?_append_left hheight] at h
  exact h

/-- What a node says to another, when their chains have these lengths. -/
def Truthful (ledger : List Block) (own other : Nat) : Payload -> Prop
  | .version payload => Stands ledger payload.height payload.tipHash ∧ payload.height < own
  | .status payload => Stands ledger payload.height payload.tipHash ∧ payload.height < own
  | .blocks payload => Stands ledger payload.tipHeight payload.tipHash ∧ payload.tipHeight < own
  | .getBlocks payload =>
      Stands ledger payload.anchorHeight payload.anchorHash ∧ payload.anchorHeight < other
  | .error code _ => code ≠ .forkUnsupported ∧ code ≠ .unknownAnchor
  | _ => True

theorem Truthful.mono {own other own' other' : Nat} {payload : Payload}
    (h : Truthful ledger own other payload) (hown : own ≤ own') (hother : other ≤ other') :
    Truthful ledger own' other' payload := by
  cases payload with
  | version payload => exact ⟨h.left, h.right.trans_le hown⟩
  | status payload => exact ⟨h.left, h.right.trans_le hown⟩
  | blocks payload => exact ⟨h.left, h.right.trans_le hown⟩
  | getBlocks payload => exact ⟨h.left, h.right.trans_le hother⟩
  | error code message => exact h
  | _ => trivial

/-- What a session knows of the node at the other end, whose chain has this length. -/
structure Trusting (ledger : List Block) (reach : Nat) (session : Session) : Prop where
  height : session.remoteHeight < reach
  tip : Stands ledger session.remoteHeight session.remoteTip
  state : session.syncState ≠ .diverged
  error : session.error ≠ some (.failed (.remote .forkUnsupported))
  anchor : session.rejectedAnchor = none

theorem Trusting.mono {reach reach' : Nat} {session : Session}
    (h : Trusting ledger reach session) (hreach : reach ≤ reach') :
    Trusting ledger reach' session :=
  { h with height := h.height.trans_le hreach }

theorem Trusting.quiet {reach : Nat} {session next : Session}
    (h : Trusting ledger reach session) (hquiet : Node.Quiet session next) :
    Trusting ledger reach next := by
  constructor
  · rw [hquiet.remoteHeight]
    exact h.height
  · rw [hquiet.remoteHeight, hquiet.remoteTip]
    exact h.tip
  · rcases hquiet.syncState with heq | hne
    · rw [heq]
      exact h.state
    · exact hne
  · rcases hquiet.error with heq | hne
    · rw [heq]
      exact h.error
    · exact hne
  · rcases hquiet.rejectedAnchor with heq | hnone
    · rw [heq]
      exact h.anchor
    · exact hnone

theorem Trusting.of_eq {reach : Nat} {session next : Session}
    (h : Trusting ledger reach session)
    (heq : (next.remoteHeight, next.remoteTip, next.syncState, next.error,
      next.rejectedAnchor) = (session.remoteHeight, session.remoteTip, session.syncState,
        session.error, session.rejectedAnchor)) : Trusting ledger reach next := by
  simp only [Prod.mk.injEq] at heq
  rcases heq with ⟨hheight, htip, hstate, herror, hanchor⟩
  constructor
  · rw [hheight]
    exact h.height
  · rw [hheight, htip]
    exact h.tip
  · rw [hstate]
    exact h.state
  · rw [herror]
    exact h.error
  · rw [hanchor]
    exact h.anchor

end Chain

namespace Node

variable {disk : Type}

section Chain

variable [Crypto] {store : Option (ChainStore disk)} {input : EventKind} {event : NodeEvent}
  {ledger : List Block} {reach : Str -> Nat} {node next : Node disk}

/-!
## One node
-/

/-- A session that trusts the other end and says only what is true. -/
structure Friendly (ledger : List Block) (reach own : Nat) (session : Session) : Prop where
  trusting : Trusting ledger reach session
  words : forall packet, packet ∈ session.peer.queue ->
    Truthful ledger own reach packet.payload

/-- A node whose sessions lead to nodes with chains of these lengths. -/
structure Aligned (ledger : List Block) (reach : Str -> Nat) (node : Node disk) : Prop where
  chain : node.chain.blocks <+: ledger
  sessions : forall id session, node.sessions.get? id = some session ->
    Friendly ledger (reach id) node.chain.blocks.length session
  waiting : forall item, item ∈ node.events -> forall id packet,
    item.kind = .remote id packet ->
      Truthful ledger (reach id) node.chain.blocks.length packet.payload

theorem Friendly.mono {reach reach' own own' : Nat} {session : Session}
    (h : Friendly ledger reach own session) (hreach : reach ≤ reach') (hown : own ≤ own') :
    Friendly ledger reach' own' session :=
  ⟨h.trusting.mono hreach, fun packet hpacket => (h.words packet hpacket).mono hown hreach⟩

theorem Aligned.mono {reach' : Str -> Nat} (h : Aligned ledger reach node)
    (hreach : forall id, reach id ≤ reach' id) : Aligned ledger reach' node :=
  ⟨h.chain, fun id session hsession => (h.sessions id session hsession).mono (hreach id) (le_refl _),
    fun item hitem id packet hkind =>
      (h.waiting item hitem id packet hkind).mono (hreach id) (le_refl _)⟩

theorem Aligned.replaced (h : Aligned ledger reach node) {id : Str} {session later : Session}
    (hsession : node.sessions.get? id = some session)
    (hlater : Friendly ledger (reach id) node.chain.blocks.length later) :
    Aligned ledger reach (node.replace id later) := by
  refine ⟨h.chain, ?_, h.waiting⟩
  intro other found hfound
  rw [get?_replace hsession] at hfound
  split at hfound
  · rename_i heq
    rw [← Option.some.inj hfound, heq]
    exact hlater
  · exact h.sessions other found hfound

theorem Aligned.modified (h : Aligned ledger reach node) {id : Str} {f : Session -> Session}
    (hf : forall session, node.sessions.get? id = some session ->
      Friendly ledger (reach id) node.chain.blocks.length (f session)) :
    Aligned ledger reach { node with sessions := node.sessions.modify id f } := by
  refine ⟨h.chain, ?_, h.waiting⟩
  intro other later hlater
  change (node.sessions.modify id f).get? other = some later at hlater
  rw [Dict.get?_modify] at hlater
  split at hlater
  · rename_i hother
    rw [hother] at hlater ⊢
    rcases Option.map_eq_some_iff.mp hlater with ⟨session, hsession, heq⟩
    rw [← heq]
    exact hf session hsession
  · exact h.sessions other later hlater

theorem Aligned.mapped (h : Aligned ledger reach node) {f : Session -> Session}
    (hf : forall id session, node.sessions.get? id = some session ->
      Friendly ledger (reach id) node.chain.blocks.length (f session)) :
    Aligned ledger reach { node with sessions := node.sessions.mapValues f } := by
  refine ⟨h.chain, ?_, h.waiting⟩
  intro id later hlater
  change (node.sessions.mapValues f).get? id = some later at hlater
  rw [Dict.get?_mapValues] at hlater
  rcases Option.map_eq_some_iff.mp hlater with ⟨session, hsession, heq⟩
  rw [← heq]
  exact hf id session hsession

theorem Aligned.of_eq (h : Aligned ledger reach node) (hchain : next.chain = node.chain)
    (hsessions : next.sessions = node.sessions)
    (hevents : forall item, item ∈ next.events -> item ∈ node.events) :
    Aligned ledger reach next := by
  constructor
  · rw [hchain]
    exact h.chain
  · rw [hchain, hsessions]
    exact h.sessions
  · rw [hchain]
    exact fun item hitem => h.waiting item (hevents item hitem)

theorem Talk.aligned {speech : Str -> Blockchain -> Session -> Payload -> Prop}
    (h : Talk speech node next) (haligned : Aligned ledger reach node)
    (hspeech : forall id session payload, node.sessions.get? id = some session ->
      speech id node.chain session payload ->
      Truthful ledger node.chain.blocks.length (reach id) payload) :
    Aligned ledger reach next := by
  cases h with
  | counted _ => exact haligned.of_eq rfl rfl (fun _ hitem => hitem)
  | drew => exact haligned.of_eq rfl rfl (fun _ hitem => hitem)
  | @quiet id session later hsession hquiet =>
      have hfriendly := haligned.sessions id session hsession
      refine haligned.replaced hsession ⟨hfriendly.trusting.quiet hquiet, ?_⟩
      rw [hquiet.peer]
      exact hfriendly.words
  | @queued id session packet hsession _ _ hsays =>
      have hfriendly := haligned.sessions id session hsession
      refine haligned.replaced hsession ⟨hfriendly.trusting.of_eq rfl, ?_⟩
      intro other hother
      rcases List.mem_append.mp hother with hold | hnew
      · exact hfriendly.words other hold
      · rw [List.mem_singleton.mp hnew]
        exact hspeech id session packet.payload hsession hsays
  | @overflowed id session hsession _ =>
      have hfriendly := haligned.sessions id session hsession
      refine haligned.replaced hsession ⟨hfriendly.trusting.of_eq rfl, ?_⟩
      have hqueue : session.peer.beginClose.queue = session.peer.queue := by
        unfold PeerConnection.beginClose
        split
        · rfl
        · rfl
      rw [hqueue]
      exact hfriendly.words

theorem Says.truthful {id : Str} {session : Session} {payload : Payload}
    (h : Says input id node.chain session payload) (hledger : node.chain.blocks <+: ledger)
    (htrusting : Trusting ledger (reach id) session)
    (hinput : forall id packet, input = .remote id packet ->
      Truthful ledger (reach id) node.chain.blocks.length packet.payload) :
    Truthful ledger node.chain.blocks.length (reach id) payload := by
  cases payload with
  | version _ => exact h.elim
  | status payload => exact TipIs.stands h hledger
  | blocks payload => exact TipIs.stands h hledger
  | getBlocks payload =>
      exact ⟨(TipIs.stands h.left hledger).left, h.right.trans htrusting.height⟩
  | error code message =>
      refine ⟨h.left, ?_⟩
      intro hcode
      rcases h.right hcode with ⟨asked, requestId, heq, hunknown⟩
      have hasked := hinput id _ heq
      exact hunknown (hasked.left.held hledger hasked.right)
  | _ => trivial

theorem Aligned.told (h : Aligned ledger reach node) {id : Str} {session : Session}
    {height : Nat} {hash : Str} (hsession : node.sessions.get? id = some session)
    (hstands : Stands ledger height hash) (hheight : height < reach id) :
    Aligned ledger reach
      (node.replace id { session with remoteHeight := height, remoteTip := hash }) := by
  have hfriendly := h.sessions id session hsession
  refine h.replaced hsession ⟨?_, hfriendly.words⟩
  have htrusting := hfriendly.trusting
  exact ⟨hheight, hstands, htrusting.state, htrusting.error, htrusting.anchor⟩

theorem Move.aligned (h : Move store input node next) (haligned : Aligned ledger reach node)
    (hinput : forall id packet, input = .remote id packet ->
      Truthful ledger (reach id) node.chain.blocks.length packet.payload)
    (hledger : next.chain.blocks <+: ledger) : Aligned ledger reach next := by
  cases h with
  | talk htalk =>
      apply htalk.aligned haligned
      intro id session payload hsession hsays
      exact hsays.truthful haligned.chain (haligned.sessions id session hsession).trusting hinput
  | relayed htalk =>
      apply htalk.aligned haligned
      intro id session payload _ hrelay
      cases payload with
      | newTransaction _ => trivial
      | newBlock _ => trivial
      | _ => cases hrelay
  | quietAll hquiet =>
      apply haligned.mapped
      intro id session hsession
      have hfriendly := haligned.sessions id session hsession
      refine ⟨hfriendly.trusting.quiet (hquiet session), ?_⟩
      rw [(hquiet session).peer]
      exact hfriendly.words
  | @performed call hoffered =>
      have hsteady := (Move.performed hoffered : Move store input _ _).steady
      have hlength := hsteady.blocks.length_le
      refine ⟨hledger, ?_, ?_⟩
      · intro id session hsession
        exact (haligned.sessions id session hsession).mono (le_refl _) hlength
      · intro item hitem id packet hkind
        exact (haligned.waiting item hitem id packet hkind).mono (le_refl _) hlength
  | synced _ _ => exact haligned.of_eq rfl rfl (fun _ hitem => hitem)
  | managed _ _ => exact haligned.of_eq rfl rfl (fun _ hitem => hitem)
  | closed hsession =>
      have hfriendly := haligned.sessions _ _ hsession
      exact haligned.replaced hsession ⟨hfriendly.trusting.of_eq rfl, hfriendly.words⟩
  | superseded hsession _ _ =>
      have hfriendly := haligned.sessions _ _ hsession
      exact haligned.replaced hsession ⟨hfriendly.trusting.of_eq rfl, hfriendly.words⟩
  | introduced hsession _ heq _ =>
      have hfriendly := haligned.sessions _ _ hsession
      have hsaid := hinput _ _ heq
      have htrusting := hfriendly.trusting
      exact haligned.replaced hsession
        ⟨⟨hsaid.right, hsaid.left, htrusting.state, htrusting.error, htrusting.anchor⟩,
          hfriendly.words⟩
  | acknowledged hsession _ _ _ _ =>
      have hfriendly := haligned.sessions _ _ hsession
      exact haligned.replaced hsession ⟨hfriendly.trusting.of_eq rfl, hfriendly.words⟩
  | established hsession _ _ _ _ =>
      have hfriendly := haligned.sessions _ _ hsession
      exact haligned.replaced hsession ⟨hfriendly.trusting.of_eq rfl, hfriendly.words⟩
  | @heard id session packet height hash hsession heq hreports =>
      have hsaid := hinput id packet heq
      generalize packet.payload = payload at hsaid hreports
      cases payload with
      | status payload =>
          rcases hreports with ⟨rfl, rfl⟩
          exact haligned.told hsession hsaid.left hsaid.right
      | blocks payload =>
          rcases hreports with ⟨rfl, rfl⟩
          exact haligned.told hsession hsaid.left hsaid.right
      | _ => exact hreports.elim
  | @diverged id session later hsession hdivergence _ =>
      have htrusting := (haligned.sessions id session hsession).trusting
      rcases hdivergence with ⟨hash, htip, hne⟩ | hanchor | ⟨message, requestId, heq⟩
      · exact absurd (htrusting.tip.unique (TipIs.stands htip haligned.chain).left) hne
      · rw [htrusting.anchor] at hanchor
        cases hanchor
      · exact absurd rfl (hinput id _ heq).left
  | refused _ heq => exact absurd rfl (hinput _ _ heq).right
  | ticked => exact haligned.of_eq rfl rfl (fun _ hitem => hitem)

theorem moves_aligned (h : Relation.ReflTransGen (Move store input) node next)
    (haligned : Aligned ledger reach node)
    (hinput : forall id packet, input = .remote id packet ->
      Truthful ledger (reach id) node.chain.blocks.length packet.payload)
    (hledger : next.chain.blocks <+: ledger) : Aligned ledger reach next := by
  induction h with
  | refl => exact haligned
  | tail hmoves hlast ih =>
      have hmiddle := ih (hlast.steady.blocks.trans hledger)
      apply hlast.aligned hmiddle _ hledger
      intro id packet heq
      exact (hinput id packet heq).mono (le_refl _) (moves_steady hmoves).blocks.length_le

theorem Carried.friendly {reach own : Nat} {session later : Session} (h : Carried session later)
    (hfriendly : Friendly ledger reach own session) : Friendly ledger reach own later := by
  constructor
  · apply hfriendly.trusting.of_eq
    rw [h.rest]
  · rcases h.queue with heq | ⟨heq, _⟩
    · rw [heq]
      exact hfriendly.words
    · rw [heq]
      intro packet hpacket
      cases hpacket

theorem Turn.aligned (h : Turn event node next) (haligned : Aligned ledger reach node)
    (hreach : forall id, 0 < reach id) (hgenesis : Stands ledger 0 GENESIS_HASH)
    (hevent : forall id packet, Queues event node.config (.remote id packet) ->
      Truthful ledger (reach id) node.chain.blocks.length packet.payload) :
    Aligned ledger reach next := by
  cases h with
  | bookkept _ => exact haligned.of_eq rfl rfl (fun _ hitem => hitem)
  | ended _ => exact haligned.of_eq rfl rfl (fun _ hitem => hitem)
  | managed _ _ => exact haligned.of_eq rfl rfl (fun _ hitem => hitem)
  | synced _ _ => exact haligned.of_eq rfl rfl (fun _ hitem => hitem)
  | @carried id f hcarried =>
      apply haligned.modified
      intro session hsession
      exact (hcarried session hsession).friendly (haligned.sessions id session hsession)
  | carriedAll hcarried =>
      apply haligned.mapped
      intro id session hsession
      exact (hcarried session).friendly (haligned.sessions id session hsession)
  | @written id _ =>
      apply haligned.modified
      intro session hsession
      have hfriendly := haligned.sessions id session hsession
      refine ⟨hfriendly.trusting.of_eq rfl, ?_⟩
      intro packet hpacket
      exact hfriendly.words packet (List.mem_of_mem_tail hpacket)
  | @opened remote dialEndpoint now _ =>
      refine ⟨haligned.chain, ?_, haligned.waiting⟩
      intro id session hsession
      change (node.sessions.set _ _).get? id = some session at hsession
      rw [Dict.get?_set] at hsession
      split at hsession
      · rw [← Option.some.inj hsession]
        refine ⟨⟨hreach id, hgenesis, ?_, ?_, rfl⟩, ?_⟩
        · intro hstate
          cases hstate
        · intro herror
          cases herror
        · intro packet hpacket
          cases hpacket
      · exact haligned.sessions id session hsession
  | greeted htalk =>
      apply htalk.aligned haligned
      intro id session payload _ hgreets
      cases payload with
      | version payload => exact TipIs.stands hgreets.right.right haligned.chain
      | _ => exact hgreets.elim
  | @received item _ hqueues =>
      refine ⟨haligned.chain, haligned.sessions, ?_⟩
      intro other hother id packet hkind
      rcases List.mem_append.mp hother with hold | hnew
      · exact haligned.waiting other hold id packet hkind
      · rw [List.mem_singleton.mp hnew] at hkind
        rw [hkind] at hqueues
        exact hevent id packet hqueues
  | popped hevents =>
      refine haligned.of_eq rfl rfl ?_
      intro item hitem
      rw [hevents]
      exact List.mem_cons_of_mem _ hitem
  | left _ _ => exact haligned.of_eq rfl rfl (fun _ hitem => hitem)
  | reaped _ =>
      refine ⟨haligned.chain, ?_, haligned.waiting⟩
      intro id session hsession
      rw [Dict.get?_erase] at hsession
      split at hsession
      · cases hsession
      · exact haligned.sessions id session hsession

theorem turns_aligned (h : Relation.ReflTransGen (Turn event) node next)
    (haligned : Aligned ledger reach node)
    (hreach : forall id, 0 < reach id) (hgenesis : Stands ledger 0 GENESIS_HASH)
    (hevent : forall id packet, Queues event node.config (.remote id packet) ->
      Truthful ledger (reach id) node.chain.blocks.length packet.payload) :
    Aligned ledger reach next := by
  induction h with
  | refl => exact haligned
  | tail hturns hlast ih =>
      have hframed := turns_framed hturns
      apply hlast.aligned ih hreach hgenesis
      rw [hframed.config, hframed.chain]
      exact hevent

theorem Happens.aligned (h : Happens store event node next)
    (haligned : Aligned ledger reach node)
    (hreach : forall id, 0 < reach id) (hgenesis : Stands ledger 0 GENESIS_HASH)
    (hevent : forall id packet, Queues event node.config (.remote id packet) ->
      Truthful ledger (reach id) node.chain.blocks.length packet.payload)
    (hledger : next.chain.blocks <+: ledger) : Aligned ledger reach next := by
  cases h with
  | turned hturns => exact turns_aligned hturns haligned hreach hgenesis hevent
  | @dispatched cancelled item rest before after hdispatch hevents hturns _ hacts hturns' _ =>
      have hframed := turns_framed hturns
      have hframed' := turns_framed hturns'
      have hbefore := turns_aligned hturns haligned hreach hgenesis hevent
      rw [hframed'.chain] at hledger
      have hafter : Aligned ledger reach after := by
        apply moves_aligned (acts_moves hacts) hbefore _ hledger
        intro id packet hkind
        rw [hframed.chain]
        have hitem : item ∈ node.events := by
          rw [hevents]
          exact List.mem_cons_self
        exact haligned.waiting item hitem id packet hkind
      apply turns_aligned hturns' hafter hreach hgenesis
      intro id packet hqueues
      rcases hqueues with ⟨body, hbody, _⟩
      rw [hdispatch] at hbody
      cases hbody

end Chain

end Node

/-!
## All nodes
-/

namespace Swarm

section Network

variable [Crypto] {party disk : Type} [DecidableEq party]
  {store : party -> Option (ChainStore disk)} {link : End party -> End party}
  {ledger : List Block}

/-- The length of the chain of a node. -/
def reach (swarm : Swarm party disk) (p : party) : Nat :=
  (swarm.node p).chain.blocks.length

/-- Nodes that have just started, before anything is sent. -/
structure Fresh (swarm : Swarm party disk) : Prop where
  chain : forall p, Constructed (swarm.node p).chain
  sessions : forall p, (swarm.node p).sessions = Dict.empty
  events : forall p, (swarm.node p).events = []
  sent : swarm.sent = []

/-- All chains are on one ledger. -/
def OnLedger (ledger : List Block) (swarm : Swarm party disk) : Prop :=
  forall p, (swarm.node p).chain.blocks <+: ledger

/-- Nodes that trust each other, and for a reason. -/
structure Coherent (link : End party -> End party) (ledger : List Block)
    (swarm : Swarm party disk) : Prop where
  genesis : party -> Stands ledger 0 GENESIS_HASH
  nonempty : forall p, 0 < swarm.reach p
  aligned : forall p,
    (swarm.node p).Aligned ledger (fun id => swarm.reach (link (p, id)).1)
  sent : forall letter, letter ∈ swarm.sent ->
    Truthful ledger (swarm.reach letter.sender.1) (swarm.reach (link letter.sender).1)
      letter.packet.payload

omit [DecidableEq party] in
theorem Fresh.coherent {swarm : Swarm party disk} (h : Fresh swarm)
    (hledger : OnLedger ledger swarm) : Coherent link ledger swarm := by
  constructor
  · intro p
    rcases (h.chain p).sound.valid with ⟨tip, hchain⟩
    exact (ValidChain.stands_genesis hchain).extended (hledger p)
  · intro p
    rcases (h.chain p).sound.valid with ⟨tip, hchain⟩
    exact List.length_pos_iff.mpr hchain.ne_nil
  · intro p
    refine ⟨hledger p, ?_, ?_⟩
    · intro id session hsession
      rw [h.sessions p] at hsession
      cases hsession
    · intro item hitem
      rw [h.events p] at hitem
      cases hitem
  · intro letter hletter
    rw [h.sent] at hletter
    cases hletter

theorem Coherent.step {swarm : Swarm party disk} (hlink : forall e, link (link e) = e)
    (h : Coherent link ledger swarm)
    (call : party × Env × NodeEvent)
    (hledger : OnLedger ledger ((machine store link).step call swarm).2) :
    Coherent link ledger ((machine store link).step call swarm).2 := by
  have hgrows : forall p, swarm.reach p ≤ ((machine store link).step call swarm).2.reach p :=
    fun p => (step_blocks call swarm p).length_le
  revert hledger hgrows
  refine step_cases store link (P := fun last => OnLedger ledger last ->
    (forall p, swarm.reach p ≤ last.reach p) -> Coherent link ledger last) (fun _ _ => h) ?_
  intro next harrives hhappens hledger hgrows
  have haligned : next.Aligned ledger (fun id => swarm.reach (link (call.1, id)).1) := by
    apply hhappens.aligned (h.aligned call.1) (fun id => h.nonempty _) (h.genesis call.1)
    · rintro id packet ⟨body, hevent, hdecode⟩
      rw [hevent] at harrives
      have hsaid := h.sent _ (arrives_letter link harrives hdecode)
      rw [hlink] at hsaid
      exact hsaid
    · have hnext := hledger call.1
      simp only [Function.update_self] at hnext
      exact hnext
  refine ⟨h.genesis, fun p => (h.nonempty p).trans_le (hgrows p), ?_, ?_⟩
  · intro p
    by_cases hp : p = call.1
    · rw [hp]
      simp only [Function.update_self]
      exact haligned.mono (fun id => hgrows _)
    · simp only [Function.update_of_ne hp]
      exact (h.aligned p).mono (fun id => hgrows _)
  · intro letter hletter
    rcases List.mem_append.mp hletter with hold | hnew
    · exact (h.sent letter hold).mono (hgrows _) (hgrows _)
    · rcases mem_outgoing hnew with ⟨id, session, hsession, hsender, hpacket⟩
      have hwords := (haligned.sessions id session hsession).words _ hpacket
      rw [hsender]
      refine hwords.mono ?_ (hgrows _)
      unfold reach
      simp only [Function.update_self]
      exact le_refl _

/-- Honest nodes never find that they have diverged.  Whatever is delayed, repeated,
reordered or lost between any number of nodes, while their chains are prefixes of one
ledger no session is marked as diverged and no request is answered by an unknown anchor. -/
theorem never_diverges {start : Swarm party disk} (hlink : forall e, link (link e) = e)
    (hstart : Fresh start) (done later : List (party × Env × NodeEvent))
    (hledger : OnLedger ledger ((machine store link).run (done ++ later) start)) :
    (forall p id session,
      (((machine store link).run done start).node p).sessions.get? id = some session ->
        session.syncState ≠ .diverged ∧
          session.error ≠ some (.failed (.remote .forkUnsupported)) ∧
          session.rejectedAnchor = none) ∧
      forall letter code message, letter ∈ ((machine store link).run done start).sent ->
        letter.packet.payload = .error code message ->
          code ≠ .unknownAnchor ∧ code ≠ .forkUnsupported := by
  have hback : forall before after, done ++ later = before ++ after ->
      OnLedger ledger ((machine store link).run before start) := by
    intro before after heq p
    have hgrows := run_blocks store link after
      ((machine store link).run before start) p
    rw [← Machine.run_append, ← heq] at hgrows
    exact hgrows.trans (hledger p)
  have hcoherent : Coherent link ledger ((machine store link).run done start) := by
    refine (machine store link).run_invariant_along (fun _ => True) (OnLedger ledger)
      (Coherent link ledger) (fun call _ _ hseen hs => hs.step hlink call hseen) done start
      (fun _ _ => trivial) ?_ (hstart.coherent (hback [] _ rfl))
    intro before after heq
    exact hback before (after ++ later) (by rw [heq, List.append_assoc])
  constructor
  · intro p id session hsession
    have htrusting := ((hcoherent.aligned p).sessions id session hsession).trusting
    exact ⟨htrusting.state, htrusting.error, htrusting.anchor⟩
  · intro letter code message hletter hpayload
    have hsaid := hcoherent.sent letter hletter
    rw [hpayload] at hsaid
    exact ⟨hsaid.right, hsaid.left⟩

end Network

end Swarm

end Network

/-!
# Two nodes

One node has mined a block that another one fetches from it.
-/

namespace Sample

open Network

/-- A node that listens where the other one dials. -/
def mining : Node Unit :=
  { listening with nodeId := List.replicate 32 'b', endpoint := peerEndpoint }

def pair : Swarm Bool Unit :=
  { node := fun p => if p then mining else listening
    sent := [] }

/-- The first connection of the mining node is the one that the other node has dialled. -/
def wire (e : End Bool) : End Bool :=
  if e = (false, tokenAt 1) then (true, tokenAt 0)
  else if e = (true, tokenAt 0) then (false, tokenAt 1)
  else e

def pairCalls (p : Bool) (events : List NodeEvent) : List (Bool × Env × NodeEvent) :=
  events.map (fun event => (p, batchEnv, event))

def introduction (nodeId nonce : Str) (port height : Nat) (tipHash : Str) : Packet :=
  { payload := .version
      { networkId := NETWORK_ID
        genesisHash := GENESIS_HASH
        nodeId := nodeId
        connectionNonce := nonce
        listenPort := port
        height := height
        tipHash := tipHash }
    requestId := none }

def acknowledgement : Packet :=
  { payload := .verack, requestId := none }

def fetching : Packet :=
  { payload := .getBlocks { anchorHeight := 0, anchorHash := GENESIS_HASH, limit := 16 }
    requestId := some (tokenAt 5) }

def fetched : Packet :=
  { payload := .blocks
      { anchorHeight := 0
        anchorHash := GENESIS_HASH
        tipHeight := 1
        tipHash := @Block.hash crypto first
        blocks := (@packBlock crypto first threePeers.maxItemBytes).toOption.toList
        more := false }
    requestId := some (tokenAt 5) }

def fetchCalls : List (Bool × Env × NodeEvent) :=
  pairCalls true [.call (.block first), .dispatch false] ++
    pairCalls false [.connect peerEndpoint, .dialled peerEndpoint peerEndpoint] ++
    pairCalls true [.acceptedSocket inboundEndpoint] ++
    pairCalls false (arrives (tokenAt 1)
      (introduction mining.nodeId (tokenAt 1) 6000 1 (@Block.hash crypto first))) ++
    pairCalls true (arrives (tokenAt 0)
      (introduction listening.nodeId (tokenAt 2) 5000 0 GENESIS_HASH)) ++
    pairCalls false (arrives (tokenAt 1) acknowledgement) ++
    pairCalls true (arrives (tokenAt 0) acknowledgement) ++
    pairCalls false [.timer, .dispatch false] ++
    pairCalls true (arrives (tokenAt 0) fetching) ++
    pairCalls false (arrives (tokenAt 1) fetched)

theorem pair_fresh : @Swarm.Fresh crypto Bool Unit pair := by
  refine @Swarm.Fresh.mk crypto Bool Unit pair ?_ ?_ ?_ rfl
  · intro p
    cases p with
    | false => exact listening_constructed
    | true => exact listening_constructed
  · intro p
    cases p with
    | false => rfl
    | true => rfl
  · intro p
    cases p with
    | false => rfl
    | true => rfl

theorem wire_wire (e : End Bool) : wire (wire e) = e := by
  have hnear : wire (false, tokenAt 1) = (true, tokenAt 0) := if_pos rfl
  have hfar : wire (true, tokenAt 0) = (false, tokenAt 1) := by
    decide
  by_cases h : e = (false, tokenAt 1)
  · rw [h, hnear, hfar]
  · by_cases h' : e = (true, tokenAt 0)
    · rw [h', hfar, hnear]
    · have hsame : wire e = e := by
        unfold wire
        rw [if_neg h, if_neg h']
      rw [hsame, hsame]

def fetchOutcome (last : Swarm Bool Unit) : Bool :=
  decide ((last.node false).chain.blocks = [genesis, first]) &&
    decide ((last.node true).chain.blocks = [genesis, first]) &&
    decide ((last.node false).sessions.keys = [tokenAt 1])

theorem fetch_outcome :
    fetchOutcome ((@Swarm.machine Bool Unit _ (fun _ => none) wire crypto).run fetchCalls pair) =
      true := by
  decide +kernel

end Sample

namespace Network

namespace Swarm

theorem never_diverges_pair :
    exists session,
      (((@machine Bool Unit _ (fun _ => none) Sample.wire Sample.crypto).run Sample.fetchCalls
        Sample.pair).node false).sessions.get? (Sample.tokenAt 1) = some session ∧
      session.syncState ≠ .diverged := by
  have houtcome := Sample.fetch_outcome
  unfold Sample.fetchOutcome at houtcome
  simp only [Bool.and_eq_true, decide_eq_true_eq] at houtcome
  rcases houtcome with ⟨⟨hnear, hfar⟩, hkeys⟩
  have hledger : OnLedger [Sample.genesis, Sample.first]
      ((@machine Bool Unit _ (fun _ => none) Sample.wire Sample.crypto).run
        (Sample.fetchCalls ++ []) Sample.pair) := by
    intro p
    rw [List.append_nil]
    cases p with
    | false => rw [hnear]
    | true => rw [hfar]
  rcases @never_diverges Sample.crypto Bool Unit _ (fun _ => none) Sample.wire
    [Sample.genesis, Sample.first] Sample.pair Sample.wire_wire Sample.pair_fresh
    Sample.fetchCalls [] hledger with ⟨hsessions, _⟩
  have hmem : Sample.tokenAt 1 ∈ (((@machine Bool Unit _ (fun _ => none) Sample.wire
      Sample.crypto).run Sample.fetchCalls Sample.pair).node false).sessions.keys := by
    rw [hkeys]
    exact List.mem_singleton.mpr rfl
  rcases Dict.exists_get?_of_mem_keys hmem with ⟨session, hsession⟩
  exact ⟨session, hsession, (hsessions false _ session hsession).left⟩

end Swarm

end Network

end PyChain
