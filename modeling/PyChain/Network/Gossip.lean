import PyChain.Blockchain.Admission
import PyChain.Network.PeerSlots
import PyChain.Storage.Writers

/-!
# Gossip

A node passes an item on only when its chain has just accepted it, and a chain
accepts each item once.  So no session ever carries an item twice.
-/

namespace PyChain

open Foundation

namespace Network

/-- What gossip is about: a transaction by its identifier, a block by its hash. -/
inductive Item where
  | transaction (txid : Str)
  | block (blockHash : Str)
deriving DecidableEq, Repr

section Items

variable [Crypto]

/-- The item a message passes on. -/
def Payload.item (maxItemBytes : Nat) : Payload -> Option Item
  | .newTransaction encoded =>
      match unpackTransaction encoded maxItemBytes with
      | .ok transaction => some (.transaction transaction.txid)
      | .error _ => none
  | .newBlock encoded =>
      match unpackBlock encoded maxItemBytes with
      | .ok block => some (.block block.hash)
      | .error _ => none
  | _ => none

/-- The transactions that come with an event, also inside a block. -/
def EventKind.Carries (maxItemBytes : Nat) (kind : EventKind) (transaction : Transaction) :
    Prop :=
  kind.Submits maxItemBytes transaction ∨
    exists block, kind.Brings maxItemBytes block ∧ transaction ∈ block.transactions

/-- An item the chain will not accept again. -/
def Item.Known (known : Transaction -> Prop) (chain : Blockchain) : Item -> Prop
  | .transaction txid => Blockchain.Settled known (Blockchain.live chain) txid
  | .block blockHash => Blockchain.Appended (Blockchain.live chain) blockHash

end Items

namespace Node

variable {disk : Type}

/-- The gossip that waits on a connection. -/
def gossip (node : Node disk) (id : Str) : List Payload :=
  match node.sessions.get? id with
  | none => []
  | some session => relays session

theorem gossip_of_get? {node : Node disk} {id : Str} {session : Session}
    (h : node.sessions.get? id = some session) : node.gossip id = relays session := by
  unfold gossip
  rw [h]

theorem gossip_of_none {node : Node disk} {id : Str} (h : node.sessions.get? id = none) :
    node.gossip id = [] := by
  unfold gossip
  rw [h]

theorem gossip_congr {node next : Node disk} (h : next.sessions = node.sessions) (id : Str) :
    next.gossip id = node.gossip id := by
  unfold gossip
  rw [h]

section Chain

variable [Crypto] {store : Option (ChainStore disk)} {event : NodeEvent} {node : Node disk}

/-!
## Turns say nothing
-/

omit [Crypto] in
theorem Carried.relays_suffix {session next : Session} (h : Carried session next) :
    relays next <:+ relays session := by
  unfold relays
  rcases h.queue with hsame | ⟨hempty, _⟩
  · rw [hsame]
  · rw [hempty]
    exact List.nil_suffix

omit [Crypto] in
theorem gossip_suffix_of {next : Node disk} {id : Str}
    (h : forall later, next.sessions.get? id = some later -> relays later = [] ∨
      exists session, node.sessions.get? id = some session ∧ relays later <:+ relays session) :
    next.gossip id <:+ node.gossip id := by
  cases hlater : next.sessions.get? id with
  | none =>
      rw [gossip_of_none hlater]
      exact List.nil_suffix
  | some later =>
      rw [gossip_of_get? hlater]
      rcases h later hlater with hempty | ⟨session, hsession, hsuffix⟩
      · rw [hempty]
        exact List.nil_suffix
      · rw [gossip_of_get? hsession]
        exact hsuffix

omit [Crypto] in
theorem gossip_modify {id : Str} {f : Session -> Session}
    (hf : forall session, node.sessions.get? id = some session ->
      relays (f session) <:+ relays session) (other : Str) :
    ({ node with sessions := node.sessions.modify id f } : Node disk).gossip other <:+
      node.gossip other := by
  apply gossip_suffix_of
  intro later hlater
  change (node.sessions.modify id f).get? other = _ at hlater
  rw [Dict.get?_modify] at hlater
  split at hlater
  · rename_i hother
    rcases Option.map_eq_some_iff.mp hlater with ⟨session, hsession, heq⟩
    rw [← heq]
    refine Or.inr ⟨session, hsession, hf session ?_⟩
    rw [← hother]
    exact hsession
  · exact Or.inr ⟨later, hlater, List.suffix_rfl⟩

omit [Crypto] in
theorem Silent.gossip {next : Node disk} (h : Silent node next)
    (hkeys : next.sessions.keys = node.sessions.keys) (id : Str) :
    next.gossip id = node.gossip id := by
  cases hsession : node.sessions.get? id with
  | none =>
      have hnone : next.sessions.get? id = none := by
        rw [Dict.get?_eq_none_iff, hkeys, ← Dict.get?_eq_none_iff]
        exact hsession
      rw [gossip_of_none hnone, gossip_of_none hsession]
  | some session =>
      rcases h id session hsession with ⟨later, hlater, heq⟩
      rw [gossip_of_get? hlater, gossip_of_get? hsession, heq]

theorem Turn.gossip_suffix {next : Node disk} (h : Turn event node next) (id : Str) :
    next.gossip id <:+ node.gossip id := by
  cases h with
  | bookkept _ => exact List.suffix_rfl
  | ended _ => exact List.suffix_rfl
  | managed _ _ => exact List.suffix_rfl
  | synced _ _ => exact List.suffix_rfl
  | carried hcarried => exact gossip_modify (fun session h => (hcarried session h).relays_suffix) id
  | carriedAll hcarried =>
      apply gossip_suffix_of
      intro later hlater
      rw [Dict.get?_mapValues] at hlater
      rcases Option.map_eq_some_iff.mp hlater with ⟨session, hsession, heq⟩
      rw [← heq]
      exact Or.inr ⟨session, hsession, (hcarried session).relays_suffix⟩
  | written _ =>
      apply gossip_modify
      intro session _
      unfold relays
      exact ((List.tail_suffix _).map _).filter _
  | opened _ =>
      apply gossip_suffix_of
      intro later hlater
      unfold Node.opened at hlater
      rw [Dict.get?_set] at hlater
      split at hlater
      · rw [← Option.some.inj hlater]
        exact Or.inl rfl
      · exact Or.inr ⟨later, hlater, List.suffix_rfl⟩
  | greeted htalk =>
      have hsilent : Silent node next := by
        apply htalk.silent
        intro id chain session payload hgreets
        cases payload with
        | version _ => rfl
        | _ => exact hgreets.elim
      rw [hsilent.gossip htalk.steady.keys]
  | received _ _ => exact List.suffix_rfl
  | popped _ => exact List.suffix_rfl
  | left _ _ => exact List.suffix_rfl
  | reaped _ =>
      apply gossip_suffix_of
      intro later hlater
      rw [Dict.get?_erase] at hlater
      split at hlater
      · cases hlater
      · exact Or.inr ⟨later, hlater, List.suffix_rfl⟩

theorem turns_gossip_suffix {next : Node disk}
    (h : Relation.ReflTransGen (Turn event) node next) (id : Str) :
    next.gossip id <:+ node.gossip id := by
  induction h with
  | refl => exact List.suffix_rfl
  | tail _ hlast ih => exact (hlast.gossip_suffix id).trans ih

omit [Crypto] in
theorem Thinned.gossip {next : Node disk} (h : Thinned node next) (id : Str) :
    next.gossip id = node.gossip id ∨ next.sessions.get? id = none := by
  cases hlater : next.sessions.get? id with
  | none => exact Or.inr rfl
  | some later =>
      rw [gossip_of_get? hlater, gossip_of_get? (h id later hlater)]
      exact Or.inl rfl

/-!
## Acts pass on what they have accepted
-/

variable {known : Transaction -> Prop} {kind : EventKind}

/-- A node whose chain is sound and whose pending transactions are known. -/
def Tracked (known : Transaction -> Prop) (node : Node disk) : Prop :=
  Blockchain.Tracked known (Blockchain.live node.chain)

/-- Gossip about items that were not known before and are known now. -/
structure Spreads (known : Transaction -> Prop) (id : Str) (node next : Node disk)
    (sent : List Payload) : Prop where
  gossip : next.gossip id = node.gossip id ++ sent
  items : forall payload, payload ∈ sent -> (payload.item node.config.maxItemBytes).isSome = true
  nodup : (sent.filterMap (Payload.item node.config.maxItemBytes)).Nodup
  fresh : forall item, item ∈ sent.filterMap (Payload.item node.config.maxItemBytes) ->
    ¬ item.Known known node.chain ∧ item.Known known next.chain

/-- What an act or a turn may do to the items of a chain. -/
structure Advances (known : Transaction -> Prop) (node next : Node disk) : Prop where
  config : next.config = node.config
  tracked : Tracked known next
  keeps : forall item : Item, item.Known known node.chain -> item.Known known next.chain

theorem Advances.of_chain {next : Node disk} (hconfig : next.config = node.config)
    (hchain : next.chain = node.chain) (h : Tracked known node) : Advances known node next := by
  refine ⟨hconfig, ?_, ?_⟩
  · unfold Tracked
    rw [hchain]
    exact h
  · intro item hitem
    rw [hchain]
    exact hitem

theorem Spreads.of_silent {next : Node disk} {id : Str}
    (h : next.gossip id = node.gossip id) : Spreads known id node next [] := by
  refine ⟨?_, ?_, List.nodup_nil, ?_⟩
  · rw [h, List.append_nil]
  · intro payload hpayload
    cases hpayload
  · intro item hitem
    cases hitem

theorem Spreads.trans {middle next : Node disk} {id : Str} {sent later : List Payload}
    (h : Spreads known id node middle sent) (h' : Spreads known id middle next later)
    (hadvances : Advances known node middle) (hadvances' : Advances known middle next) :
    Spreads known id node next (sent ++ later) := by
  have hconfig := hadvances.config
  have hitems := h'.items
  have hnodup := h'.nodup
  have hfresh := h'.fresh
  rw [hconfig] at hitems hnodup hfresh
  refine ⟨?_, ?_, ?_, ?_⟩
  · rw [h'.gossip, h.gossip, List.append_assoc]
  · intro payload hpayload
    rcases List.mem_append.mp hpayload with hfirst | hlast
    · exact h.items payload hfirst
    · exact hitems payload hlast
  · rw [List.filterMap_append, List.nodup_append]
    refine ⟨h.nodup, hnodup, ?_⟩
    intro item hitem other hother heq
    rw [← heq] at hother
    exact (hfresh item hother).left (h.fresh item hitem).right
  · intro item hitem
    rw [List.filterMap_append] at hitem
    rcases List.mem_append.mp hitem with hfirst | hlast
    · exact ⟨(h.fresh item hfirst).left, hadvances'.keeps item (h.fresh item hfirst).right⟩
    · exact ⟨fun hknown => (hfresh item hlast).left (hadvances.keeps item hknown),
        (hfresh item hlast).right⟩

theorem Advances.trans {middle next : Node disk} (h : Advances known node middle)
    (h' : Advances known middle next) : Advances known node next :=
  ⟨h'.config.trans h.config, h'.tracked, fun item hitem => h'.keeps item (h.keeps item hitem)⟩

theorem Offered.transactions {config : NodeConfig} {chain : Blockchain} {call : Blockchain.Call}
    (h : Offered kind config chain call)
    (hcarried : forall transaction, kind.Carries config.maxItemBytes transaction ->
      known transaction) :
    (forall transaction, transaction ∈ call.transactions -> known transaction) ∧
      call.removes = false := by
  cases h with
  | submit hsubmits =>
      refine ⟨?_, rfl⟩
      intro transaction htransaction
      rw [List.mem_singleton.mp htransaction]
      exact hcarried _ (Or.inl hsubmits)
  | block _ hbrings =>
      refine ⟨?_, rfl⟩
      intro transaction htransaction
      exact hcarried transaction (Or.inr ⟨_, hbrings, htransaction⟩)

theorem Relays.item {config : NodeConfig} {call : Blockchain.Call} {payload : Payload}
    (h : Relays config call payload) :
    (exists transaction, call = .submitTransaction transaction ∧
        payload.item config.maxItemBytes = some (.transaction transaction.txid)) ∨
      exists block clock, call = .addBlock block clock ∧
        payload.item config.maxItemBytes = some (.block block.hash) := by
  cases call with
  | submitTransaction transaction =>
      cases payload with
      | newTransaction encoded =>
          refine Or.inl ⟨transaction, rfl, ?_⟩
          simp only [Payload.item, unpackTransaction_packTransaction h]
      | _ => exact h.elim
  | addBlock block clock =>
      cases payload with
      | newBlock encoded =>
          refine Or.inr ⟨block, clock, rfl, ?_⟩
          simp only [Payload.item, unpackBlock_packBlock h]
      | _ => exact h.elim
  | removePendingTransaction _ => exact h.elim

theorem Advances.of_prepares {next : Node disk} {call : Blockchain.Call} {block : Option Block}
    (hfree : CollisionFreeOn (EncodingOf known))
    (hknown : forall transaction, transaction ∈ call.transactions -> known transaction)
    (hremoves : call.removes = false) (htracked : Tracked known node)
    (hconfig : next.config = node.config)
    (hprepares : Blockchain.Prepares (Blockchain.live node.chain) call
      (Blockchain.live next.chain) block) : Advances known node next := by
  refine ⟨hconfig, hprepares.tracked hfree hknown hremoves htracked, ?_⟩
  intro item hitem
  cases item with
  | transaction txid => exact hprepares.settled hfree hknown hremoves htracked hitem
  | block blockHash => exact hprepares.keeps_blocks hitem

theorem Spreads.of_echo {next : Node disk} {call : Blockchain.Call} {block : Option Block}
    {id : Str} {payload : Payload}
    (hfree : CollisionFreeOn (EncodingOf known))
    (hknown : forall transaction, transaction ∈ call.transactions -> known transaction)
    (htracked : Tracked known node)
    (hprepares : Blockchain.Prepares (Blockchain.live node.chain) call
      (Blockchain.live next.chain) block)
    (hrelays : Relays node.config call payload)
    (hgossip : next.gossip id = node.gossip id ++ [payload]) :
    Spreads known id node next [payload] := by
  have hfresh : exists item, payload.item node.config.maxItemBytes = some item ∧
      ¬ item.Known known node.chain ∧ item.Known known next.chain := by
    rcases hrelays.item with ⟨transaction, hcall, hitem⟩ | ⟨block, clock, hcall, hitem⟩
    · rw [hcall] at hprepares hknown
      exact ⟨_, hitem,
        hprepares.submit_settles hfree (hknown transaction List.mem_cons_self) htracked⟩
    · rw [hcall] at hprepares
      exact ⟨_, hitem, hprepares.append_new⟩
  rcases hfresh with ⟨item, hitem, hbefore, hafter⟩
  have hitems : [payload].filterMap (Payload.item node.config.maxItemBytes) = [item] := by
    rw [List.filterMap_cons, hitem]
    rfl
  refine ⟨hgossip, ?_, ?_, ?_⟩
  · intro other hother
    rw [List.mem_singleton.mp hother, hitem]
    rfl
  · rw [hitems]
    exact List.nodup_singleton item
  · intro other hother
    rw [hitems] at hother
    rw [List.mem_singleton.mp hother]
    exact ⟨hbefore, hafter⟩

theorem Act.spreads {next : Node disk} (h : Act store kind node next)
    (hfree : CollisionFreeOn (EncodingOf known))
    (hcarried : forall transaction, kind.Carries node.config.maxItemBytes transaction ->
      known transaction)
    (htracked : Tracked known node) (id : Str) :
    Advances known node next ∧ exists sent, Spreads known id node next sent := by
  cases h with
  | calm hcalm =>
      exact ⟨Advances.of_chain hcalm.left.steady.config hcalm.right.left htracked, [],
        Spreads.of_silent (hcalm.right.right.gossip hcalm.left.steady.keys id)⟩
  | @refused call hoffered hanswer =>
      rcases Blockchain.perform_answer store call node.chain node.disk with
        ⟨htrue, _⟩ | ⟨_, hsame⟩
      · exact absurd htrue hanswer
      · have hlive : Blockchain.live (node.called store call).chain =
            Blockchain.live node.chain := hsame
        refine ⟨⟨rfl, ?_, ?_⟩, [], Spreads.of_silent (gossip_congr rfl id)⟩
        · unfold Tracked
          rw [hlive]
          exact htracked
        · intro item hitem
          cases item with
          | transaction txid =>
              unfold Item.Known
              rw [hlive]
              exact hitem
          | block blockHash =>
              unfold Item.Known
              rw [hlive]
              exact hitem
  | @accepted _ call hoffered htrue hmoves hchain hechoes =>
      rcases hoffered.transactions hcarried with ⟨hknown, hremoves⟩
      rcases Blockchain.perform_answer store call node.chain node.disk with
        ⟨_, block, hprepares⟩ | ⟨hfalse, _⟩
      · have hnext : Blockchain.Prepares (Blockchain.live node.chain) call
            (Blockchain.live next.chain) block := by
          rw [hchain]
          exact hprepares
        have hsteady := moves_steady hmoves
        refine ⟨Advances.of_prepares hfree hknown hremoves htracked hsteady.config hnext, ?_⟩
        have hsame : (node.called store call).gossip id = node.gossip id := gossip_congr rfl id
        cases hsession : node.sessions.get? id with
        | none =>
            have hnone : next.sessions.get? id = none := by
              rw [Dict.get?_eq_none_iff, hsteady.keys]
              exact (Dict.get?_eq_none_iff _ _).mp hsession
            refine ⟨[], Spreads.of_silent ?_⟩
            rw [gossip_of_none hnone, gossip_of_none hsession]
        | some session =>
            rcases hechoes id session hsession with ⟨later, hlater, hsilent | hecho⟩
            · refine ⟨[], Spreads.of_silent ?_⟩
              rw [gossip_of_get? hlater, gossip_of_get? hsession, hsilent]
            · rcases hecho with ⟨payload, hrelays, heq⟩
              refine ⟨[payload], Spreads.of_echo hfree hknown htracked hnext hrelays ?_⟩
              rw [gossip_of_get? hlater, gossip_of_get? hsession, heq]
      · exact absurd htrue hfalse

theorem acts_spreads {next : Node disk}
    (h : Relation.ReflTransGen (Act store kind) node next)
    (hfree : CollisionFreeOn (EncodingOf known))
    (hcarried : forall transaction, kind.Carries node.config.maxItemBytes transaction ->
      known transaction)
    (htracked : Tracked known node) (id : Str) :
    Advances known node next ∧ exists sent, Spreads known id node next sent := by
  induction h with
  | refl =>
      exact ⟨Advances.of_chain rfl rfl htracked, [], Spreads.of_silent rfl⟩
  | @tail middle last _ hlast ih =>
      rcases ih with ⟨hadvances, sent, hspreads⟩
      have hcarried' : forall transaction, kind.Carries middle.config.maxItemBytes transaction ->
          known transaction := by
        rw [hadvances.config]
        exact hcarried
      rcases hlast.spreads hfree hcarried' hadvances.tracked id with
        ⟨hadvances', later, hspreads'⟩
      exact ⟨hadvances.trans hadvances', _, hspreads.trans hspreads' hadvances hadvances'⟩

/-!
## Runs
-/

/-- The gossip an event hands to a connection. -/
def sent (store : Option (ChainStore disk)) (id : Str) (call : Env × NodeEvent)
    (node : Node disk) : List Payload :=
  (((machine store).step call node).2.gossip id).drop (node.gossip id).length

/-- The gossip of a run on a connection. -/
def relayed (store : Option (ChainStore disk)) (id : Str) (calls : List (Env × NodeEvent))
    (node : Node disk) : List Payload :=
  (machine store).trace (sent store id) calls node

theorem Happens.spreads {next : Node disk} (h : Happens store event node next)
    (hfree : CollisionFreeOn (EncodingOf known))
    (hqueued : forall item, item ∈ node.events -> forall transaction,
      item.kind.Carries node.config.maxItemBytes transaction -> known transaction)
    (htracked : Tracked known node) (id : Str) :
    Advances known node next ∧ exists later,
      (next.gossip id).drop (node.gossip id).length = later ∧
        (forall payload, payload ∈ later ->
          (payload.item node.config.maxItemBytes).isSome = true) ∧
        (later.filterMap (Payload.item node.config.maxItemBytes)).Nodup ∧
        forall item, item ∈ later.filterMap (Payload.item node.config.maxItemBytes) ->
          ¬ item.Known known node.chain ∧ item.Known known next.chain := by
  have hnone : exists later : List Payload, [] = later ∧
      (forall payload, payload ∈ later ->
        (payload.item node.config.maxItemBytes).isSome = true) ∧
      (later.filterMap (Payload.item node.config.maxItemBytes)).Nodup ∧
      forall item, item ∈ later.filterMap (Payload.item node.config.maxItemBytes) ->
        ¬ item.Known known node.chain ∧ item.Known known next.chain :=
    ⟨[], rfl, (fun _ h => by cases h), List.nodup_nil, (fun _ h => by cases h)⟩
  cases h with
  | turned hturns =>
      have hframed := turns_framed hturns
      refine ⟨Advances.of_chain hframed.config hframed.chain htracked, ?_⟩
      rw [List.drop_eq_nil_of_le (turns_gossip_suffix hturns id).length_le]
      exact hnone
  | @dispatched cancelled item rest before after hevent hevents hturns hthin hacts hturns'
      hsessions =>
      have hframed := turns_framed hturns
      have hframed' := turns_framed hturns'
      have hbefore : Advances known _ before :=
        Advances.of_chain hframed.config hframed.chain htracked
      have hcarried : forall transaction, item.kind.Carries before.config.maxItemBytes transaction ->
          known transaction := by
        rw [hframed.config]
        apply hqueued
        rw [hevents]
        exact List.mem_cons_self
      rcases acts_spreads hacts hfree hcarried hbefore.tracked id with
        ⟨hadvances, later, hspreads⟩
      have hafter : Advances known after _ :=
        Advances.of_chain hframed'.config hframed'.chain hadvances.tracked
      refine ⟨(hbefore.trans hadvances).trans hafter, ?_⟩
      rw [gossip_congr hsessions]
      rcases hthin.gossip id with hsame | hgone
      · have hitems := hspreads.items
        have hnodup := hspreads.nodup
        have hfresh := hspreads.fresh
        rw [hframed.config] at hitems hnodup hfresh
        rw [hframed.chain] at hfresh
        rw [hspreads.gossip, hsame, List.drop_left]
        refine ⟨later, rfl, hitems, hnodup, ?_⟩
        intro item hitem
        refine ⟨(hfresh item hitem).left, ?_⟩
        rw [hframed'.chain]
        exact (hfresh item hitem).right
      · have hgone' : after.sessions.get? id = none := by
          rw [Dict.get?_eq_none_iff, (moves_steady (acts_moves hacts)).keys]
          exact (Dict.get?_eq_none_iff _ _).mp hgone
        rw [gossip_of_none hgone', List.drop_nil]
        exact hnone

theorem Happens.waiting {next : Node disk} (h : Happens store event node next) {item : Event}
    (hitem : item ∈ next.events) :
    item ∈ node.events ∨ Queues event node.config item.kind := by
  cases h with
  | turned hturns => exact turns_waiting hturns hitem
  | dispatched _ _ hturns _ hacts hturns' _ =>
      rcases turns_waiting hturns' hitem with hbefore | hqueues
      · rw [(moves_steady (acts_moves hacts)).events] at hbefore
        exact turns_waiting hturns hbefore
      · rw [(moves_steady (acts_moves hacts)).config, (turns_framed hturns).config] at hqueues
        exact Or.inr hqueues

/-- A node that has heard of known transactions only. -/
structure Familiar (known : Transaction -> Prop) (config : NodeConfig) (node : Node disk) :
    Prop where
  configured : node.config = config
  tracked : Tracked known node
  waiting : forall item, item ∈ node.events -> forall transaction,
    item.kind.Carries config.maxItemBytes transaction -> known transaction

/-- An event that brings known transactions only. -/
def Introduces (known : Transaction -> Prop) (config : NodeConfig)
    (call : Env × NodeEvent) : Prop :=
  forall kind, Queues call.2 config kind -> forall transaction,
    kind.Carries config.maxItemBytes transaction -> known transaction

variable {config : NodeConfig}

theorem Familiar.spreads {call : Env × NodeEvent} (h : Familiar known config node)
    (hfree : CollisionFreeOn (EncodingOf known)) (hcall : Introduces known config call)
    (id : Str) :
    Familiar known config ((machine store).step call node).2 ∧
      (forall item : Item, item.Known known node.chain ->
        item.Known known ((machine store).step call node).2.chain) ∧
      (forall payload, payload ∈ sent store id call node ->
        (payload.item config.maxItemBytes).isSome = true) ∧
      ((sent store id call node).filterMap (Payload.item config.maxItemBytes)).Nodup ∧
      forall item, item ∈ (sent store id call node).filterMap
          (Payload.item config.maxItemBytes) ->
        ¬ item.Known known node.chain ∧
          item.Known known ((machine store).step call node).2.chain := by
  have hhappens : Happens store call.2 node _ := machine_happens call node
  have hwaiting := h.waiting
  rw [← h.configured] at hwaiting hcall ⊢
  rcases hhappens.spreads hfree hwaiting h.tracked id with
    ⟨hadvances, later, hlater, hitems, hnodup, hfresh⟩
  have hsent : sent store id call node = later := hlater
  rw [hsent]
  refine ⟨⟨hadvances.config, hadvances.tracked, ?_⟩, hadvances.keeps, hitems, hnodup, hfresh⟩
  intro item hitem
  rcases hhappens.waiting hitem with hold | hnew
  · exact hwaiting item hold
  · exact hcall item.kind hnew

/-- The transactions a node may hear of in a run. -/
def Heard (node : Node disk) (calls : List (Env × NodeEvent)) (transaction : Transaction) :
    Prop :=
  transaction ∈ node.chain.mempool.getTransactions ∨
    (exists item, item ∈ node.events ∧
      item.kind.Carries node.config.maxItemBytes transaction) ∨
    exists call, call ∈ calls ∧ exists kind, Queues call.2 node.config kind ∧
      kind.Carries node.config.maxItemBytes transaction

theorem relayed_items {calls : List (Env × NodeEvent)}
    (hsound : (Blockchain.live node.chain).Sound)
    (hfree : CollisionFreeOn (EncodingOf (Heard node calls))) (id : Str) :
    (forall payload, payload ∈ relayed store id calls node ->
        (payload.item node.config.maxItemBytes).isSome = true) ∧
      ((relayed store id calls node).filterMap
        (Payload.item node.config.maxItemBytes)).Nodup := by
  have hstart : Familiar (Heard node calls) node.config node :=
    ⟨rfl, ⟨hsound, fun _ h => Or.inl h⟩,
      fun item hitem _ h => Or.inr (Or.inl ⟨item, hitem, h⟩)⟩
  have hcalls : forall call, call ∈ calls -> Introduces (Heard node calls) node.config call :=
    fun call hcall kind hqueues _ h => Or.inr (Or.inr ⟨call, hcall, kind, hqueues, h⟩)
  constructor
  · exact (machine store).trace_forall (Introduces (Heard node calls) node.config)
      (Familiar (Heard node calls) node.config)
      (fun _ _ hcall h => (h.spreads hfree hcall id).left)
      (fun _ _ hcall h => (h.spreads hfree hcall id).right.right.left) calls node hcalls hstart
  · unfold relayed
    rw [Machine.trace_filterMap]
    exact ((machine store).trace_nodup (Introduces (Heard node calls) node.config)
      (Familiar (Heard node calls) node.config)
      (fun s item => item.Known (Heard node calls) s.chain)
      (fun _ _ hcall h => (h.spreads hfree hcall id).left)
      (fun _ _ item hcall h => (h.spreads hfree hcall id).right.left item)
      (fun _ _ hcall h => (h.spreads hfree hcall id).right.right.right)
      calls node hcalls hstart).left

end Chain

end Node

/-!
## Once and for all
-/

section Once

variable [Crypto] {disk : Type}

/-- What the constructor of a chain returns, in memory or with a database file. -/
inductive Constructed : Blockchain -> Prop where
  | ram {clock : Clock} {maxTransactions maxBytes : Option Int} {start : Blockchain} :
      (Blockchain.create (none : Option (ChainStore Unit)) clock maxTransactions maxBytes ()).1 =
        .ok start -> Constructed start
  | sqlite {faults : Faults} {clock : Clock} {maxTransactions maxBytes : Option Int}
      {file : DatabaseFile} {start : Blockchain} :
      (Blockchain.create (some (SQLiteChainStore.operations faults)) clock maxTransactions
        maxBytes (SQLiteChainStore.unopened file)).1 = .ok start -> Constructed start

theorem Constructed.sound {start : Blockchain} (h : Constructed start) :
    (Blockchain.live start).Sound := by
  cases h with
  | ram hcreate => exact (Blockchain.create_ram hcreate).left
  | sqlite hcreate =>
      rcases (create_file _ _ _ _ _).right _ hcreate with ⟨_, stored, _, hrepresents, heq, _⟩
      rw [heq]
      exact hrepresents.sound

/-- The transactions that are pending at the start of a run or come with a call. -/
def Brought (start : Blockchain)
    (requests : List (Option (ChainStore disk) × disk × Blockchain.Call))
    (transaction : Transaction) : Prop :=
  transaction ∈ start.mempool.getTransactions ∨
    exists request, request ∈ requests ∧ transaction ∈ request.2.2.transactions

/-- A transaction of the chain or of the pool. -/
def ConfirmedOrPending (chain : Blockchain) (txid : Str) : Prop :=
  (exists block transaction, block ∈ chain.blocks ∧ transaction ∈ block.transactions ∧
      transaction.txid = txid) ∨
    exists transaction, transaction ∈ chain.mempool.getTransactions ∧ transaction.txid = txid

theorem ConfirmedOrPending.settled {known : Transaction -> Prop} {chain : Blockchain}
    {txid : Str} (h : ConfirmedOrPending chain txid)
    (hsound : (Blockchain.live chain).Sound) :
    Blockchain.Settled known (Blockchain.live chain) txid := by
  rcases h with hconfirmed | ⟨transaction, hpending, htxid⟩
  · rcases hsound.valid with ⟨tip, hvalid⟩
    exact Or.inl ((hvalid.ledger.mem_seen_iff txid).mpr hconfirmed)
  · apply Or.inr
    apply Or.inl
    rw [hsound.coherent.keys_eq, ← htxid]
    exact List.mem_map_of_mem hpending

omit [Crypto] in
theorem admissible_of_brought {start : Blockchain}
    {requests : List (Option (ChainStore disk) × disk × Blockchain.Call)}
    (hkeeps : forall request, request ∈ requests -> request.2.2.removes = false)
    {request : Option (ChainStore disk) × disk × Blockchain.Call}
    (hrequest : request ∈ requests) :
    Blockchain.Admissible (Brought start requests) request :=
  ⟨hkeeps request hrequest,
    fun _ htransaction => Or.inr ⟨request, hrequest, htransaction⟩⟩

theorem admits_never_again {start : Blockchain}
    {requests : List (Option (ChainStore disk) × disk × Blockchain.Call)}
    (hstart : Constructed start)
    (hkeeps : forall request, request ∈ requests -> request.2.2.removes = false)
    (hfree : CollisionFreeOn (EncodingOf (Brought start requests)))
    {done later : List (Option (ChainStore disk) × disk × Blockchain.Call)}
    (hsplit : requests = done ++ later) {txid : Str}
    (hknown : ConfirmedOrPending ((Blockchain.lifetime disk).run done start) txid) :
    txid ∉ (Blockchain.lifetime disk).trace Blockchain.admits later
      ((Blockchain.lifetime disk).run done start) := by
  have hadmissible : forall request, request ∈ requests ->
      Blockchain.Admissible (Brought start requests) request :=
    fun request hrequest => admissible_of_brought hkeeps hrequest
  have htracked := Blockchain.lifetime_run_tracked hfree done start
    (fun request hrequest => hadmissible request (by
      rw [hsplit]
      exact List.mem_append_left _ hrequest))
    ⟨hstart.sound, fun _ h => Or.inl h⟩
  intro hadmitted
  refine (Blockchain.admits_once hfree ?_ htracked).right txid hadmitted
    (hknown.settled htracked.sound)
  intro request hrequest
  apply hadmissible
  rw [hsplit]
  exact List.mem_append_right _ hrequest

/-- A node with a run of its events, and one of its connections. -/
structure Relay (disk : Type) where
  store : Option (ChainStore disk)
  node : Node disk
  calls : List (Env × NodeEvent)
  connectionId : Str

/-- The gossip a relay hands to its connection. -/
def Relay.sent (relay : Relay disk) : List Payload :=
  Node.relayed relay.store relay.connectionId relay.calls relay.node

/-- The items of that gossip, in order. -/
def Relay.items (relay : Relay disk) : List Item :=
  relay.sent.filterMap (Payload.item relay.node.config.maxItemBytes)

/-- A relay starts with a chain from the constructor, and SHA-256 does not collide on
the transactions its node may hear of. -/
structure Relay.Regular (relay : Relay disk) : Prop where
  chain : Constructed relay.node.chain
  collisionFree : CollisionFreeOn (EncodingOf (Node.Heard relay.node relay.calls))

theorem Relay.Regular.items_nodup {relay : Relay disk} (h : relay.Regular) :
    (forall payload, payload ∈ relay.sent ->
        (payload.item relay.node.config.maxItemBytes).isSome = true) ∧ relay.items.Nodup :=
  Node.relayed_items h.chain.sound h.collisionFree relay.connectionId

omit [Crypto] in
theorem length_filterMap_of_isSome {alpha beta : Type} {f : alpha -> Option beta}
    {xs : List alpha} (h : forall x, x ∈ xs -> (f x).isSome = true) :
    (xs.filterMap f).length = xs.length := by
  induction xs with
  | nil => rfl
  | cons x rest ih =>
      rcases Option.isSome_iff_exists.mp (h x List.mem_cons_self) with ⟨y, hy⟩
      rw [List.filterMap_cons, hy]
      exact congrArg Nat.succ (ih (fun z hz => h z (List.mem_cons_of_mem x hz)))

theorem Relay.Regular.length_le {relay : Relay disk} (h : relay.Regular) {items : Finset Item}
    (hitems : forall item, item ∈ relay.items -> item ∈ items) :
    relay.sent.length ≤ items.card := by
  rcases h.items_nodup with ⟨hsome, hnodup⟩
  have hlength : relay.items.length = relay.sent.length := length_filterMap_of_isSome hsome
  rw [← hlength, ← List.toFinset_card_of_nodup hnodup]
  apply Finset.card_le_card
  intro item hitem
  exact hitems item (List.mem_toFinset.mp hitem)

/-- An instance admits a transaction once at most, and never one that was confirmed or
pending before; it appends a block of one hash once at most.  So a node passes each
item on once at most on each connection, and the gossip about finitely many items on
finitely many connections ends. -/
theorem admitted_and_relayed_once :
    (forall (start : Blockchain)
      (requests : List (Option (ChainStore disk) × disk × Blockchain.Call)),
      Constructed start ->
      (forall request, request ∈ requests -> request.2.2.removes = false) ->
      CollisionFreeOn (EncodingOf (Brought start requests)) ->
      ((Blockchain.lifetime disk).trace Blockchain.admits requests start).Nodup ∧
        ((Blockchain.lifetime disk).trace Blockchain.appends requests start).Nodup ∧
        forall done later, requests = done ++ later -> forall txid,
          ConfirmedOrPending ((Blockchain.lifetime disk).run done start) txid ->
          txid ∉ (Blockchain.lifetime disk).trace Blockchain.admits later
            ((Blockchain.lifetime disk).run done start)) ∧
      (forall relay : Relay disk, relay.Regular ->
        (forall payload, payload ∈ relay.sent ->
          (payload.item relay.node.config.maxItemBytes).isSome = true) ∧
        relay.items.Nodup) ∧
      forall (network : List (Relay disk)) (items : Finset Item),
        (forall relay, relay ∈ network -> relay.Regular ∧
          forall item, item ∈ relay.items -> item ∈ items) ->
        (network.map (fun relay => relay.sent.length)).sum ≤ network.length * items.card := by
  refine ⟨?_, fun relay hregular => hregular.items_nodup, ?_⟩
  · intro start requests hstart hkeeps hfree
    refine ⟨?_, (Blockchain.appends_once requests start).left, ?_⟩
    · exact (Blockchain.admits_once hfree
        (fun request hrequest => admissible_of_brought hkeeps hrequest)
        ⟨hstart.sound, fun _ h => Or.inl h⟩).left
    · intro done later hsplit txid hknown
      exact admits_never_again hstart hkeeps hfree hsplit hknown
  · intro network items hnetwork
    have hbound := List.sum_le_card_nsmul (network.map (fun relay => relay.sent.length))
      items.card (by
        intro length hlength
        rcases List.mem_map.mp hlength with ⟨relay, hrelay, heq⟩
        rcases hnetwork relay hrelay with ⟨hregular, hitems⟩
        rw [← heq]
        exact hregular.length_le hitems)
    rw [List.length_map] at hbound
    exact hbound

end Once

end Network

/-!
## The sample network

The transfer is offered again while it is pending and after it is confirmed, to an
instance of its own and to a node with one peer.
-/

namespace Sample

def offers : List (Option (ChainStore Unit) × Unit × Blockchain.Call) :=
  [(none, (), .addBlock first clock), (none, (), .submitTransaction transfer),
    (none, (), .submitTransaction transfer), (none, (), .addBlock second clock),
    (none, (), .submitTransaction transfer), (none, (), .addBlock second clock)]

theorem offers_answers :
    (@Blockchain.lifetime crypto Unit).trace (@Blockchain.admits crypto Unit) offers start =
        [transferTxid] ∧
      (@Blockchain.lifetime crypto Unit).trace (@Blockchain.appends crypto Unit) offers start =
        [@Block.hash crypto first, @Block.hash crypto second] := by
  decide +kernel

/-- The transactions that are offered, and their blocks' own. -/
def offered : List Transaction :=
  [coinbase, transfer, secondCoinbase]

theorem offered_collisionFree {known : Transaction -> Prop}
    (hknown : forall transaction, known transaction -> transaction ∈ offered) :
    @CollisionFreeOn crypto (EncodingOf known) := by
  have hall : forall x, x ∈ offered -> forall y, y ∈ offered ->
      crypto.sha256 x.encoding = crypto.sha256 y.encoding -> x = y := by
    decide +kernel
  rintro x y ⟨a, ha, hxa⟩ ⟨b, hb, hyb⟩ heq
  rw [hxa, hyb] at heq
  rw [hxa, hyb, hall a (hknown a ha) b (hknown b hb) heq]

theorem offers_collisionFree :
    @CollisionFreeOn crypto (EncodingOf (Network.Brought start offers)) := by
  apply offered_collisionFree
  rintro transaction (hpending | ⟨request, hrequest, htransaction⟩)
  · cases hpending
  · have hsubset : forall request, request ∈ offers ->
        request.2.2.transactions ⊆ offered := by
      simp [offers, offered, Blockchain.Call.transactions, first, second]
    exact hsubset request hrequest htransaction

/-- A peer introduces itself, and then a block and a payment are offered twice. -/
def relayCalls : List (Network.Env × Network.NodeEvent) :=
  (.acceptedSocket inboundEndpoint ::
    (arrives (tokenAt 0) (versionPacket (List.replicate 32 'c')) ++
      arrives (tokenAt 0) { payload := .verack, requestId := none } ++
      [.call (.block first), .dispatch false, .call (.submit transfer), .dispatch false,
        .call (.submit transfer), .dispatch false, .call (.block first), .dispatch false])).map
    (fun event => ({ now := 0, wallClock := 1788652920 }, event))

def relay : Network.Relay Unit :=
  { store := none, node := listening, calls := relayCalls, connectionId := tokenAt 0 }

/-- An event that brings nothing but what is offered. -/
def offersOnly : Network.NodeEvent -> Bool
  | .readBody _ body =>
      match Network.decodeReceived body threePeers.maxFrameBytes with
      | .ok { payload := .version _, requestId := _ } => true
      | .ok { payload := .verack, requestId := _ } => true
      | .ok _ => false
      | .error _ => true
  | .call (.submit transaction) => decide (transaction ∈ offered)
  | .call (.block block) =>
      block.transactions.all (fun transaction => decide (transaction ∈ offered))
  | _ => true

theorem relay_outcome :
    @Network.Relay.items crypto Unit relay =
        [.block (@Block.hash crypto first), .transaction transferTxid] ∧
      relayCalls.all (fun call => offersOnly call.2) = true := by
  decide +kernel

theorem relay_heard : forall transaction,
    @Network.Node.Heard Unit crypto relay.node relay.calls transaction ->
      transaction ∈ offered := by
  rintro transaction (hpool | ⟨item, hitem, _⟩ | ⟨call, hcall, kind, hqueues, hcarries⟩)
  · cases hpool
  · cases hitem
  have honly : offersOnly call.2 = true := List.all_eq_true.mp relay_outcome.right call hcall
  cases kind with
  | tick => exact hcarries.elim False.elim (fun ⟨_, hbrings, _⟩ => hbrings.elim)
  | remote id packet =>
      rcases hqueues with ⟨body, hevent, hreceived⟩
      change Network.decodeReceived body threePeers.maxFrameBytes = .ok packet at hreceived
      rw [hevent] at honly
      unfold offersOnly at honly
      dsimp only at honly
      rw [hreceived] at honly
      rcases packet with ⟨payload, requestId⟩
      cases payload with
      | version payload => exact hcarries.elim False.elim (fun ⟨_, hbrings, _⟩ => hbrings.elim)
      | verack => exact hcarries.elim False.elim (fun ⟨_, hbrings, _⟩ => hbrings.elim)
      | _ => cases honly
  | command command =>
      have hevent : call.2 = .call command := hqueues
      rw [hevent] at honly
      cases command with
      | submit submitted =>
          rcases hcarries with hsubmits | ⟨_, hbrings, _⟩
          · have heq : submitted = transaction := hsubmits
            exact heq ▸ of_decide_eq_true honly
          · exact hbrings.elim
      | block block =>
          rcases hcarries with hsubmits | ⟨brought, hbrings, hmem⟩
          · exact hsubmits.elim
          · have heq : block = brought := hbrings
            exact of_decide_eq_true (List.all_eq_true.mp honly transaction (heq ▸ hmem))
      | read query => exact hcarries.elim False.elim (fun ⟨_, hbrings, _⟩ => hbrings.elim)

theorem relay_regular : @Network.Relay.Regular crypto Unit relay :=
  @Network.Relay.Regular.mk crypto Unit relay
    (@Network.Constructed.ram crypto _ _ _ _ start_created) (offered_collisionFree relay_heard)

end Sample

/-- The transfer is not admitted again while it is pending and after it is confirmed, and
the peer hears of the block and of the transfer once. -/
theorem admitted_and_relayed_once_sample :
    ((@Blockchain.lifetime Sample.crypto Unit).trace (@Blockchain.admits Sample.crypto Unit)
        Sample.offers Sample.start) = [Sample.transferTxid] ∧
      ((@Blockchain.lifetime Sample.crypto Unit).trace (@Blockchain.admits Sample.crypto Unit)
        Sample.offers Sample.start).Nodup ∧
      ((@Blockchain.lifetime Sample.crypto Unit).trace (@Blockchain.appends Sample.crypto Unit)
        Sample.offers Sample.start).Nodup ∧
      @Network.Relay.items Sample.crypto Unit Sample.relay =
        [.block (@Block.hash Sample.crypto Sample.first), .transaction Sample.transferTxid] ∧
      (@Network.Relay.items Sample.crypto Unit Sample.relay).Nodup ∧
      (@Network.Relay.sent Sample.crypto Unit Sample.relay).length ≤ 2 := by
  rcases @Network.admitted_and_relayed_once Sample.crypto Unit with ⟨honce, hrelayed, hfinite⟩
  rcases honce Sample.start Sample.offers
    (@Network.Constructed.ram Sample.crypto _ _ _ _ Sample.start_created) (by decide)
    Sample.offers_collisionFree with ⟨hadmits, happends, _⟩
  have hitems := Sample.relay_outcome.left
  refine ⟨Sample.offers_answers.left, hadmits, happends, hitems,
    (hrelayed Sample.relay Sample.relay_regular).right, ?_⟩
  have hbound := hfinite [Sample.relay]
    {.block (@Block.hash Sample.crypto Sample.first), .transaction Sample.transferTxid} (by
      intro relay hrelay
      rw [List.mem_singleton.mp hrelay]
      refine ⟨Sample.relay_regular, ?_⟩
      intro item hitem
      rw [hitems] at hitem
      rcases List.mem_cons.mp hitem with hblock | htransaction
      · exact Finset.mem_insert.mpr (Or.inl hblock)
      · exact Finset.mem_insert_of_mem (Finset.mem_singleton.mpr
          (List.mem_singleton.mp htransaction)))
  rw [List.map_singleton, List.sum_singleton, List.length_singleton, Nat.one_mul] at hbound
  exact hbound.trans Finset.card_le_two

end PyChain
