import PyChain.Network.BlockDownload
import PyChain.Network.Gossip

/-!
# The ledger of a node only grows

Whatever peers, local callers and timers do, blocks are only put on top of the tip, one
by one, and each of them came with an event.  A batch of blocks counts only when it
answers a pending request whose anchor is still the tip.
-/

namespace PyChain

open Foundation

namespace Network

namespace Node

variable {disk : Type}

section Chain

variable [Crypto] {store : Option (ChainStore disk)} {node : Node disk}

/-- The blocks a node may hear of in a run. -/
def Delivered (node : Node disk) (calls : List (Env × NodeEvent)) (block : Block) : Prop :=
  (exists item, item ∈ node.events ∧ item.kind.Brings node.config.maxItemBytes block) ∨
    exists call, call ∈ calls ∧ exists kind, Queues call.2 node.config kind ∧
      kind.Brings node.config.maxItemBytes block

/-- One more block on top of the tip. -/
def Appends (delivered : Block -> Prop) (blocks next : List Block) : Prop :=
  exists block tip, delivered block ∧ blocks.getLast? = some tip ∧
    block.previousBlockHash = tip.hash ∧ next = blocks ++ [block]

/-- A valid chain that has grown block by block. -/
structure Grown (delivered : Block -> Prop) (node next : Node disk) : Prop where
  sound : (Blockchain.live next.chain).Sound
  blocks : Relation.ReflTransGen (Appends delivered) node.chain.blocks next.chain.blocks

variable {delivered : Block -> Prop} {kind : EventKind}

theorem Grown.refl (h : (Blockchain.live node.chain).Sound) : Grown delivered node node :=
  ⟨h, Relation.ReflTransGen.refl⟩

theorem Grown.trans {middle next : Node disk} (h : Grown delivered node middle)
    (h' : Grown delivered middle next) : Grown delivered node next :=
  ⟨h'.sound, h.blocks.trans h'.blocks⟩

theorem Grown.of_chain {next : Node disk} (h : (Blockchain.live node.chain).Sound)
    (hchain : next.chain = node.chain) : Grown delivered node next := by
  constructor
  · rw [hchain]
    exact h
  · rw [hchain]

theorem Act.grown {next : Node disk} (h : Act store kind node next)
    (hdelivered : forall block, kind.Brings node.config.maxItemBytes block -> delivered block)
    (hsound : (Blockchain.live node.chain).Sound) : Grown delivered node next := by
  cases h with
  | calm hcalm => exact Grown.of_chain hsound hcalm.right.left
  | @refused call _ hanswer =>
      rcases Blockchain.perform_answer store call node.chain node.disk with
        ⟨htrue, _⟩ | ⟨_, hsame⟩
      · exact absurd htrue hanswer
      · have hlive : Blockchain.live (node.called store call).chain =
            Blockchain.live node.chain := hsame
        have hblocks : (node.called store call).chain.blocks = node.chain.blocks :=
          congrArg Blockchain.Live.blocks hlive
        constructor
        · rw [hlive]
          exact hsound
        · rw [hblocks]
  | @accepted _ call hoffered htrue _ hchain _ =>
      rcases Blockchain.perform_answer store call node.chain node.disk with
        ⟨_, block, hprepares⟩ | ⟨hfalse, _⟩
      · have hnext : Blockchain.Prepares (Blockchain.live node.chain) call
            (Blockchain.live next.chain) block := by
          rw [hchain]
          exact hprepares
        refine ⟨hnext.sound hsound, ?_⟩
        have hblocks : next.chain.blocks = node.chain.blocks ++ block.toList := hnext.grows
        rw [hblocks]
        generalize Blockchain.live next.chain = live at hnext
        cases hoffered with
        | submit _ =>
            cases hnext with
            | submitTransaction _ =>
                rw [Option.toList_none, List.append_nil]
        | block _ hbrings =>
            cases hnext with
            | addBlock htip _ hlinked _ _ _ =>
                exact Relation.ReflTransGen.single
                  ⟨_, _, hdelivered _ hbrings, htip, hlinked.previousHash, rfl⟩
      · exact absurd htrue hfalse

theorem acts_grown {next : Node disk} (h : Relation.ReflTransGen (Act store kind) node next)
    (hdelivered : forall block, kind.Brings node.config.maxItemBytes block -> delivered block)
    (hsound : (Blockchain.live node.chain).Sound) : Grown delivered node next := by
  induction h with
  | refl => exact Grown.refl hsound
  | @tail middle last hacts hlast ih =>
      refine ih.trans (hlast.grown ?_ ih.sound)
      rw [(moves_steady (acts_moves hacts)).config]
      exact hdelivered

theorem Happens.grown {event : NodeEvent} {next : Node disk}
    (h : Happens store event node next)
    (hdelivered : forall item rest, node.events = item :: rest -> forall block,
      item.kind.Brings node.config.maxItemBytes block -> delivered block)
    (hsound : (Blockchain.live node.chain).Sound) :
    next.config = node.config ∧ Grown delivered node next := by
  cases h with
  | turned hturns =>
      have hframed := turns_framed hturns
      exact ⟨hframed.config, Grown.of_chain hsound hframed.chain⟩
  | @dispatched cancelled item rest before after hevent hevents hturns _ hacts hturns' _ =>
      have hframed := turns_framed hturns
      have hframed' := turns_framed hturns'
      have hbefore : Grown delivered node before := Grown.of_chain hsound hframed.chain
      have hacted : Grown delivered before after := by
        apply acts_grown hacts _ hbefore.sound
        rw [hframed.config]
        exact hdelivered item rest hevents
      refine ⟨?_, (hbefore.trans hacted).trans (Grown.of_chain hacted.sound hframed'.chain)⟩
      rw [hframed'.config, (moves_steady (acts_moves hacts)).config, hframed.config]

/-- A node on its way from another one. -/
structure Underway (delivered : Block -> Prop) (start node : Node disk) : Prop where
  configured : node.config = start.config
  grown : Grown delivered start node
  waiting : forall item, item ∈ node.events -> forall block,
    item.kind.Brings start.config.maxItemBytes block -> delivered block

variable (store) in
theorem run_underway {start : Node disk} (hsound : (Blockchain.live start.chain).Sound)
    (calls : List (Env × NodeEvent)) {done later : List (Env × NodeEvent)}
    (hcalls : calls = done ++ later) :
    Underway (Delivered start calls) start ((machine store).run done start) := by
  refine (machine store).run_invariant_along (fun call => call ∈ calls) (fun _ => True)
    (Underway (Delivered start calls) start) ?_ done start ?_ (fun _ _ _ => trivial) ?_
  · intro call node hcall _ hunderway
    have hhappens : Happens store call.2 node ((machine store).step call node).2 :=
      machine_happens call node
    have hfirst : forall item rest, node.events = item :: rest -> forall block,
        item.kind.Brings node.config.maxItemBytes block -> Delivered start calls block := by
      intro item rest hevents
      rw [hunderway.configured]
      apply hunderway.waiting item
      rw [hevents]
      exact List.mem_cons_self
    rcases hhappens.grown hfirst hunderway.grown.sound with ⟨hconfig, hgrown⟩
    refine ⟨hconfig.trans hunderway.configured, hunderway.grown.trans hgrown, ?_⟩
    intro item hitem block hbrings
    rcases hhappens.waiting hitem with hold | hnew
    · exact hunderway.waiting item hold block hbrings
    · rw [hunderway.configured] at hnew
      exact Or.inr ⟨call, hcall, item.kind, hnew, hbrings⟩
  · intro call hcall
    rw [hcalls]
    exact List.mem_append_left _ hcall
  · exact ⟨rfl, Grown.refl hsound, fun item hitem block hbrings =>
      Or.inl ⟨item, hitem, hbrings⟩⟩

theorem Appends.prefix_of {blocks next : List Block}
    (h : Relation.ReflTransGen (Appends delivered) blocks next) : blocks <+: next := by
  induction h with
  | refl => exact List.prefix_rfl
  | tail _ hlast ih =>
      rcases hlast with ⟨block, _, _, _, _, heq⟩
      rw [heq]
      exact ih.trans (List.prefix_append _ _)

/-!
## Batches
-/

/-- A batch that answers a pending request of an open session, from the tip it asked
from. -/
def Requested (node : Node disk) (id : Str) (requestId : Option Str)
    (payload : BlocksPayload) : Prop :=
  exists session token expected deadline, node.sessions.get? id = some session ∧
    session.live = true ∧ requestId = some token ∧
    session.pending.get? token =
      some { request := .getBlocks expected, deadline := deadline } ∧
    payload.anchorHeight = expected.anchorHeight ∧
    payload.anchorHash = expected.anchorHash ∧
    TipIs node.chain expected.anchorHeight expected.anchorHash ∧
    batchConsistent expected.anchorHeight expected.limit payload = true

/-- A run that leaves the chain alone. -/
def Idle {alpha : Type} (act : NodeM disk alpha) (node : Node disk) : Prop :=
  Leads Any act node (fun _ next => next.chain = node.chain)
    (fun _ next => next.chain = node.chain)

omit [Crypto] in
theorem idle_throw {alpha : Type} (e : PyError) : Idle (throw e : NodeM disk alpha) node :=
  leads_throw rfl

theorem idle_of_calm {alpha : Type} {act : NodeM disk alpha} {input : EventKind}
    {post : alpha -> Node disk -> Prop} {raised : PyError -> Node disk -> Prop}
    (h : Leads (Calm store input) act node post raised) : Idle act node := by
  unfold Leads at h
  cases hrun : act node with
  | ok a next =>
      rw [hrun] at h
      exact leads_of_ok hrun (any_step _ _) (calm_chain h.left)
  | error e next =>
      rw [hrun] at h
      exact leads_of_error hrun (any_step _ _) (calm_chain h.left)

variable {id : Str} {requestId : Option Str} {payload : BlocksPayload} {known : Session}

theorem receiveBlocks_idle {env : Env} {expected : GetBlocksPayload}
    (hknown : node.sessions.get? id = some known)
    (hunfit : ¬ (payload.anchorHeight = expected.anchorHeight ∧
      payload.anchorHash = expected.anchorHash ∧
      TipIs node.chain expected.anchorHeight expected.anchorHash ∧
      batchConsistent expected.anchorHeight expected.limit payload = true)) :
    Idle (receiveBlocks store env id expected payload) node := by
  unfold Idle receiveBlocks
  refine leads_modify_bind (any_step _ _) ?_
  have hsession : ({ node with sync := { node.sync with source := none } } :
      Node disk).sessions.get? id = some known := hknown
  refine leads_modifySession_bind hsession (any_step _ _) ?_
  apply leads_ite
  · intro _
    exact leads_throw rfl
  intro hanchor
  rcases not_or.mp hanchor with ⟨hheight, hhash⟩
  refine leads_tip_bind ?_ (fun _ _ => rfl)
  intro height tipHash htip
  apply leads_ite
  · intro _
    exact leads_pure rfl
  intro hcurrent
  rcases Prod.mk.inj (not_not.mp hcurrent) with ⟨hsame, hsame'⟩
  apply leads_ite
  · intro _
    exact leads_throw rfl
  · intro hconsistent
    refine absurd ⟨not_not.mp hheight, not_not.mp hhash, ?_, ?_⟩ hunfit
    · rw [← hsame, ← hsame']
      exact htip
    · rw [← hsame]
      simpa using hconsistent

omit [Crypto] in
theorem correlate_answer (env : Env) (id token : Str) (kind : MessageType) {known : Session}
    (hknown : node.sessions.get? id = some known) :
    Leads Any (correlate env id token kind) node
      (fun answer next => next.chain = node.chain ∧
        (exists session, next.sessions.get? id = some session) ∧
        forall request, answer = some request -> exists deadline,
          known.pending.get? token = some { request := request, deadline := deadline })
      (fun _ next => next.chain = node.chain) := by
  unfold correlate
  apply leads_session_bind hknown
  split
  · apply leads_ite
    · intro _
      exact leads_pure ⟨rfl, ⟨known, hknown⟩, (fun _ h => by cases h)⟩
    · intro _
      exact leads_throw rfl
  · rename_i pending hpending
    refine leads_modifySession_bind hknown (any_step _ _) ?_
    have hself : (node.replace id
        { known with pending := known.pending.erase token }).sessions.get? id = some
        { known with pending := known.pending.erase token } := get?_replace_self hknown
    refine leads_modifySession_bind hself (any_step _ _) ?_
    apply leads_ite
    · intro _
      exact leads_throw rfl
    · intro _
      refine leads_pure ⟨rfl, ⟨_, get?_replace_self hself⟩, ?_⟩
      intro request hrequest
      cases hrequest
      exact ⟨pending.deadline, hpending⟩

theorem remote_idle {env : Env} (hknown : node.sessions.get? id = some known)
    (hopen : known.peer.closed = false) (hunasked : ¬ Requested node id requestId payload) :
    Idle (remote store env id { payload := .blocks payload, requestId := requestId }) node := by
  unfold Idle remote
  refine leads_modify_bind (any_step _ _) ?_
  generalize hcounted : ({ node with counters := _ } : Node disk) = counted
  have hchain : counted.chain = node.chain := by rw [← hcounted]
  have hsession : counted.sessions.get? id = some known := by
    rw [← hcounted]
    exact hknown
  have hweak : forall {alpha : Type} {act : NodeM disk alpha}, Idle act counted ->
      Leads Any act counted (fun _ next => next.chain = node.chain)
        (fun _ next => next.chain = node.chain) :=
    fun h => h.weaken (fun _ _ _ h => h.trans hchain) (fun _ _ _ h => h.trans hchain)
  apply leads_session_bind hsession
  apply leads_ite
  · intro hfresh
    have hcalm : Leads (Calm store (.remote id { payload := .blocks payload,
                                                 requestId := requestId }))
        (handshake env id (.blocks payload)) counted _ Rejected :=
      handshake_leads hsession hfresh rfl
    exact hweak (idle_of_calm hcalm)
  intro hestablished
  cases requestId with
  | none => exact hweak (idle_throw _)
  | some token =>
      refine leads_bind ((correlate_answer env id token .blocks hsession).weaken
        (fun _ _ _ h => h) (fun _ _ _ h => h.trans hchain)) ?_
      rintro answer correlated _ ⟨hsame, ⟨session, hcorrelated⟩, hpending⟩
      have hchain' : correlated.chain = node.chain := hsame.trans hchain
      cases answer with
      | none => exact leads_pure hchain'
      | some request =>
          rcases hpending request rfl with ⟨deadline, hpending'⟩
          have hidle : Idle (receiveResponse store env id request (.blocks payload))
              correlated := by
            unfold receiveResponse
            cases request with
            | getBlocks expected =>
                apply receiveBlocks_idle hcorrelated
                rintro ⟨hheight, hhash, htip, hconsistent⟩
                rw [hchain'] at htip
                refine hunasked ⟨known, token, expected, deadline, hknown, ?_, rfl, hpending',
                  hheight, hhash, htip, hconsistent⟩
                have hestablished' : known.peer.established = true := by simpa using hestablished
                unfold Session.live
                rw [hopen, hestablished']
                rfl
            | _ => exact idle_throw _
          exact hidle.weaken (fun _ _ _ h => h.trans hchain') (fun _ _ _ h => h.trans hchain')

theorem handleRemote_idle {env : Env} (hunasked : ¬ Requested node id requestId payload) :
    Idle (handleRemote store env id { payload := .blocks payload, requestId := requestId })
      node := by
  unfold Idle handleRemote
  apply leads_get_bind
  split
  · exact leads_pure rfl
  rename_i known hknown
  apply leads_ite
  · intro _
    exact leads_pure rfl
  intro hclosed
  refine leads_tryCatch (remote_idle hknown (by simpa using hclosed) hunasked) ?_
  intro e later _ hlater
  apply leads_ite
  · intro _
    exact leads_modify_bind (any_step _ _) (leads_modify (any_step _ _) hlater)
  · intro _
    exact leads_throw hlater

theorem dispatch_batch_idle {env : Env} {cancelled : Bool} {size : Nat} {rest : List Event}
    (hevents : node.events =
      { kind := .remote id { payload := .blocks payload, requestId := requestId }
        size := size } :: rest)
    (hunasked : ¬ Requested node id requestId payload) :
    (finalState (dispatch store env cancelled) node).chain = node.chain := by
  unfold dispatch
  rw [finalState_get_bind]
  by_cases hrunning : node.lifecycle ≠ .running
  · rw [if_pos hrunning]
    rfl
  rw [if_neg hrunning, hevents]
  simp only
  rw [finalState_set_bind]
  have hsettle : forall {answer : NodeM disk Answer} {before last : Node disk},
      finalState answer before = last -> last.chain = node.chain ->
        (finalState (do
          let answer <- tryCatch answer (fun e => do
            fatal e
            return some (.error e))
          release size
          return answer) before).chain = node.chain := by
    intro answer before last hlast hchain
    rcases settle_turns (.dispatch cancelled) size rfl hlast with ⟨hturns, _⟩
    exact (turns_framed hturns).chain.trans hchain
  have hreaping : Leads (Turn (.dispatch cancelled)) (reapPeers env)
      ({ node with events := rest } : Node disk) (fun _ node' => Thinned node node')
        (fun _ node' => Thinned node node') := reapPeers_leads
  cases hreap : reapPeers env ({ node with events := rest } : Node disk) with
  | error e reaped =>
      rcases hreaping.of_error hreap with ⟨hturns, _⟩
      exact hsettle (finalState_of_error (run_bind_error hreap _)) (turns_framed hturns).chain
  | ok _ reaped =>
      rcases hreaping.of_ok hreap with ⟨hturns, hthin⟩
      have hchain : reaped.chain = node.chain := (turns_framed hturns).chain
      refine hsettle (finalState_bind_ok hreap _) ?_
      cases cancelled with
      | true => exact hchain
      | false =>
          have hunasked' : ¬ Requested reaped id requestId payload := by
            rintro ⟨session, token, expected, deadline, hsession, hlive, htoken, hpending,
              hheight, hhash, htip, hconsistent⟩
            rw [hchain] at htip
            exact hunasked ⟨session, token, expected, deadline, hthin id session hsession, hlive,
              htoken, hpending, hheight, hhash, htip, hconsistent⟩
          have hidle : Idle (handleEvent store env
              (.remote id { payload := .blocks payload, requestId := requestId })) reaped :=
            leads_bind (handleRemote_idle hunasked') (fun _ _ _ h => leads_pure h)
          exact (hidle.ends).right.trans hchain

theorem run_dispatch (env : Env) (cancelled : Bool) (node : Node disk) :
    (machine store).run [(env, .dispatch cancelled)] node =
      finalState (dispatch store env cancelled) node := by
  change ((machine store).step (env, .dispatch cancelled) node).2 = _
  unfold machine finalState handle
  simp only
  cases dispatch store env cancelled node with
  | ok _ _ => rfl
  | error _ _ => rfl

/-!
## Runs
-/

variable (store) in
/-- In every run the blocks at any moment begin the blocks at every later one.  What is
added came with an event and was put on top of the tip, block by block; a replay that is
late enough gives back the state the node holds. -/
theorem ledger_grows {start : Node disk} (hstart : Constructed start.chain)
    (done later : List (Env × NodeEvent)) :
    ((machine store).run done start).chain.blocks <+:
        ((machine store).run (done ++ later) start).chain.blocks ∧
      Relation.ReflTransGen (Appends (Delivered start (done ++ later))) start.chain.blocks
        ((machine store).run (done ++ later) start).chain.blocks ∧
      forall (clock : Clock) (now : Int), resolveCurrentTime clock = .ok now ->
        (forall block, block ∈ ((machine store).run (done ++ later) start).chain.blocks ->
          block.timestamp ≤ now + MAX_FUTURE_BLOCK_TIME) ->
        rebuildChainState ((machine store).run (done ++ later) start).chain.blocks clock =
          .ok (some ((machine store).run (done ++ later) start).chain.state) := by
  have hmiddle := run_underway store hstart.sound (done ++ later) rfl
  have hlast := run_underway store hstart.sound (done ++ later) (List.append_nil _).symm
  have hrest := run_underway store hmiddle.grown.sound later (List.append_nil _).symm
  rw [← Machine.run_append] at hrest
  refine ⟨Appends.prefix_of hrest.grown.blocks, hlast.grown.blocks, ?_⟩
  intro clock now hnow htimely
  rcases hlast.grown.sound.valid with ⟨tip, hvalid⟩
  rw [rebuildChainState_eq_ok_some_iff]
  refine ⟨now, tip, hnow, hvalid, ?_⟩
  intro block hblock
  exact htimely block (List.mem_of_mem_tail hblock)

variable (store) in
/-- Whatever the run so far, the next message of the dispatcher changes the chain by a
batch only if the batch answers a pending request of its session, from the anchor that
was asked for, which is still the tip; then only blocks of the batch are added. -/
theorem batch_answers_request {start : Node disk} (hstart : Constructed start.chain)
    (done : List (Env × NodeEvent)) (env : Env) (cancelled : Bool) {size : Nat}
    {rest : List Event}
    (hevents : ((machine store).run done start).events =
      { kind := .remote id { payload := .blocks payload, requestId := requestId }
        size := size } :: rest) :
    ((machine store).run (done ++ [(env, .dispatch cancelled)]) start).chain =
        ((machine store).run done start).chain ∨
      Requested ((machine store).run done start) id requestId payload ∧
        Relation.ReflTransGen
          (Appends (Payload.Brings ((machine store).run done start).config.maxItemBytes
            (.blocks payload)))
          ((machine store).run done start).chain.blocks
          ((machine store).run (done ++ [(env, .dispatch cancelled)]) start).chain.blocks := by
  have hsound := (run_underway store hstart.sound done (List.append_nil _).symm).grown.sound
  rw [Machine.run_append]
  generalize (machine store).run done start = node at hevents hsound ⊢
  have hhappens : Happens store (.dispatch cancelled) node
      ((machine store).run [(env, .dispatch cancelled)] node) :=
    machine_happens (env, .dispatch cancelled) node
  by_cases hrequested : Requested node id requestId payload
  · refine Or.inr ⟨hrequested, (hhappens.grown ?_ hsound).right.blocks⟩
    intro item later hlater block hbrings
    rw [hevents] at hlater
    cases hlater
    exact hbrings
  · apply Or.inl
    rw [run_dispatch]
    exact dispatch_batch_idle hevents hrequested

end Chain

end Node

end Network

/-!
# A batch arrives

The peer that was asked for blocks answers with one.
-/

namespace Sample

open Network

def batchPayload : BlocksPayload :=
  { anchorHeight := 0
    anchorHash := GENESIS_HASH
    tipHeight := 5
    tipHash := List.replicate 64 'd'
    blocks := (@packBlock crypto first threePeers.maxItemBytes).toOption.toList
    more := true }

def batchPacket : Packet :=
  { payload := .blocks batchPayload, requestId := some (tokenAt 5) }

def batchEnv : Env :=
  { now := 0, wallClock := 1788652920 }

def batchCalls : List (Env × NodeEvent) :=
  downloadCalls ++
    [.readPrefix (tokenAt 1) 0 0 (UInt8.ofNat (batchPacket.body.length / 256))
        (UInt8.ofNat (batchPacket.body.length % 256)),
      .readBody (tokenAt 1) batchPacket.body].map
        (fun event => (batchEnv, event))

/-- One message waits for the dispatcher. -/
def onlyWaits (id : Str) (packet : Packet) (size : Nat) : List Event -> Bool
  | [{ kind := .remote other waiting, size := reserved }] =>
      decide (other = id ∧ waiting = packet ∧ reserved = size)
  | _ => false

theorem eq_of_onlyWaits {id : Str} {packet : Packet} {size : Nat} {events : List Event}
    (h : onlyWaits id packet size events = true) :
    events = [{ kind := .remote id packet, size := size }] := by
  unfold onlyWaits at h
  split at h
  · rcases of_decide_eq_true h with ⟨rfl, rfl, rfl⟩
    rfl
  · cases h

theorem batch_outcome :
    onlyWaits (tokenAt 1) batchPacket 859
        ((@Node.machine crypto Unit none).run batchCalls listening).events = true ∧
      ((@Node.machine crypto Unit none).run batchCalls listening).chain.blocks = [genesis] ∧
      ((@Node.machine crypto Unit none).run (batchCalls ++ [(batchEnv, .dispatch false)])
        listening).chain.blocks = [genesis, first] := by
  decide +kernel

theorem listening_constructed : @Constructed crypto listening.chain :=
  @Constructed.ram crypto _ _ _ _ start_created

end Sample

namespace Network

namespace Node

theorem ledger_grows_batch :
    ((@machine Sample.crypto Unit none).run (Sample.batchCalls ++ [(Sample.batchEnv, .dispatch false)])
        Sample.listening).chain.blocks = [Sample.genesis, Sample.first] ∧
      Relation.ReflTransGen
        (@Appends Sample.crypto
          (@Delivered Unit Sample.crypto Sample.listening
            (Sample.batchCalls ++ [(Sample.batchEnv, .dispatch false)])))
        [Sample.genesis] [Sample.genesis, Sample.first] := by
  have hgrows := @ledger_grows Unit Sample.crypto none Sample.listening
    Sample.listening_constructed Sample.batchCalls [(Sample.batchEnv, .dispatch false)]
  rcases hgrows with ⟨_, hgrows, _⟩
  rcases Sample.batch_outcome with ⟨_, _, hblocks⟩
  rw [hblocks] at hgrows
  exact ⟨hblocks, hgrows⟩

theorem batch_answers_request_batch :
    @Requested Unit Sample.crypto
      ((@machine Sample.crypto Unit none).run Sample.batchCalls Sample.listening)
      (Sample.tokenAt 1) (some (Sample.tokenAt 5)) Sample.batchPayload := by
  rcases Sample.batch_outcome with ⟨hwaits, hbefore, hblocks⟩
  rcases @batch_answers_request Unit Sample.crypto none (Sample.tokenAt 1)
    (some (Sample.tokenAt 5)) Sample.batchPayload Sample.listening
    Sample.listening_constructed Sample.batchCalls Sample.batchEnv false _ _
    (Sample.eq_of_onlyWaits hwaits) with hsame | ⟨hrequested, _⟩
  · have hblocks' := congrArg Blockchain.blocks hsame
    rw [hbefore] at hblocks'
    exact absurd (congrArg List.length (hblocks.symm.trans hblocks')) (by simp)
  · exact hrequested

end Node

end Network

end PyChain
