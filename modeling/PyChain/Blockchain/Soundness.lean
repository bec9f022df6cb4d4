import PyChain.Blockchain.Blockchain

/-!
# Incremental state and replay

Every instance reached without a store holds a valid chain, its exact ledger
state and a coherent pool over that state.  Full replay therefore reproduces
the cached state.
-/

namespace PyChain

open Foundation

namespace Blockchain

section Soundness

variable [Crypto]

structure Live.Sound (refs : Live) : Prop where
  valid : exists tip, ValidChain refs.blocks tip refs.state
  coherent : refs.mempool.Coherent
  utxoSet : refs.mempool.confirmedUtxos = refs.state.utxoSet
  seenTxids : refs.mempool.seenTxids = refs.state.seenTxids

theorem Live.Sound.valid_tip {refs : Live} (h : refs.Sound) {tip : Block}
    (htip : refs.blocks.getLast? = some tip) : ValidChain refs.blocks tip refs.state := by
  rcases h.valid with ⟨last, hvalid⟩
  have hlast := hvalid.getLast?
  rw [htip] at hlast
  rw [Option.some.inj hlast]
  exact hvalid

theorem Prepares.sound {before after : Live} {call : Call} {block : Option Block}
    (h : Prepares before call after block) (hsound : before.Sound) : after.Sound := by
  cases h with
  | @addBlock block tip clock now nextState htip _ hlinked _ happly hfresh =>
      have hvalid := hsound.valid_tip htip
      rcases Mempool.revalidated_sameBase before.mempool nextState.utxoSet
        nextState.seenTxids with ⟨_, hutxos, hseen⟩
      constructor
      · exact ⟨block, ValidChain.extend hvalid hlinked happly hfresh⟩
      · exact Mempool.revalidated_coherent _ _ _
      · exact hutxos
      · exact hseen
  | @submitTransaction transaction mempool hadd =>
      have hcoherent := Mempool.addTransaction_coherent hsound.coherent transaction
      rcases Mempool.addTransaction_sameBase before.mempool transaction with
        ⟨_, hutxos, hseen⟩
      rw [hadd] at hcoherent hutxos hseen
      exact ⟨hsound.valid, hcoherent, hutxos.trans hsound.utxoSet,
        hseen.trans hsound.seenTxids⟩
  | @removePendingTransaction txid mempool hremove =>
      have hcoherent := Mempool.removeTransaction_coherent hsound.coherent txid
      rcases Mempool.removeTransaction_sameBase before.mempool txid with
        ⟨_, hutxos, hseen⟩
      rw [hremove] at hcoherent hutxos hseen
      exact ⟨hsound.valid, hcoherent, hutxos.trans hsound.utxoSet,
        hseen.trans hsound.seenTxids⟩

theorem Prepares.grows {before after : Live} {call : Call} {block : Option Block}
    (h : Prepares before call after block) :
    after.blocks = before.blocks ++ block.toList := by
  cases h with
  | addBlock _ _ _ _ _ _ => rfl
  | submitTransaction _ => exact (List.append_nil _).symm
  | removePendingTransaction _ => exact (List.append_nil _).symm

/-- Instances without a store that a run of calls reaches from a new one. -/
def Reachable (chain : Blockchain) : Prop :=
  exists (clock : Clock) (maxTransactions maxBytes : Option Int) (start : Blockchain)
    (calls : List Call),
    (create (none : Option (ChainStore Unit)) clock maxTransactions maxBytes ()).1 =
        .ok start ∧
      ram.run calls start = chain

theorem genesis_valid {genesis : Block} (h : createGenesisBlock = .ok genesis) :
    ValidChain [genesis] genesis ChainState.empty := by
  apply ValidChain.genesis
  · rw [validateBlockStructure_iff]
    rcases (createGenesisBlock_eq_ok_iff genesis).mp h with ⟨hblock, _⟩
    subst hblock
    constructor
    · rfl
    · show 0 ≤ GENESIS_TIMESTAMP
      decide
    · show isValidDifficulty GENESIS_DIFFICULTY = true
      decide
    · show isValidNonce GENESIS_NONCE = true
      decide
    · show isHash GENESIS_PREVIOUS_HASH = true
      decide
    · exact List.nodup_nil
    · rfl
  · exact createGenesisBlock_isGenesis h

theorem create_ram {clock : Clock} {maxTransactions maxBytes : Option Int}
    {start : Blockchain}
    (h : (create (none : Option (ChainStore Unit)) clock maxTransactions maxBytes ()).1 =
      .ok start) :
    (live start).Sound ∧ ensureUsable start = .ok () ∧ start.revision = 0 := by
  unfold create at h
  cases hinitial : initial clock maxTransactions maxBytes with
  | error e =>
      rw [hinitial] at h
      cases h
  | ok chain =>
      rw [hinitial] at h
      have heq : chain = start := Except.ok.inj h
      subst heq
      unfold initial at hinitial
      simp only [bind_eq_ok_iff] at hinitial
      rcases hinitial with ⟨_, _, genesis, hgenesis, mempool, hmempool, hchain⟩
      rcases Mempool.create_fresh hmempool with ⟨limits, hlimits⟩
      subst hlimits
      have hchain' := Except.ok.inj hchain
      subst hchain'
      exact ⟨⟨⟨genesis, genesis_valid hgenesis⟩, Mempool.fresh_coherent _ _ _, rfl, rfl⟩,
        rfl, rfl⟩

theorem ram_step_sound (call : Call) (chain : Blockchain)
    (h : (live chain).Sound ∧ ensureUsable chain = .ok ()) :
    (live (ram.step call chain).2).Sound ∧
      ensureUsable (ram.step call chain).2 = .ok () := by
  rcases ram_step_cases call chain with
    ⟨answer, _, heq⟩ | ⟨next, block, hprepares, heq⟩
  · rw [heq]
    exact h
  · rw [heq]
    exact ⟨hprepares.sound h.left, h.right⟩

theorem reachable_sound {chain : Blockchain} (h : Reachable chain) :
    (live chain).Sound ∧ ensureUsable chain = .ok () := by
  rcases h with ⟨clock, maxTransactions, maxBytes, start, calls, hcreate, hrun⟩
  rw [← hrun]
  rcases create_ram hcreate with ⟨hsound, husable, _⟩
  exact ram.run_invariant ram_step_sound calls start ⟨hsound, husable⟩

theorem validateChain_of_sound {chain : Blockchain} {clock : Clock}
    (husable : ensureUsable chain = .ok ())
    (hrebuild : rebuildChainState chain.blocks clock = .ok (some chain.state)) :
    chain.validateChain clock = .ok true := by
  have hsame : chain.state.utxoSet.sameMap chain.state.utxoSet = true :=
    (Dict.sameMap_iff _ _).mpr (fun _ => rfl)
  unfold validateChain
  rw [husable, hrebuild]
  change Except.ok (decide (chain.state.seenTxids = chain.state.seenTxids) &&
    chain.state.utxoSet.sameMap chain.state.utxoSet) = Except.ok true
  rw [hsame, decide_eq_true rfl]
  rfl

theorem reachable_rebuild {chain : Blockchain} (h : Reachable chain) {clock : Clock}
    {now : Int} (hnow : resolveCurrentTime clock = .ok now)
    (htimely : forall block, block ∈ chain.blocks ->
      block.timestamp ≤ now + MAX_FUTURE_BLOCK_TIME) :
    rebuildChainState chain.blocks clock = .ok (some chain.state) := by
  rcases (reachable_sound h).left.valid with ⟨tip, hvalid⟩
  rw [rebuildChainState_eq_ok_some_iff]
  refine ⟨now, tip, hnow, hvalid, ?_⟩
  intro block hblock
  exact htimely block (List.mem_of_mem_tail hblock)

/-- Replay gives back the cached state, and a call that does not answer true leaves the
instance as it was. -/
theorem reachable_replay {chain : Blockchain} (h : Reachable chain) :
    (forall (clock : Clock) (now : Int), resolveCurrentTime clock = .ok now ->
      (forall block, block ∈ chain.blocks ->
        block.timestamp ≤ now + MAX_FUTURE_BLOCK_TIME) ->
      rebuildChainState chain.blocks clock = .ok (some chain.state) ∧
        chain.validateChain clock = .ok true) ∧
      (forall call, (ram.step call chain).1 ≠ .ok true ->
        (ram.step call chain).2 = chain) := by
  constructor
  · intro clock now hnow htimely
    have hrebuild := reachable_rebuild h hnow htimely
    exact ⟨hrebuild, validateChain_of_sound (reachable_sound h).right hrebuild⟩
  · intro call hrejected
    rcases ram_step_cases call chain with ⟨answer, _, heq⟩ | ⟨next, block, _, heq⟩
    · rw [heq]
    · rw [heq] at hrejected
      exact absurd rfl hrejected

end Soundness

end Blockchain

/-!
## The sample chain

The two blocks of the sample network, with the transfer submitted in between.
-/

namespace Sample

def clock : Clock :=
  Clock.at_ 1788652920

def start : Blockchain :=
  { blocks := [genesis]
    state := ChainState.empty
    mempool := Mempool.fresh limits Dict.empty ∅
    revision := 0
    closed := false
    storageFailed := false }

def firstCalls : List Blockchain.Call :=
  [.addBlock first clock, .submitTransaction transfer]

def secondCalls : List Blockchain.Call :=
  [.addBlock first clock, .submitTransaction transfer, .addBlock second clock]

/-- The instance that is about to receive the second block. -/
def waiting : Blockchain :=
  (@Blockchain.ram crypto).run firstCalls start

def chain : Blockchain :=
  (@Blockchain.ram crypto).run secondCalls start

theorem start_created :
    (@Blockchain.create crypto Unit none clock none none ()).1 = .ok start := by
  have hinitial : @Blockchain.initial crypto clock none none = .ok start := by
    unfold Blockchain.initial
    rw [createGenesisBlock_sample]
    rfl
  unfold Blockchain.create
  rw [hinitial]

theorem waiting_reachable : @Blockchain.Reachable crypto waiting :=
  ⟨clock, none, none, start, firstCalls, start_created, rfl⟩

theorem chain_reachable : @Blockchain.Reachable crypto chain :=
  ⟨clock, none, none, start, secondCalls, start_created, rfl⟩

def familyClock : Clock :=
  Clock.at_ 1788652980

theorem start_created_family :
    (@Blockchain.create familyCrypto Unit none familyClock none none ()).1 = .ok start := by
  have hgenesis : @createGenesisBlock familyCrypto = .ok genesis := by
    decide +kernel
  have hinitial : @Blockchain.initial familyCrypto familyClock none none = .ok start := by
    unfold Blockchain.initial
    rw [hgenesis]
    rfl
  unfold Blockchain.create
  rw [hinitial]

theorem second_accepted :
    ((@Blockchain.ram crypto).step (.addBlock second clock) waiting).1 = .ok true ∧
      chain.blocks = [genesis, first, second] := by
  decide +kernel

theorem waiting_funded :
    waiting.state.utxoSet.get? (coinbaseTxid, 0) = some ⟨50, address⟩ := by
  decide +kernel

end Sample

theorem Blockchain.reachable_replay_sample :
    Sample.chain.blocks.length = 3 ∧
      @rebuildChainState Sample.crypto Sample.chain.blocks Sample.clock =
        .ok (some Sample.chain.state) ∧
      @Blockchain.validateChain Sample.crypto Sample.chain Sample.clock = .ok true := by
  rcases Sample.second_accepted with ⟨_, hblocks⟩
  have hreplay := (@Blockchain.reachable_replay Sample.crypto _ Sample.chain_reachable).left
    Sample.clock 1788652920 rfl (by
      rw [hblocks]
      decide)
  refine ⟨?_, hreplay⟩
  rw [hblocks]
  rfl

end PyChain
