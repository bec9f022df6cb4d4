import PyChain.Blockchain.Validation
import PyChain.Foundation.Machine
import PyChain.Transaction.Mempool

/-!
# The blockchain object

The owner of the chain, the ledger state and the pending pool.  A mutating call
prepares its replacements first; without a store they are published directly,
with a store they are published after the store has committed them.  The store
is a parameter: any operations on any type of disks.
-/

namespace PyChain

open Foundation

structure StoredChain where
  blocks : List Block
  state : ChainState
  mempool : Mempool
  revision : Int

/-- The height, tip and revision a writer believes to be current. -/
structure Expected where
  height : Int
  tipHash : Str
  revision : Int
deriving DecidableEq, Repr

/-- The operations the blockchain object needs from its store. -/
structure ChainStore (disk : Type) where
  loadOrInitialize : Clock -> Option Int -> Option Int -> disk ->
    Except PyError StoredChain × disk
  appendBlock : Block -> ChainState -> Mempool -> Expected -> disk ->
    Except PyError Int × disk
  replaceMempool : Mempool -> Expected -> disk -> Except PyError Int × disk
  close : disk -> Except PyError Unit × disk

structure Blockchain where
  blocks : List Block
  state : ChainState
  mempool : Mempool
  revision : Int
  closed : Bool
  storageFailed : Bool
deriving DecidableEq

namespace Blockchain

section Operations

variable [Crypto] {disk : Type} (store : Option (ChainStore disk))

omit [Crypto] in
def ensureUsable (chain : Blockchain) : Except PyError Unit :=
  if chain.closed then
    .error (.storageError .closed "Blockchain is closed; open a new instance")
  else if chain.storageFailed then
    .error (.storageError .plain
      "Storage operation failed; close and reopen the blockchain")
  else .ok ()

omit [Crypto] in
def checkCurrentTime (clock : Clock) : Except PyError Unit :=
  match clock.currentTime with
  | none => .ok ()
  | some now =>
      require (0 ≤ now) (PyError.valueError "current_time must be a non-negative integer")

/-- The part of the constructor before any store is opened. -/
def initial (clock : Clock) (mempoolMaxTransactions mempoolMaxBytes : Option Int) :
    Except PyError Blockchain := do
  checkCurrentTime clock
  let genesis <- createGenesisBlock
  let mempool <- Mempool.create (some ChainState.empty.utxoSet)
    (some ChainState.empty.seenTxids)
    (mempoolMaxTransactions.getD DEFAULT_MEMPOOL_MAX_TRANSACTIONS)
    (mempoolMaxBytes.getD DEFAULT_MEMPOOL_MAX_BYTES)
  return {
    blocks := [genesis]
    state := ChainState.empty
    mempool := mempool
    revision := 0
    closed := false
    storageFailed := false }

/-- A new instance over a store, or without one. -/
def create (clock : Clock) (mempoolMaxTransactions mempoolMaxBytes : Option Int)
    (d : disk) : Except PyError Blockchain × disk :=
  match initial clock mempoolMaxTransactions mempoolMaxBytes with
  | .error e => (.error e, d)
  | .ok chain =>
      match store with
      | none => (.ok chain, d)
      | some store =>
          match store.loadOrInitialize clock mempoolMaxTransactions mempoolMaxBytes d with
          | (.error e, d') => (.error e, (store.close d').2)
          | (.ok recovered, d') =>
              (.ok
                { chain with
                  blocks := recovered.blocks
                  state := recovered.state
                  mempool := recovered.mempool
                  revision := recovered.revision }, d')

/-- What a failed commit raises: storage errors and interrupts as they are,
everything else as an uncertain commit. -/
def commitError : PyError -> PyError
  | .storageError kind message => .storageError kind message
  | .keyboardInterrupt => .keyboardInterrupt
  | _ =>
      .storageError .commitUncertain
        "Persistent transition interrupted; close and reopen to recover"

/-- Persist a prepared transition, then publish it. -/
def commit (chain : Blockchain) (blocks : List Block) (state : ChainState)
    (mempool : Mempool) (block : Option Block) (d : disk) :
    Except PyError Unit × Blockchain × disk :=
  match store with
  | none =>
      (.ok (), { chain with blocks := blocks, state := state, mempool := mempool }, d)
  | some store =>
      match chain.blocks.getLast? with
      | none =>
          (.error (commitError (.indexError "list index out of range")),
            { chain with storageFailed := true }, d)
      | some tip =>
          let expected : Expected :=
            { height := (chain.blocks.length : Int) - 1
              tipHash := tip.hash
              revision := chain.revision }
          let outcome :=
            match block with
            | none => store.replaceMempool mempool expected d
            | some block => store.appendBlock block state mempool expected d
          match outcome with
          | (.ok revision, d') =>
              (.ok (),
                { chain with
                  blocks := blocks
                  state := state
                  mempool := mempool
                  revision := revision }, d')
          | (.error e, d') =>
              (.error (commitError e), { chain with storageFailed := true }, d')

def commitTrue (chain : Blockchain) (blocks : List Block) (state : ChainState)
    (mempool : Mempool) (block : Option Block) (d : disk) :
    Except PyError Bool × Blockchain × disk :=
  match commit store chain blocks state mempool block d with
  | (.error e, chain', d') => (.error e, chain', d')
  | (.ok _, chain', d') => (.ok true, chain', d')

def submitTransaction (chain : Blockchain) (transaction : Transaction) (d : disk) :
    Except PyError Bool × Blockchain × disk :=
  match ensureUsable chain with
  | .error e => (.error e, chain, d)
  | .ok _ =>
      match store with
      | none =>
          let added := chain.mempool.addTransaction transaction
          (.ok added.1, { chain with mempool := added.2 }, d)
      | some _ =>
          let added := chain.mempool.copy.addTransaction transaction
          if added.1 = false then (.ok false, chain, d)
          else commitTrue store chain chain.blocks chain.state added.2 none d

def removePendingTransaction (chain : Blockchain) (txid : Str) (d : disk) :
    Except PyError Bool × Blockchain × disk :=
  match ensureUsable chain with
  | .error e => (.error e, chain, d)
  | .ok _ =>
      match store with
      | none =>
          let removed := chain.mempool.removeTransaction txid
          (.ok removed.1, { chain with mempool := removed.2 }, d)
      | some _ =>
          let removed := chain.mempool.copy.removeTransaction txid
          if removed.1 = false then (.ok false, chain, d)
          else commitTrue store chain chain.blocks chain.state removed.2 none d

def addBlock (chain : Blockchain) (block : Block) (clock : Clock) (d : disk) :
    Except PyError Bool × Blockchain × disk :=
  match ensureUsable chain with
  | .error e => (.error e, chain, d)
  | .ok _ =>
      match chain.blocks.getLast? with
      | none => (.error (.indexError "list index out of range"), chain, d)
      | some tip =>
          match validateAndApplyBlock block tip chain.state clock with
          | .error e => (.error e, chain, d)
          | .ok none => (.ok false, chain, d)
          | .ok (some nextState) =>
              if chain.blocks.any (fun existing => existing.hash = block.hash) = true then
                (.ok false, chain, d)
              else
                commitTrue store chain (chain.blocks ++ [block]) nextState
                  (chain.mempool.revalidated nextState.utxoSet nextState.seenTxids)
                  (some block) d

/-- The cached state against a full replay. -/
def validateChain (chain : Blockchain) (clock : Clock) : Except PyError Bool := do
  ensureUsable chain
  match <- rebuildChainState chain.blocks clock with
  | none => return false
  | some rebuilt =>
      return decide (rebuilt.seenTxids = chain.state.seenTxids) &&
        rebuilt.utxoSet.sameMap chain.state.utxoSet

omit [Crypto] in
def height (chain : Blockchain) : Except PyError Int := do
  ensureUsable chain
  return (chain.blocks.length : Int) - 1

omit [Crypto] in
def getBalance (chain : Blockchain) (address : Str) : Except PyError Int := do
  ensureUsable chain
  return chain.state.utxoSet.getBalance address

omit [Crypto] in
def getLatestBlock (chain : Blockchain) : Except PyError Block := do
  ensureUsable chain
  match chain.blocks.getLast? with
  | none => .error (.indexError "list index out of range")
  | some block => return block

omit [Crypto] in
def getBlockByHeight (chain : Blockchain) (height : Nat) : Except PyError (Option Block) := do
  ensureUsable chain
  return chain.blocks[height]?

def getBlockByHash (chain : Blockchain) (blockHash : Str) : Except PyError (Option Block) := do
  ensureUsable chain
  return chain.blocks.find? (fun block => block.hash = blockHash)

omit [Crypto] in
/-- Count and signed bytes of the pool. -/
def getMempoolStats (chain : Blockchain) : Except PyError (Nat × Nat) := do
  ensureUsable chain
  return (chain.mempool.size, chain.mempool.totalBytes)

def close (chain : Blockchain) (d : disk) : Except PyError Unit × Blockchain × disk :=
  match store with
  | none => (.ok (), chain, d)
  | some store =>
      if chain.closed then (.ok (), chain, d)
      else
        let outcome := store.close d
        (outcome.1, { chain with closed := true }, outcome.2)

/-!
## Calls
-/

inductive Call where
  | addBlock (block : Block) (clock : Clock)
  | submitTransaction (transaction : Transaction)
  | removePendingTransaction (txid : Str)

def perform (call : Call) (chain : Blockchain) (d : disk) :
    Except PyError Bool × Blockchain × disk :=
  match call with
  | .addBlock block clock => addBlock store chain block clock d
  | .submitTransaction transaction => submitTransaction store chain transaction d
  | .removePendingTransaction txid => removePendingTransaction store chain txid d

def ram : Machine Blockchain Call (Except PyError Bool) where
  step call chain :=
    let outcome := perform (none : Option (ChainStore Unit)) call chain ()
    (outcome.1, outcome.2.1)

end Operations

/-!
## What a call prepares

Each call either rejects, leaving everything as it was, or prepares exactly one
transition and hands it to the commit.
-/

section Transitions

variable [Crypto]

/-- The live references of an instance that is usable. -/
structure Live where
  blocks : List Block
  state : ChainState
  mempool : Mempool

def live (chain : Blockchain) : Live :=
  { blocks := chain.blocks, state := chain.state, mempool := chain.mempool }

/-- The transition a call prepares from the live references, with the block it
appends, if any. -/
inductive Prepares : Live -> Call -> Live -> Option Block -> Prop where
  | addBlock {before : Live} {block tip : Block} {clock : Clock} {now : Int}
      {nextState : ChainState} :
      before.blocks.getLast? = some tip ->
      resolveCurrentTime clock = .ok now ->
      Linked block tip -> block.timestamp ≤ now + MAX_FUTURE_BLOCK_TIME ->
      applyBlockTransactions block before.state = some nextState ->
      (forall other, other ∈ before.blocks -> other.hash ≠ block.hash) ->
      Prepares before (.addBlock block clock)
        { blocks := before.blocks ++ [block]
          state := nextState
          mempool :=
            before.mempool.revalidated nextState.utxoSet nextState.seenTxids }
        (some block)
  | submitTransaction {before : Live} {transaction : Transaction} {mempool : Mempool} :
      before.mempool.addTransaction transaction = (true, mempool) ->
      Prepares before (.submitTransaction transaction)
        { before with mempool := mempool } none
  | removePendingTransaction {before : Live} {txid : Str} {mempool : Mempool} :
      before.mempool.removeTransaction txid = (true, mempool) ->
      Prepares before (.removePendingTransaction txid)
        { before with mempool := mempool } none

variable {disk : Type} (store : Option (ChainStore disk))

omit [Crypto] in
theorem ensureUsable_eq_ok_iff (chain : Blockchain) :
    ensureUsable chain = .ok () <-> chain.closed = false ∧ chain.storageFailed = false := by
  unfold ensureUsable
  cases chain.closed with
  | true => simp
  | false =>
      cases chain.storageFailed with
      | true => simp
      | false => simp

theorem resolveCurrentTime_of_validate {block tip : Block} {state : ChainState}
    {clock : Clock} {answer : Option ChainState}
    (h : validateAndApplyBlock block tip state clock = .ok answer) :
    exists now, resolveCurrentTime clock = .ok now := by
  unfold validateAndApplyBlock validateBlockHeader at h
  rcases bind_eq_ok_iff.mp h with ⟨_, hheader, _⟩
  rcases bind_eq_ok_iff.mp hheader with ⟨now, hnow, _⟩
  exact ⟨now, hnow⟩

/-- What a call on a usable instance hands to the commit: nothing when it raises
or answers false. -/
def prepare (refs : Live) (call : Call) : Except PyError (Option (Live × Option Block)) :=
  match call with
  | .addBlock block clock =>
      match refs.blocks.getLast? with
      | none => .error (.indexError "list index out of range")
      | some tip =>
          match validateAndApplyBlock block tip refs.state clock with
          | .error e => .error e
          | .ok none => .ok none
          | .ok (some nextState) =>
              if refs.blocks.any (fun existing => existing.hash = block.hash) = true then
                .ok none
              else
                .ok (some
                  ({ blocks := refs.blocks ++ [block]
                     state := nextState
                     mempool :=
                      refs.mempool.revalidated nextState.utxoSet nextState.seenTxids },
                    some block))
  | .submitTransaction transaction =>
      match refs.mempool.addTransaction transaction with
      | (true, mempool) => .ok (some ({ refs with mempool := mempool }, none))
      | (false, _) => .ok none
  | .removePendingTransaction txid =>
      match refs.mempool.removeTransaction txid with
      | (true, mempool) => .ok (some ({ refs with mempool := mempool }, none))
      | (false, _) => .ok none

theorem prepare_prepares {refs after : Live} {call : Call} {block : Option Block}
    (h : prepare refs call = .ok (some (after, block))) :
    Prepares refs call after block := by
  cases call with
  | addBlock candidate clock =>
      unfold prepare at h
      cases htip : refs.blocks.getLast? with
      | none =>
          rw [htip] at h
          cases h
      | some tip =>
          simp only [htip] at h
          cases hvalidate : validateAndApplyBlock candidate tip refs.state clock with
          | error e =>
              rw [hvalidate] at h
              cases h
          | ok answer =>
              rw [hvalidate] at h
              cases answer with
              | none => cases h
              | some nextState =>
                  simp only at h
                  split at h
                  · cases h
                  · rename_i hfresh
                    cases h
                    rcases resolveCurrentTime_of_validate hvalidate with ⟨now, hnow⟩
                    rcases (validateAndApplyBlock_eq_ok_some_iff _ _ _ _ hnow).mp
                      hvalidate with ⟨hlinked, htimely, happly⟩
                    refine Prepares.addBlock htip hnow hlinked htimely happly ?_
                    intro other hother heq
                    apply hfresh
                    exact List.any_eq_true.mpr ⟨other, hother, by simpa using heq⟩
  | submitTransaction transaction =>
      unfold prepare at h
      rcases Mempool.addTransaction_cases refs.mempool transaction with
        hsame | ⟨fee, next, heq, _⟩
      · simp only [hsame] at h
        cases h
      · simp only [heq] at h
        cases h
        exact Prepares.submitTransaction heq
  | removePendingTransaction txid =>
      unfold prepare at h
      rcases Mempool.removeTransaction_cases refs.mempool txid with hsame | ⟨_, heq⟩
      · simp only [hsame] at h
        cases h
      · simp only [heq] at h
        cases h
        exact Prepares.removePendingTransaction heq

theorem perform_eq (call : Call) (chain : Blockchain) (d : disk)
    (husable : ensureUsable chain = .ok ()) :
    perform store call chain d =
      match prepare (live chain) call with
      | .error e => (.error e, chain, d)
      | .ok none => (.ok false, chain, d)
      | .ok (some (next, block)) =>
          commitTrue store chain next.blocks next.state next.mempool block d := by
  cases call with
  | addBlock block clock =>
      cases htip : chain.blocks.getLast? with
      | none =>
          have htip' : (live chain).blocks.getLast? = none := htip
          simp only [perform, addBlock, husable, prepare, htip, htip']
      | some tip =>
          have htip' : (live chain).blocks.getLast? = some tip := htip
          simp only [perform, addBlock, husable, prepare, htip, htip']
          cases hvalidate : validateAndApplyBlock block tip chain.state clock with
          | error e =>
              have hvalidate' : validateAndApplyBlock block tip (live chain).state clock =
                .error e := hvalidate
              rw [hvalidate']
          | ok next =>
              have hvalidate' : validateAndApplyBlock block tip (live chain).state clock =
                .ok next := hvalidate
              rw [hvalidate']
              cases next with
              | none => rfl
              | some nextState =>
                  by_cases hseen : chain.blocks.any
                      (fun existing => existing.hash = block.hash) = true
                  · have hseen' : (live chain).blocks.any
                      (fun existing => existing.hash = block.hash) = true := hseen
                    simp only [if_pos hseen, if_pos hseen']
                  · have hseen' : ¬ (live chain).blocks.any
                      (fun existing => existing.hash = block.hash) = true := hseen
                    simp only [if_neg hseen, if_neg hseen']
                    rfl
  | submitTransaction transaction =>
      simp only [perform, submitTransaction, husable, prepare, live]
      have hcopy : chain.mempool.copy.addTransaction transaction =
          chain.mempool.addTransaction transaction := rfl
      rcases Mempool.addTransaction_cases chain.mempool transaction with
        hsame | ⟨fee, next, heq, _⟩
      · rw [hsame] at hcopy
        cases store with
        | none => simp only [hsame]
        | some store => simp only [hcopy, hsame, if_true]
      · rw [heq] at hcopy
        cases store with
        | none =>
            simp only [heq]
            rfl
        | some store => simp only [hcopy, heq, Bool.true_eq_false, if_false]
  | removePendingTransaction txid =>
      simp only [perform, removePendingTransaction, husable, prepare, live]
      have hcopy : chain.mempool.copy.removeTransaction txid =
          chain.mempool.removeTransaction txid := rfl
      rcases Mempool.removeTransaction_cases chain.mempool txid with hsame | ⟨_, heq⟩
      · rw [hsame] at hcopy
        cases store with
        | none => simp only [hsame]
        | some store => simp only [hcopy, hsame, if_true]
      · rw [heq] at hcopy
        cases store with
        | none =>
            simp only [heq]
            rfl
        | some store => simp only [hcopy, heq, Bool.true_eq_false, if_false]

theorem perform_unusable (call : Call) (chain : Blockchain) (d : disk) {e : PyError}
    (h : ensureUsable chain = .error e) :
    perform store call chain d = (.error e, chain, d) := by
  cases call with
  | addBlock block clock => simp [perform, addBlock, h]
  | submitTransaction transaction => simp [perform, submitTransaction, h]
  | removePendingTransaction txid => simp [perform, removePendingTransaction, h]

theorem perform_cases (call : Call) (chain : Blockchain) (d : disk) :
    ((exists answer, answer ≠ .ok true ∧
        perform store call chain d = (answer, chain, d)) ∨
      (ensureUsable chain = .ok () ∧ exists next block,
        Prepares (live chain) call next block ∧
          perform store call chain d =
            commitTrue store chain next.blocks next.state next.mempool block d)) := by
  cases husable : ensureUsable chain with
  | error e => exact Or.inl ⟨.error e, by simp, perform_unusable store call chain d husable⟩
  | ok answer =>
      rw [perform_eq store call chain d husable]
      cases hprepare : prepare (live chain) call with
      | error e => exact Or.inl ⟨.error e, by simp, rfl⟩
      | ok prepared =>
          cases prepared with
          | none => exact Or.inl ⟨.ok false, by simp, rfl⟩
          | some transition =>
              exact Or.inr ⟨rfl, transition.1, transition.2,
                prepare_prepares hprepare, rfl⟩

theorem commitTrue_answer (chain : Blockchain) (next : Live) (block : Option Block) (d : disk) :
    ((commitTrue store chain next.blocks next.state next.mempool block d).1 = .ok true ∧
        live (commitTrue store chain next.blocks next.state next.mempool block d).2.1 = next) ∨
      (exists e,
        (commitTrue store chain next.blocks next.state next.mempool block d).1 = .error e) ∧
        live (commitTrue store chain next.blocks next.state next.mempool block d).2.1 =
          live chain := by
  unfold commitTrue commit
  cases store with
  | none => exact Or.inl ⟨rfl, rfl⟩
  | some store =>
      cases chain.blocks.getLast? with
      | none => exact Or.inr ⟨⟨_, rfl⟩, rfl⟩
      | some tip =>
          simp only
          generalize (match block with
            | none => store.replaceMempool next.mempool _ d
            | some block => store.appendBlock block next.state next.mempool _ d) = outcome
          rcases outcome with ⟨answer, d'⟩
          cases answer with
          | ok revision => exact Or.inl ⟨rfl, rfl⟩
          | error e => exact Or.inr ⟨⟨_, rfl⟩, rfl⟩

theorem commitTrue_raises {chain : Blockchain} {next : Live} {block : Option Block} {d : disk}
    {e : PyError}
    (h : (commitTrue store chain next.blocks next.state next.mempool block d).1 = .error e) :
    (commitTrue store chain next.blocks next.state next.mempool block d).2.1.storageFailed =
      true := by
  unfold commitTrue commit at h ⊢
  cases store with
  | none => cases h
  | some store =>
      cases hlast : chain.blocks.getLast? with
      | none => rfl
      | some tip =>
          simp only [hlast] at h ⊢
          generalize (match block with
            | none => store.replaceMempool next.mempool _ d
            | some block => store.appendBlock block next.state next.mempool _ d) = outcome
            at h ⊢
          rcases outcome with ⟨answer, d'⟩
          cases answer with
          | ok revision => cases h
          | error e' => rfl

theorem commitTrue_usable {chain : Blockchain} {next : Live} {block : Option Block} {d : disk}
    (husable : ensureUsable chain = .ok ())
    (h : (commitTrue store chain next.blocks next.state next.mempool block d).1 = .ok true) :
    ensureUsable (commitTrue store chain next.blocks next.state next.mempool block d).2.1 =
      .ok () := by
  unfold commitTrue commit at h ⊢
  cases store with
  | none => exact husable
  | some store =>
      cases hlast : chain.blocks.getLast? with
      | none =>
          simp only [hlast] at h
          cases h
      | some tip =>
          simp only [hlast] at h ⊢
          generalize (match block with
            | none => store.replaceMempool next.mempool _ d
            | some block => store.appendBlock block next.state next.mempool _ d) = outcome
            at h ⊢
          rcases outcome with ⟨answer, d'⟩
          cases answer with
          | ok revision => exact husable
          | error e => cases h

/-- A call answers true exactly when it publishes the transition it prepared;
otherwise the references stay as they were. -/
theorem perform_answer (call : Call) (chain : Blockchain) (d : disk) :
    ((perform store call chain d).1 = .ok true ∧ exists block,
        Prepares (live chain) call (live (perform store call chain d).2.1) block) ∨
      ((perform store call chain d).1 ≠ .ok true ∧
        live (perform store call chain d).2.1 = live chain) := by
  rcases perform_cases store call chain d with
    ⟨answer, hanswer, heq⟩ | ⟨_, next, block, hprepares, heq⟩
  · rw [heq]
    exact Or.inr ⟨hanswer, rfl⟩
  · rw [heq]
    rcases commitTrue_answer store chain next block d with ⟨htrue, hnext⟩ | ⟨⟨e, he⟩, hsame⟩
    · rw [hnext]
      exact Or.inl ⟨htrue, block, hprepares⟩
    · refine Or.inr ⟨?_, hsame⟩
      rw [he]
      intro h
      cases h

theorem perform_live (call : Call) (chain : Blockchain) (d : disk) :
    live (perform store call chain d).2.1 = live chain ∨
      exists block, Prepares (live chain) call (live (perform store call chain d).2.1)
        block := by
  rcases perform_answer store call chain d with ⟨_, hprepares⟩ | ⟨_, hsame⟩
  · exact Or.inr hprepares
  · exact Or.inl hsame

theorem ram_step_eq (call : Call) (chain : Blockchain)
    (husable : ensureUsable chain = .ok ()) :
    ram.step call chain =
      match prepare (live chain) call with
      | .error e => (.error e, chain)
      | .ok none => (.ok false, chain)
      | .ok (some (next, _)) =>
          (.ok true,
            { chain with
              blocks := next.blocks
              state := next.state
              mempool := next.mempool }) := by
  unfold ram
  simp only [perform_eq _ call chain () husable]
  cases prepare (live chain) call with
  | error e => rfl
  | ok prepared =>
      cases prepared with
      | none => rfl
      | some transition => rfl

theorem ram_step_cases (call : Call) (chain : Blockchain) :
    (exists answer, answer ≠ .ok true ∧ ram.step call chain = (answer, chain)) ∨
      (exists next block, Prepares (live chain) call next block ∧
        ram.step call chain =
          (.ok true,
            { chain with
              blocks := next.blocks
              state := next.state
              mempool := next.mempool })) := by
  rcases perform_cases (none : Option (ChainStore Unit)) call chain () with
    ⟨answer, hanswer, heq⟩ | ⟨_, next, block, hprepares, heq⟩
  · apply Or.inl
    refine ⟨answer, hanswer, ?_⟩
    unfold ram
    simp only [heq]
  · apply Or.inr
    refine ⟨next, block, hprepares, ?_⟩
    unfold ram
    simp only [heq]
    rfl

end Transitions

end Blockchain

end PyChain
