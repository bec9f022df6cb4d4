import PyChain.Blockchain.Commitment
import PyChain.Storage.Loading

/-!
# Persistence refines the chain in memory

A session is a sequence of calls on one instance, with closing and reopening in
between.  As long as its numbers fit into the columns, a session over a database
file answers like the same calls on an instance without a store and holds the
same chain, state and pool; its revision counts the calls that answered true.
-/

namespace PyChain

open Foundation
open ChainStore
open Blockchain (Prepares Live)

/-!
## Opening
-/

section Opening

variable [Crypto]

omit [Crypto] in
theorem checkArguments_ok {clock : Clock} {now : Int} {maxTransactions maxBytes : Option Int}
    (hnow : resolveCurrentTime clock = .ok now)
    (hcount : maxTransactions.all (fun n => 0 < n) = true)
    (hbytes : maxBytes.all (fun n => 0 < n) = true) :
    SQLiteChainStore.checkArguments clock maxTransactions maxBytes = .ok now := by
  unfold SQLiteChainStore.checkArguments SQLiteChainStore.checkLimit
  simp only [bind_eq_ok_iff, require_eq_ok_iff]
  unfold resolveCurrentTime at hnow
  cases htime : clock.currentTime with
  | none =>
      rw [htime] at hnow
      exact ⟨(), hcount, (), hbytes, (), rfl, hnow⟩
  | some time =>
      rw [htime] at hnow
      rcases bind_eq_ok_iff.mp hnow with ⟨_, hpos, heq⟩
      have hpos' := require_eq_ok_iff.mp hpos
      exact ⟨(), hcount, (), hbytes, (), by simpa using hpos', heq⟩

/-- A chain with the genesis block alone. -/
def genesisChain (genesis : Block) (limits : MempoolLimits) : StoredChain :=
  { blocks := [genesis]
    state := ChainState.empty
    mempool := Mempool.fresh limits ChainState.empty.utxoSet ChainState.empty.seenTxids
    revision := 0 }

def initialized (genesis : Block) (limits : MempoolLimits) : Database :=
  { Database.new with
    blocks := [blockRow 0 genesis]
    metadata := [metadataColumns (genesisChain genesis limits).metadata] }

theorem genesisChain_sound {genesis : Block} (h : createGenesisBlock = .ok genesis)
    (limits : MempoolLimits) : (genesisChain genesis limits).live.Sound :=
  ⟨⟨genesis, Blockchain.genesis_valid h⟩, Mempool.fresh_coherent _ _ _, rfl, rfl⟩

theorem represents_initialized {genesis : Block} (h : createGenesisBlock = .ok genesis)
    (limits : MempoolLimits) :
    Represents (initialized genesis limits) (genesisChain genesis limits) where
  schema := rfl
  pages := rfl
  blocks := rfl
  caches := by
    refine ⟨⟨[], rfl, List.nodup_nil, rfl⟩, ⟨[], rfl, List.Perm.refl _⟩, ?_, ?_⟩
    · intro txid hmem
      cases hmem
    · intro item hmem
      cases hmem
  mempool := rfl
  metadata := rfl
  sound := genesisChain_sound h limits
  revision := Int.le_refl 0

theorem initialRows_ok {genesis : Block} (h : createGenesisBlock = .ok genesis)
    (limits : MempoolLimits) :
    SQLiteChainStore.initialRows limits.maxTransactions limits.maxBytes =
      .ok (blockRow 0 genesis, metadataColumns (genesisChain genesis limits).metadata) := by
  have hhash := ((isGenesisBlock_iff genesis).mp (createGenesisBlock_isGenesis h)).right
  have hmetadata : (genesisChain genesis limits).metadata =
      ⟨0, GENESIS_HASH, 0, limits.maxTransactions, limits.maxBytes, txidsDigest []⟩ := by
    rw [← hhash]
    rfl
  unfold SQLiteChainStore.initialRows
  simp only [bind_eq_ok_iff, encodeBlockRow_eq_ok_iff, metadataRow_eq_ok_iff]
  refine ⟨genesis, h, _, ⟨rfl, by decide, ?_⟩, _, ⟨rfl, by decide, ?_,
    limits.maxTransactions_pos, limits.maxBytes_pos⟩, ?_⟩
  · exact (Blockchain.genesis_valid h).storable genesis List.mem_cons_self
  · exact ⟨by decide, sha256Hex_isHash _⟩
  · rw [hmetadata]
    rfl

theorem initialTables_ok {genesis : Block} (h : createGenesisBlock = .ok genesis)
    (limits : MempoolLimits) :
    (do
      let db <- Database.new.insertBlock (blockRow 0 genesis)
      let db <- db.insertMetadata (metadataColumns (genesisChain genesis limits).metadata)
      return ((), DatabaseFile.present db)) =
        Except.ok ((), DatabaseFile.present (initialized genesis limits)) := by
  have hrepresents := represents_initialized h limits
  simp only [bind_eq_ok_iff, insertBlock_eq_ok_iff (rfl :
    blocksSchema.consistent Database.new.blocks = true)]
  refine ⟨_, ⟨rfl, blockRow_binds (by decide) (by decide), hrepresents.blocks_consistent⟩,
    initialized genesis limits, ?_, rfl⟩
  unfold Database.insertMetadata
  simp only [bind_eq_ok_iff, require_eq_ok_iff]
  refine ⟨[metadataColumns (genesisChain genesis limits).metadata], ?_, (), ?_, rfl⟩
  · apply (metadataSchema.insertRow_eq_ok_iff rfl).mpr
    exact ⟨rfl, by rfl, hrepresents.metadata_consistent⟩
  · exact hrepresents.tipReferenced

theorem initialize_none {genesis : Block} (h : createGenesisBlock = .ok genesis)
    (limits : MempoolLimits) (file : DatabaseFile) :
    SQLiteChainStore.initialize_ .none limits.maxTransactions limits.maxBytes file =
      (.ok (), .present (initialized genesis limits)) :=
  prepared_none_ok (initialRows_ok h limits) (initialTables_ok h limits)

theorem initialize_cases (fault : Fault) (maxTransactions maxBytes : Int)
    (file : DatabaseFile) :
    (exists e, SQLiteChainStore.initialize_ fault maxTransactions maxBytes file =
        (.error e, file)) ∨
      exists genesis limits, createGenesisBlock = .ok genesis ∧
        (SQLiteChainStore.initialize_ fault maxTransactions maxBytes file).2 =
          .present (initialized genesis limits) := by
  rcases prepared_cases fault (SQLiteChainStore.initialRows maxTransactions maxBytes)
      (fun rows (_ : DatabaseFile) => do
        let db <- Database.new.insertBlock rows.1
        let db <- db.insertMetadata rows.2
        return ((), .present db)) file with
    herror | ⟨rows, answer, next, hrows, htables, houtcome⟩
  · exact Or.inl herror
  · apply Or.inr
    have hrows' := hrows
    unfold SQLiteChainStore.initialRows at hrows'
    simp only [bind_eq_ok_iff, metadataRow_eq_ok_iff] at hrows'
    rcases hrows' with ⟨genesis, hgenesis, _, _, _, ⟨_, _, _, hcount, hbytes⟩, _⟩
    have hknown := initialRows_ok hgenesis ⟨maxTransactions, maxBytes, hcount, hbytes⟩
    rw [hrows] at hknown
    rw [Except.ok.inj hknown, initialTables_ok hgenesis] at htables
    cases htables
    refine ⟨genesis, ⟨maxTransactions, maxBytes, hcount, hbytes⟩, hgenesis, ?_⟩
    rcases houtcome with ⟨_, heq⟩ | ⟨e, heq⟩
    · exact congrArg Prod.snd heq
    · exact congrArg Prod.snd heq

omit [Crypto] in
theorem all_pos_iff (value : Option Int) :
    value.all (fun n => 0 < n) = true <-> forall n, value = some n -> 1 ≤ n := by
  cases value with
  | none => simp
  | some n =>
      simp only [Option.all_some, decide_eq_true_eq, Option.some.injEq, forall_eq']
      omega

omit [Crypto] in
/-- Limits that are absent or positive. -/
def resolveLimits (maxTransactions maxBytes : Option Int)
    (hcount : maxTransactions.all (fun n => 0 < n) = true)
    (hbytes : maxBytes.all (fun n => 0 < n) = true) : MempoolLimits where
  maxTransactions := maxTransactions.getD DEFAULT_MEMPOOL_MAX_TRANSACTIONS
  maxBytes := maxBytes.getD DEFAULT_MEMPOOL_MAX_BYTES
  maxTransactions_pos := by
    cases maxTransactions with
    | none => decide
    | some n => exact (all_pos_iff _).mp hcount n rfl
  maxBytes_pos := by
    cases maxBytes with
    | none => decide
    | some n => exact (all_pos_iff _).mp hbytes n rfl

theorem load_present {db : Database} {stored : StoredChain} {clock : Clock} {now : Int}
    {maxTransactions maxBytes : Option Int}
    (harguments : SQLiteChainStore.checkArguments clock maxTransactions maxBytes = .ok now)
    (h : Represents db stored) (htimely : TimelyAt now stored.blocks)
    (hlimits : MatchesLimits maxTransactions maxBytes stored.mempool.limits) :
    SQLiteChainStore.loadOrInitialize Faults.none clock maxTransactions maxBytes
        (SQLiteChainStore.unopened (.present db)) =
      (.ok stored, SQLiteChainStore.opened db) := by
  have hnow := (SQLiteChainStore.checkArguments_resolve harguments).right
  have hread := readStored_complete hnow h htimely hlimits
  have hopen := SQLiteChainStore.openAndRead_none now maxTransactions maxBytes db false
  rw [hread] at hopen
  unfold SQLiteChainStore.loadOrInitialize SQLiteChainStore.unopened
  simp only [harguments, hopen]
  rfl

theorem load_absent {genesis : Block} (hgenesis : createGenesisBlock = .ok genesis)
    {clock : Clock} {now : Int} {maxTransactions maxBytes : Option Int}
    (hnow : resolveCurrentTime clock = .ok now)
    (hcount : maxTransactions.all (fun n => 0 < n) = true)
    (hbytes : maxBytes.all (fun n => 0 < n) = true) :
    SQLiteChainStore.loadOrInitialize Faults.none clock maxTransactions maxBytes
        (SQLiteChainStore.unopened .absent) =
      (.ok (genesisChain genesis (resolveLimits maxTransactions maxBytes hcount hbytes)),
        SQLiteChainStore.opened
          (initialized genesis (resolveLimits maxTransactions maxBytes hcount hbytes))) := by
  have harguments := checkArguments_ok hnow hcount hbytes
  generalize hlimitsEq : resolveLimits maxTransactions maxBytes hcount hbytes = limits
  have hcountEq : limits.maxTransactions =
      maxTransactions.getD DEFAULT_MEMPOOL_MAX_TRANSACTIONS := by
    rw [← hlimitsEq]
    rfl
  have hbytesEq : limits.maxBytes = maxBytes.getD DEFAULT_MEMPOOL_MAX_BYTES := by
    rw [← hlimitsEq]
    rfl
  have hnow := (SQLiteChainStore.checkArguments_resolve harguments).right
  have hlimits : MatchesLimits maxTransactions maxBytes
      (genesisChain genesis limits).mempool.limits := by
    change (_ ∨ maxTransactions = some limits.maxTransactions) ∧
      (_ ∨ maxBytes = some limits.maxBytes)
    rw [hcountEq, hbytesEq]
    constructor
    · cases maxTransactions with
      | none => exact Or.inl rfl
      | some n => exact Or.inr rfl
    · cases maxBytes with
      | none => exact Or.inl rfl
      | some n => exact Or.inr rfl
  have hread := readStored_complete hnow (represents_initialized hgenesis limits)
    (fun block hblock => by cases hblock) hlimits
  have hboot := initialize_none hgenesis limits .empty
  rw [hcountEq, hbytesEq] at hboot
  have hopen : SQLiteChainStore.openAndRead Faults.none now maxTransactions maxBytes
      ⟨.absent, false, false⟩ =
        SQLiteChainStore.read .none now maxTransactions maxBytes
          (SQLiteChainStore.opened (initialized genesis limits)) := by
    have hfile : openDatabase Faults.none.opening .absent =
        (.ok true, .empty) := rfl
    have hinitialized : SQLiteChainStore.initialize_ Faults.none.initializing _ _ .empty = _ :=
      hboot
    unfold SQLiteChainStore.openAndRead
    rw [if_neg Bool.false_ne_true]
    simp only [hfile]
    rw [hinitialized]
    rfl
  rw [SQLiteChainStore.read_opened_none, hread] at hopen
  unfold SQLiteChainStore.loadOrInitialize SQLiteChainStore.unopened
  simp only [harguments, hopen]
  rfl

theorem initial_ok {genesis : Block} (hgenesis : createGenesisBlock = .ok genesis)
    {clock : Clock} {now : Int} (hnow : resolveCurrentTime clock = .ok now)
    {maxTransactions maxBytes : Option Int}
    (hcount : maxTransactions.all (fun n => 0 < n) = true)
    (hbytes : maxBytes.all (fun n => 0 < n) = true) :
    Blockchain.initial clock maxTransactions maxBytes =
      .ok { blocks := [genesis]
            state := ChainState.empty
            mempool := Mempool.fresh
              (resolveLimits maxTransactions maxBytes hcount hbytes)
              ChainState.empty.utxoSet ChainState.empty.seenTxids
            revision := 0
            closed := false
            storageFailed := false } := by
  have hcheck : Blockchain.checkCurrentTime clock = .ok () := by
    unfold Blockchain.checkCurrentTime
    unfold resolveCurrentTime at hnow
    cases htime : clock.currentTime with
    | none => rfl
    | some time =>
        rw [htime] at hnow
        rcases bind_eq_ok_iff.mp hnow with ⟨_, hpos, _⟩
        exact require_eq_ok_iff.mpr (require_eq_ok_iff.mp hpos)
  have hpool := @create_eq_fresh ChainState.empty.utxoSet ChainState.empty.seenTxids
    (resolveLimits maxTransactions maxBytes hcount hbytes)
  unfold Blockchain.initial
  rw [hcheck, hgenesis]
  simp only [bind_eq_ok_iff]
  exact ⟨(), trivial, genesis, rfl, _, hpool, rfl⟩

theorem initial_inv {clock : Clock} {maxTransactions maxBytes : Option Int}
    {chain : Blockchain} (h : Blockchain.initial clock maxTransactions maxBytes = .ok chain) :
    (exists genesis, createGenesisBlock = .ok genesis) ∧
      (exists now, resolveCurrentTime clock = .ok now) ∧
      maxTransactions.all (fun n => 0 < n) = true ∧
      maxBytes.all (fun n => 0 < n) = true := by
  unfold Blockchain.initial at h
  simp only [bind_eq_ok_iff] at h
  rcases h with ⟨_, hcheck, genesis, hgenesis, pool, hpool, _⟩
  rcases create_limits hpool with ⟨limits, hcount, hbytes, _⟩
  have hcountPos := limits.maxTransactions_pos
  have hbytesPos := limits.maxBytes_pos
  refine ⟨⟨genesis, hgenesis⟩, ?_, ?_, ?_⟩
  · unfold Blockchain.checkCurrentTime at hcheck
    unfold resolveCurrentTime
    cases htime : clock.currentTime with
    | none => exact ⟨_, rfl⟩
    | some time =>
        rw [htime] at hcheck
        exact ⟨time, bind_eq_ok_iff.mpr ⟨(), require_eq_ok_iff.mpr
          (require_eq_ok_iff.mp hcheck), rfl⟩⟩
  · rw [all_pos_iff]
    intro n hn
    rw [hn] at hcount
    rw [hcount] at hcountPos
    exact hcountPos
  · rw [all_pos_iff]
    intro n hn
    rw [hn] at hbytes
    rw [hbytes] at hbytesPos
    exact hbytesPos

end Opening

/-!
## Sessions
-/

namespace Session

variable [Crypto]

/-- A call, or closing the instance and opening the file again. -/
inductive Step where
  | call (call : Blockchain.Call)
  | reopen (clock : Clock) (maxTransactions maxBytes : Option Int)

inductive Answer where
  | returned (result : Except PyError Bool)
  | reopened (result : Except PyError Unit)
deriving DecidableEq

def store : Option (ChainStore SQLiteChainStore) :=
  some (SQLiteChainStore.operations Faults.none)

/-- A session over a database file. -/
def persistent : Machine (Blockchain × SQLiteChainStore) Step Answer where
  step step session :=
    match step with
    | .call call =>
        let outcome := Blockchain.perform store call session.1 session.2
        (.returned outcome.1, outcome.2)
    | .reopen clock maxTransactions maxBytes =>
        let closed := Blockchain.close store session.1 session.2
        match Blockchain.create store clock maxTransactions maxBytes
            (SQLiteChainStore.unopened closed.2.2.file) with
        | (.ok chain, disk) => (.reopened (.ok ()), chain, disk)
        | (.error e, disk) => (.reopened (.error e), closed.2.1, disk)

/-- The same calls without a store; there is nothing to reopen. -/
def memory : Machine Blockchain Step Answer where
  step step chain :=
    match step with
    | .call call =>
        let outcome := Blockchain.ram.step call chain
        (.returned outcome.1, outcome.2)
    | .reopen _ _ _ => (.reopened (.ok ()), chain)

/-- The number of calls that answered true. -/
def successes (answers : List Answer) : Nat :=
  answers.count (.returned (.ok true))

/-- Output indexes that fit into their column. -/
def StorableIndexes (state : ChainState) : Prop :=
  forall item, item ∈ state.utxoSet.items -> item.1.2 ≤ MAX_SQLITE_INTEGER

/-- What a session may do next: numbers stay within the columns, and the file is
reopened under the same limits at a time that is late enough. -/
def Allowed (past : List Answer) (step : Step) (chain : Blockchain) : Prop :=
  match step with
  | .call call =>
      (Blockchain.ram.step call chain).1 = .ok true ->
        (successes past : Int) + 1 ≤ MAX_SQLITE_INTEGER ∧
          StorableIndexes (Blockchain.ram.step call chain).2.state
  | .reopen clock maxTransactions maxBytes =>
      MatchesLimits maxTransactions maxBytes chain.mempool.limits ∧
        exists now, resolveCurrentTime clock = .ok now ∧
          forall block, block ∈ chain.blocks ->
            block.timestamp ≤ now + MAX_FUTURE_BLOCK_TIME

/-- A session over a file and one in memory that hold the same. -/
structure Matches (past : List Answer) (session : Blockchain × SQLiteChainStore)
    (chain : Blockchain) : Prop where
  opened : exists db, session.2 = SQLiteChainStore.opened db ∧
    Represents db session.1.held
  usable : Blockchain.ensureUsable session.1 = .ok ()
  memory : Blockchain.ensureUsable chain = .ok ()
  live : Blockchain.live session.1 = Blockchain.live chain
  revision : session.1.revision = successes past
  size : session.1.mempool.size ≤ successes past

omit [Crypto] in
theorem successes_append (past : List Answer) (answer : Answer) :
    successes (past ++ [answer]) =
      successes past + if answer = .returned (.ok true) then 1 else 0 := by
  unfold successes
  rw [List.count_append, List.count_singleton]
  simp

end Session

theorem Blockchain.Prepares.size_le [Crypto] {before after : Live} {call : Blockchain.Call}
    {block : Option Block} (h : Prepares before call after block) :
    after.mempool.size ≤ before.mempool.size + 1 := by
  cases h with
  | addBlock _ _ _ _ _ _ =>
      exact Nat.le_succ_of_le (Mempool.replay_filter_size_le _ _ _ before.mempool _)
  | @submitTransaction transaction mempool hadd =>
      have hsize := Mempool.addTransaction_size_le before.mempool transaction
      rw [hadd] at hsize
      exact hsize
  | @removePendingTransaction txid mempool hremove =>
      rcases Mempool.removeTransaction_cases before.mempool txid with hsame | ⟨_, heq⟩
      · rw [hsame] at hremove
        cases hremove
      · rw [heq] at hremove
        cases hremove
        exact Nat.le_succ_of_le (Mempool.replay_filter_size_le _ _ _ before.mempool _)

namespace Session

variable [Crypto]

theorem Matches.fits {past : List Answer} {session : Blockchain × SQLiteChainStore}
    {chain : Blockchain} (h : Matches past session chain) {call : Blockchain.Call}
    {next : Live} {block : Option Block}
    (hprepares : Prepares (Blockchain.live session.1) call next block)
    (hrevision : (successes past : Int) + 1 ≤ MAX_SQLITE_INTEGER)
    (hindexes : StorableIndexes next.state) :
    Fits (next.at_ (session.1.held.revision + 1)) := by
  have hsize := hprepares.size_le
  have hold : (Blockchain.live session.1).mempool.size ≤ successes past := h.size
  have hlength : next.mempool.getTransactions.length = next.mempool.size := by
    unfold Mempool.getTransactions Dict.values Mempool.size
    rw [List.length_map, List.length_map]
    rfl
  constructor
  · change session.1.revision + 1 ≤ MAX_SQLITE_INTEGER
    rw [h.revision]
    exact hrevision
  · exact hindexes
  · change (next.mempool.getTransactions.length : Int) ≤ MAX_SQLITE_INTEGER + 1
    rw [hlength]
    omega

theorem matches_call {past : List Answer} {session : Blockchain × SQLiteChainStore}
    {chain : Blockchain} {call : Blockchain.Call} (h : Matches past session chain)
    (hallowed : Allowed past (.call call) chain) :
    (persistent.step (.call call) session).1 = (memory.step (.call call) chain).1 ∧
      Matches (past ++ [(memory.step (.call call) chain).1])
        (persistent.step (.call call) session).2 (memory.step (.call call) chain).2 := by
  rcases h.opened with ⟨db, hstore, hrepresents⟩
  rcases hrepresents.sound.valid with ⟨tip, hvalid⟩
  have htip : session.1.blocks.getLast? = some tip := hvalid.getLast?
  have hperform := Blockchain.perform_eq store call session.1 session.2 h.usable
  have hram := Blockchain.ram_step_eq call chain h.memory
  rw [← h.live] at hram
  simp only [persistent, memory]
  cases hprepare : Blockchain.prepare (Blockchain.live session.1) call with
  | error e =>
      rw [hprepare] at hperform hram
      simp only at hperform hram
      rw [hperform, hram]
      refine ⟨rfl, h.opened, h.usable, h.memory, h.live, ?_, ?_⟩
      · rw [successes_append, if_neg (by simp)]
        exact h.revision
      · rw [successes_append, if_neg (by simp)]
        exact h.size
  | ok prepared =>
      cases prepared with
      | none =>
          rw [hprepare] at hperform hram
          simp only at hperform hram
          rw [hperform, hram]
          refine ⟨rfl, h.opened, h.usable, h.memory, h.live, ?_, ?_⟩
          · rw [successes_append, if_neg (by simp)]
            exact h.revision
          · rw [successes_append, if_neg (by simp)]
            exact h.size
      | some transition =>
          rcases transition with ⟨next, block⟩
          have hprepares := Blockchain.prepare_prepares hprepare
          rw [hprepare] at hperform hram
          simp only at hperform hram
          have hbounds := hallowed (by rw [hram])
          rw [hram] at hbounds
          rcases persist_none hrepresents hprepares
            (h.fits hprepares hbounds.left hbounds.right) with ⟨db', hnext, hpersist⟩
          have hcommit := commitTrue_eq Faults.none next block session.2 htip
          rw [hstore] at hcommit hperform
          rw [hpersist] at hcommit
          have hcommitted : Blockchain.commitTrue store session.1 next.blocks next.state
              next.mempool block (SQLiteChainStore.opened db) =
                (.ok true, session.1.published next (session.1.held.revision + 1),
                  SQLiteChainStore.opened db') := hcommit
          rw [hcommitted] at hperform
          rw [hstore, hperform, hram]
          refine ⟨rfl, ⟨db', rfl, hnext⟩, h.usable, h.memory, rfl, ?_, ?_⟩
          · rw [successes_append, if_pos rfl]
            change session.1.revision + 1 = ((successes past + 1 : Nat) : Int)
            rw [h.revision]
            rfl
          · rw [successes_append, if_pos rfl]
            have hsize := hprepares.size_le
            have hold : (Blockchain.live session.1).mempool.size ≤ successes past := h.size
            change next.mempool.size ≤ successes past + 1
            omega

omit [Crypto] in
theorem matchesLimits_pos {maxTransactions maxBytes : Option Int} {limits : MempoolLimits}
    (h : MatchesLimits maxTransactions maxBytes limits) :
    maxTransactions.all (fun n => 0 < n) = true ∧ maxBytes.all (fun n => 0 < n) = true := by
  constructor
  · rw [all_pos_iff]
    intro n hn
    rcases h.left with heq | heq
    · rw [heq] at hn
      cases hn
    · rw [heq] at hn
      rw [← Option.some.inj hn]
      exact limits.maxTransactions_pos
  · rw [all_pos_iff]
    intro n hn
    rcases h.right with heq | heq
    · rw [heq] at hn
      cases hn
    · rw [heq] at hn
      rw [← Option.some.inj hn]
      exact limits.maxBytes_pos

theorem create_present {genesis : Block} (hgenesis : createGenesisBlock = .ok genesis)
    {db : Database} {stored : StoredChain} (h : Represents db stored) {clock : Clock}
    {now : Int} (hnow : resolveCurrentTime clock = .ok now)
    (htimely : TimelyAt now stored.blocks) {maxTransactions maxBytes : Option Int}
    (hlimits : MatchesLimits maxTransactions maxBytes stored.mempool.limits) :
    Blockchain.create store clock maxTransactions maxBytes
        (SQLiteChainStore.unopened (.present db)) =
      (.ok
        { blocks := stored.blocks
          state := stored.state
          mempool := stored.mempool
          revision := stored.revision
          closed := false
          storageFailed := false }, SQLiteChainStore.opened db) := by
  rcases matchesLimits_pos hlimits with ⟨hcount, hbytes⟩
  have hload : (SQLiteChainStore.operations Faults.none).loadOrInitialize clock
      maxTransactions maxBytes (SQLiteChainStore.unopened (.present db)) =
        (.ok stored, SQLiteChainStore.opened db) :=
    load_present (checkArguments_ok hnow hcount hbytes) h htimely hlimits
  unfold Blockchain.create
  rw [initial_ok hgenesis hnow hcount hbytes]
  simp only [store]
  rw [hload]

theorem matches_reopen {past : List Answer} {session : Blockchain × SQLiteChainStore}
    {chain : Blockchain} {clock : Clock} {maxTransactions maxBytes : Option Int}
    {genesis : Block} (hgenesis : createGenesisBlock = .ok genesis)
    (h : Matches past session chain)
    (hallowed : Allowed past (.reopen clock maxTransactions maxBytes) chain) :
    (persistent.step (.reopen clock maxTransactions maxBytes) session).1 =
        (memory.step (.reopen clock maxTransactions maxBytes) chain).1 ∧
      Matches
        (past ++ [(memory.step (.reopen clock maxTransactions maxBytes) chain).1])
        (persistent.step (.reopen clock maxTransactions maxBytes) session).2
        (memory.step (.reopen clock maxTransactions maxBytes) chain).2 := by
  rcases h.opened with ⟨db, hstore, hrepresents⟩
  rcases hallowed with ⟨hlimits, now, hnow, htimely⟩
  have hfile : (Blockchain.close store session.1 session.2).2.2.file = .present db := by
    unfold Blockchain.close store
    simp only
    split
    · rw [hstore]
      rfl
    · change (SQLiteChainStore.close Faults.none session.2).2.file = _
      rw [SQLiteChainStore.close_file, hstore]
      rfl
  have hpool : session.1.mempool = chain.mempool := congrArg Live.mempool h.live
  have hblocks : session.1.blocks = chain.blocks := congrArg Live.blocks h.live
  have hcreate := create_present hgenesis hrepresents hnow
    (fun block hblock => htimely block (by
      rw [← hblocks]
      exact List.mem_of_mem_tail hblock))
    (by
      change MatchesLimits maxTransactions maxBytes session.1.mempool.limits
      rw [hpool]
      exact hlimits)
  simp only [persistent, memory]
  rw [hfile, hcreate]
  refine ⟨rfl, ⟨db, rfl, hrepresents⟩, rfl, h.memory, h.live, ?_, ?_⟩
  · rw [successes_append, if_neg (by simp)]
    exact h.revision
  · rw [successes_append, if_neg (by simp)]
    exact h.size

/-- A session whose numbers fit, and which reopens its file under the same limits
at times that are late enough. -/
structure Admissible (steps : List Step) (start : Blockchain) : Prop where
  revisions : (successes (memory.results steps start) : Int) ≤ MAX_SQLITE_INTEGER
  indexes : forall done rest, steps = done ++ rest ->
    StorableIndexes (memory.run done start).state
  reopens : forall done clock maxTransactions maxBytes rest,
    steps = done ++ .reopen clock maxTransactions maxBytes :: rest ->
    MatchesLimits maxTransactions maxBytes start.mempool.limits ∧
      exists now, resolveCurrentTime clock = .ok now ∧
        forall block, block ∈ (memory.run done start).blocks ->
          block.timestamp ≤ now + MAX_FUTURE_BLOCK_TIME

theorem memory_limits (steps : List Step) (start : Blockchain) :
    (memory.run steps start).mempool.limits = start.mempool.limits := by
  have hstep : forall step chain, chain.mempool.limits = start.mempool.limits ->
      (memory.step step chain).2.mempool.limits = start.mempool.limits := by
    intro step chain h
    cases step with
    | reopen clock maxTransactions maxBytes => exact h
    | call call =>
        rcases Blockchain.ram_step_cases call chain with
          ⟨answer, _, heq⟩ | ⟨next, block, hprepares, heq⟩
        · simp only [memory, heq]
          exact h
        · simp only [memory, heq]
          exact hprepares.limits.trans h
  exact memory.run_invariant hstep steps start rfl

theorem Admissible.allowed {steps : List Step} {start : Blockchain}
    (h : Admissible steps start) {done : List Step} {step : Step} {rest : List Step}
    (heq : steps = done ++ step :: rest) :
    Allowed (memory.results done start) step (memory.run done start) := by
  cases step with
  | reopen clock maxTransactions maxBytes =>
      rcases h.reopens done clock maxTransactions maxBytes rest heq with ⟨hlimits, hnow⟩
      refine ⟨?_, hnow⟩
      rw [memory_limits]
      exact hlimits
  | call call =>
      intro htrue
      have hrevisions := h.revisions
      have hindexes := h.indexes (done ++ [.call call]) rest (by simp [heq])
      rw [heq, memory.results_append] at hrevisions
      rw [memory.run_append] at hindexes
      constructor
      · have hfirst : (memory.step (.call call) (memory.run done start)).1 =
            .returned (.ok true) := congrArg Answer.returned htrue
        rw [Machine.results, hfirst] at hrevisions
        have hcount : successes (memory.results done start) + 1 ≤
            successes (memory.results done start ++ .returned (.ok true) ::
              memory.results rest (memory.step (.call call) (memory.run done start)).2) := by
          unfold successes
          rw [List.count_append, List.count_cons_self]
          omega
        omega
      · exact hindexes

theorem session_matches {clock : Clock} {maxTransactions maxBytes : Option Int}
    {start : Blockchain} (steps : List Step)
    (hstart : (Blockchain.create (none : Option (ChainStore Unit)) clock maxTransactions
      maxBytes ()).1 = .ok start)
    (hadmissible : Admissible steps start) :
    exists chain disk,
      Blockchain.create store clock maxTransactions maxBytes
          (SQLiteChainStore.unopened .absent) = (.ok chain, disk) ∧
        persistent.results steps (chain, disk) = memory.results steps start ∧
        Matches (memory.results steps start) (persistent.run steps (chain, disk))
          (memory.run steps start) := by
  have hinitial : Blockchain.initial clock maxTransactions maxBytes = .ok start := by
    unfold Blockchain.create at hstart
    cases hcase : Blockchain.initial clock maxTransactions maxBytes with
    | error e =>
        rw [hcase] at hstart
        cases hstart
    | ok chain =>
        rw [hcase] at hstart
        exact hstart
  rcases initial_inv hinitial with ⟨⟨genesis, hgenesis⟩, ⟨now, hnow⟩, hcount, hbytes⟩
  have hstartEq := initial_ok hgenesis hnow hcount hbytes
  rw [hinitial] at hstartEq
  have hstart' := Except.ok.inj hstartEq
  have hload : (SQLiteChainStore.operations Faults.none).loadOrInitialize clock
      maxTransactions maxBytes (SQLiteChainStore.unopened .absent) =
        (.ok (genesisChain genesis (resolveLimits maxTransactions maxBytes hcount hbytes)),
          SQLiteChainStore.opened
            (initialized genesis (resolveLimits maxTransactions maxBytes hcount hbytes))) :=
    load_absent hgenesis hnow hcount hbytes
  have hcreate : Blockchain.create store clock maxTransactions maxBytes
      (SQLiteChainStore.unopened .absent) =
        (.ok start, SQLiteChainStore.opened
          (initialized genesis (resolveLimits maxTransactions maxBytes hcount hbytes))) := by
    unfold Blockchain.create
    rw [hinitial]
    simp only [store]
    rw [hload, hstart']
    rfl
  have hmatches : Matches [] (start, SQLiteChainStore.opened
      (initialized genesis (resolveLimits maxTransactions maxBytes hcount hbytes))) start := by
    subst hstart'
    exact ⟨⟨_, rfl, represents_initialized hgenesis _⟩, rfl, rfl, rfl, rfl, Nat.le_refl 0⟩
  have hstep : forall past step session chain, Matches past session chain ->
      Allowed past step chain ->
      (persistent.step step session).1 = (memory.step step chain).1 ∧
        Matches (past ++ [(memory.step step chain).1]) (persistent.step step session).2
          (memory.step step chain).2 := by
    intro past step session chain hmatch hallowed
    cases step with
    | call call => exact matches_call hmatch hallowed
    | reopen clock maxTransactions maxBytes => exact matches_reopen hgenesis hmatch hallowed
  rcases persistent.run_simulation memory hstep steps [] _ start hmatches
    (fun done step rest heq => hadmissible.allowed heq) with ⟨hresults, hfinal⟩
  exact ⟨start, _, hcreate, hresults, hfinal⟩

/-- A session over a new file answers like the same calls in memory, never fails
to reopen, and holds the same blocks, state and pool; its revision is the number
of calls that answered true. -/
theorem session_refines {clock : Clock} {maxTransactions maxBytes : Option Int}
    {start : Blockchain} (steps : List Step)
    (hstart : (Blockchain.create (none : Option (ChainStore Unit)) clock maxTransactions
      maxBytes ()).1 = .ok start)
    (hadmissible : Admissible steps start) :
    exists chain disk,
      Blockchain.create store clock maxTransactions maxBytes
          (SQLiteChainStore.unopened .absent) = (.ok chain, disk) ∧
        persistent.results steps (chain, disk) = memory.results steps start ∧
        (persistent.run steps (chain, disk)).1.blocks = (memory.run steps start).blocks ∧
        (persistent.run steps (chain, disk)).1.state = (memory.run steps start).state ∧
        (persistent.run steps (chain, disk)).1.mempool =
          (memory.run steps start).mempool ∧
        (persistent.run steps (chain, disk)).1.revision =
          successes (memory.results steps start) := by
  rcases session_matches steps hstart hadmissible with ⟨chain, disk, hcreate, hresults, hfinal⟩
  refine ⟨chain, disk, hcreate, hresults, ?_, ?_, ?_, hfinal.revision⟩
  · exact congrArg Live.blocks hfinal.live
  · exact congrArg Live.state hfinal.live
  · exact congrArg Live.mempool hfinal.live

/-!
## Where a session leaves the columns
-/

/-- A call on the pool alone. -/
def IsPoolCall : Step -> Prop
  | .call (.submitTransaction _) => True
  | .call (.removePendingTransaction _) => True
  | _ => False

theorem poolCall_state {step : Step} (h : IsPoolCall step) (chain : Blockchain) :
    (memory.step step chain).2.state = chain.state := by
  cases step with
  | reopen clock maxTransactions maxBytes => exact h.elim
  | call call =>
      rcases Blockchain.ram_step_cases call chain with
        ⟨answer, _, heq⟩ | ⟨next, block, hprepares, heq⟩
      · simp only [memory, heq]
      · simp only [memory, heq]
        cases hprepares with
        | addBlock _ _ _ _ _ _ => exact h.elim
        | submitTransaction _ => rfl
        | removePendingTransaction _ => rfl

theorem poolCalls_state (steps : List Step) :
    forall chain, (forall step, step ∈ steps -> IsPoolCall step) ->
      (memory.run steps chain).state = chain.state := by
  induction steps with
  | nil =>
      intro chain _
      rfl
  | cons step rest ih =>
      intro chain h
      rw [List.forall_mem_cons] at h
      rw [Machine.run, ih _ h.right, poolCall_state h.left]

theorem persistent_overflow {past : List Answer} {session : Blockchain × SQLiteChainStore}
    {chain : Blockchain} (h : Matches past session chain) {call : Blockchain.Call}
    (hpool : IsPoolCall (.call call))
    (hlast : (successes past : Int) = MAX_SQLITE_INTEGER) :
    (persistent.step (.call call) session).1 ≠ .returned (.ok true) := by
  rcases h.opened with ⟨db, hstore, hrepresents⟩
  rcases Blockchain.perform_cases store call session.1 session.2 with
    ⟨answer, hanswer, heq⟩ | ⟨_, next, block, hprepares, heq⟩
  · simp only [persistent, heq]
    intro hreturned
    exact hanswer (Answer.returned.inj hreturned)
  · rcases hrepresents.sound.valid with ⟨tip, hvalid⟩
    have htip : session.1.blocks.getLast? = some tip := hvalid.getLast?
    have hblock : block = none := by
      cases hprepares with
      | addBlock _ _ _ _ _ _ => exact hpool.elim
      | submitTransaction _ => rfl
      | removePendingTransaction _ => rfl
    subst hblock
    have hcommit : Blockchain.commitTrue store session.1 next.blocks next.state
        next.mempool none session.2 = _ :=
      commitTrue_eq Faults.none next none session.2 htip
    simp only [persistent, heq, hcommit]
    rw [hstore]
    rcases write_cases Fault.none
        (SQLiteChainStore.poolRows next.mempool session.1.held.expected)
        (SQLiteChainStore.replaceTables next.mempool session.1.held.expected) db with
      ⟨e, herror⟩ | ⟨rows, _, _, hrows, _, _⟩
    · have hpersist : SQLiteChainStore.persist Faults.none next none
          session.1.held.expected (SQLiteChainStore.opened db) =
            (.error e, SQLiteChainStore.opened db) := herror
      rw [hpersist]
      simp
    · unfold SQLiteChainStore.poolRows at hrows
      simp only [bind_eq_ok_iff, metadataRow_eq_ok_iff] at hrows
      rcases hrows with ⟨_, _, _, ⟨_, ⟨_, _, hbound⟩, _⟩, _⟩
      have hrevision : session.1.held.expected.revision = successes past := h.revision
      rw [hrevision, hlast] at hbound
      omega

end Session

/-!
## The sample network
-/

namespace Sample

/-- The instance after the first block. -/
def oneBlock : Blockchain :=
  { start with
    blocks := [genesis, first]
    state := firstState
    mempool := Mempool.fresh limits confirmed {coinbaseTxid} }

theorem first_call : (@Session.memory crypto).step (.call (.addBlock first clock)) start =
    (.returned (.ok true), oneBlock) := by
  decide +kernel

theorem transfer_submitted : (@Session.memory crypto).results
    [.call (.submitTransaction transfer)] oneBlock = [.returned (.ok true)] := by
  decide +kernel

theorem oneBlock_indexes : Session.StorableIndexes oneBlock.state := by
  unfold Session.StorableIndexes
  decide +kernel

/-- A block, a reopened file and a transfer. -/
def sessionSteps : List Session.Step :=
  [.call (.addBlock first clock), .reopen clock none none,
    .call (.submitTransaction transfer)]

theorem sessionSteps_results : (@Session.memory crypto).results sessionSteps start =
    [.returned (.ok true), .reopened (.ok ()), .returned (.ok true)] := by
  unfold sessionSteps
  rw [Machine.results, first_call, Machine.results]
  have hreopen : (@Session.memory crypto).step (.reopen clock none none) oneBlock =
      (.reopened (.ok ()), oneBlock) := rfl
  rw [hreopen, transfer_submitted]

theorem sessionSteps_admissible : @Session.Admissible crypto sessionSteps start := by
  refine @Session.Admissible.mk crypto sessionSteps start ?_ ?_ ?_
  · rw [sessionSteps_results]
    decide
  · intro done rest heq
    match done, heq with
    | [], _ =>
        intro item hitem
        cases hitem
    | [_], heq =>
        cases heq
        rw [Machine.run, first_call]
        exact oneBlock_indexes
    | [_, _], heq =>
        cases heq
        rw [Machine.run, first_call]
        exact oneBlock_indexes
    | [_, _, _], heq =>
        cases heq
        rw [Machine.run, first_call]
        change Session.StorableIndexes ((@Session.memory crypto).step
          (.call (.submitTransaction transfer)) oneBlock).2.state
        rw [@Session.poolCall_state crypto (.call (.submitTransaction transfer)) trivial
          oneBlock]
        exact oneBlock_indexes
    | _ :: _ :: _ :: _ :: more, heq =>
        have htotal := congrArg List.length heq
        simp only [List.length_append, List.length_cons, sessionSteps, List.length_nil]
          at htotal
        omega
  · intro done clock' maxTransactions maxBytes rest heq
    match done, heq with
    | [step], heq =>
        cases heq
        refine ⟨⟨Or.inl rfl, Or.inl rfl⟩, 1788652920, rfl, ?_⟩
        rw [Machine.run, first_call]
        decide
    | step :: other :: third :: more, heq =>
        have htotal := congrArg List.length heq
        simp only [List.length_append, List.length_cons, sessionSteps, List.length_nil]
          at htotal
        omega

/-- Submitting the transfer and removing it again. -/
def cycle : List Session.Step :=
  [.call (.submitTransaction transfer), .call (.removePendingTransaction transferTxid)]

theorem cycle_run : (@Session.memory crypto).run cycle oneBlock = oneBlock := by
  decide +kernel

theorem cycle_results : (@Session.memory crypto).results cycle oneBlock =
    [.returned (.ok true), .returned (.ok true)] := by
  decide +kernel

def cycles (n : Nat) : List Session.Step :=
  (List.replicate n cycle).flatten

theorem cycles_run (n : Nat) : (@Session.memory crypto).run (cycles n) oneBlock = oneBlock ∧
    Session.successes ((@Session.memory crypto).results (cycles n) oneBlock) = 2 * n := by
  induction n with
  | zero => exact ⟨rfl, rfl⟩
  | succ n ih =>
      have hcons : cycles (n + 1) = cycle ++ cycles n := by
        unfold cycles
        rw [List.replicate_succ, List.flatten_cons]
      rw [hcons, Machine.run_append, Machine.results_append, cycle_run, cycle_results]
      refine ⟨ih.left, ?_⟩
      have hcount := ih.right
      unfold Session.successes at hcount ⊢
      rw [List.count_append, hcount]
      change 2 + 2 * n = 2 * (n + 1)
      omega

def longSteps (n : Nat) : List Session.Step :=
  .call (.addBlock first clock) :: cycles n

theorem cycles_pool {n : Nat} {step : Session.Step} (h : step ∈ cycles n) :
    Session.IsPoolCall step := by
  rcases List.mem_flatten.mp h with ⟨steps, hsteps, hmem⟩
  rw [(List.mem_replicate.mp hsteps).right] at hmem
  rcases List.mem_cons.mp hmem with heq | hrest
  · rw [heq]
    exact trivial
  · rw [List.mem_singleton.mp hrest]
    exact trivial

theorem longSteps_successes (n : Nat) :
    Session.successes ((@Session.memory crypto).results (longSteps n) start) =
      2 * n + 1 := by
  have hcycles := (cycles_run n).right
  unfold longSteps
  rw [Machine.results, first_call]
  unfold Session.successes at hcycles ⊢
  rw [List.count_cons_self, hcycles]

theorem longSteps_run (n : Nat) :
    (@Session.memory crypto).run (longSteps n) start = oneBlock := by
  unfold longSteps
  rw [Machine.run, first_call, (cycles_run n).left]

theorem longSteps_admissible {n : Nat} (h : ((2 * n + 1 : Nat) : Int) ≤ MAX_SQLITE_INTEGER) :
    @Session.Admissible crypto (longSteps n) start := by
  refine @Session.Admissible.mk crypto (longSteps n) start ?_ ?_ ?_
  · rw [longSteps_successes]
    exact h
  · intro done rest heq
    cases done with
    | nil =>
        intro item hitem
        cases hitem
    | cons step more =>
        rcases List.cons.inj heq with ⟨hstep, hmore⟩
        rw [← hstep, Machine.run, first_call]
        have hpool : forall step, step ∈ more -> Session.IsPoolCall step := by
          intro step hmem
          apply @cycles_pool n
          rw [hmore]
          exact List.mem_append_left _ hmem
        rw [@Session.poolCalls_state crypto more oneBlock hpool]
        exact oneBlock_indexes
  · intro done clock' maxTransactions maxBytes rest heq
    cases done with
    | nil => cases (List.cons.inj heq).left
    | cons step more =>
        have hmem : Session.Step.reopen clock' maxTransactions maxBytes ∈ cycles n := by
          rw [(List.cons.inj heq).right]
          exact List.mem_append_right _ List.mem_cons_self
        exact (cycles_pool hmem).elim

/-- When the cycles end at the last revision that fits, the next submission
succeeds in memory and raises over a file. -/
theorem longSteps_differ {n : Nat} (h : ((2 * n + 1 : Nat) : Int) = MAX_SQLITE_INTEGER) :
    exists chain disk,
      @Blockchain.create crypto SQLiteChainStore (@Session.store crypto) clock none none
          (SQLiteChainStore.unopened .absent) = (.ok chain, disk) ∧
        (@Session.persistent crypto).results
            (longSteps n ++ [.call (.submitTransaction transfer)]) (chain, disk) ≠
          (@Session.memory crypto).results
            (longSteps n ++ [.call (.submitTransaction transfer)]) start := by
  rcases @Session.session_matches crypto clock none none start (longSteps n) start_created
    (longSteps_admissible (Int.le_of_eq h)) with ⟨chain, disk, hcreate, hresults, hmatches⟩
  refine ⟨chain, disk, hcreate, ?_⟩
  rw [Machine.results_append, Machine.results_append, hresults]
  intro heq
  have hlast := List.append_cancel_left heq
  rw [longSteps_run, transfer_submitted] at hlast
  refine @Session.persistent_overflow crypto _ _ _ hmatches (.submitTransaction transfer)
    trivial ?_ (List.cons.inj hlast).left
  rw [longSteps_successes]
  exact h

end Sample

theorem Session.session_refines_sample :
    exists chain disk,
      @Blockchain.create Sample.crypto SQLiteChainStore (@Session.store Sample.crypto)
          Sample.clock none none (SQLiteChainStore.unopened .absent) = (.ok chain, disk) ∧
        (@Session.persistent Sample.crypto).results Sample.sessionSteps (chain, disk) =
          [.returned (.ok true), .reopened (.ok ()), .returned (.ok true)] ∧
        ((@Session.persistent Sample.crypto).run Sample.sessionSteps (chain, disk)).1.revision =
          2 := by
  rcases @Session.session_refines Sample.crypto Sample.clock none none Sample.start
    Sample.sessionSteps Sample.start_created Sample.sessionSteps_admissible with
    ⟨chain, disk, hcreate, hresults, _, _, _, hrevision⟩
  refine ⟨chain, disk, hcreate, hresults.trans Sample.sessionSteps_results, ?_⟩
  rw [hrevision, Sample.sessionSteps_results]
  rfl

/-- After the last revision that fits, a submission succeeds in memory and raises
over a file. -/
theorem Session.session_refines_overflow :
    exists chain disk,
      @Blockchain.create Sample.crypto SQLiteChainStore (@Session.store Sample.crypto)
          Sample.clock none none (SQLiteChainStore.unopened .absent) = (.ok chain, disk) ∧
        (@Session.persistent Sample.crypto).results
            (Sample.longSteps (2 ^ 62 - 1) ++ [.call (.submitTransaction Sample.transfer)])
            (chain, disk) ≠
          (@Session.memory Sample.crypto).results
            (Sample.longSteps (2 ^ 62 - 1) ++ [.call (.submitTransaction Sample.transfer)])
            Sample.start :=
  Sample.longSteps_differ (by decide)

end PyChain
