import Mathlib.Data.List.Chain
import PyChain.Blockchain.Queries
import PyChain.Mining.BlockTemplate
import PyChain.Storage.Refinement

/-!
# Many writers on one file

Any number of instances are opened on one database file and called in any
order; each call may fail anywhere in its transaction, and an instance may
vanish between calls.  A call computes on the memory of its own instance and
then runs one write transaction, which SQLite serialises, so a run is a list of
calls.  The committed contents of the file form one history: each is one
operation away from the one before it.
-/

namespace PyChain

open Foundation
open ChainStore
open Blockchain (Prepares Live)

/-!
## Opening a file under faults
-/

section Opening

variable [Crypto]

omit [Crypto] in
theorem exists_timely (blocks : List Block) :
    exists now, 0 ≤ now ∧ forall block, block ∈ blocks ->
      block.timestamp ≤ now + MAX_FUTURE_BLOCK_TIME := by
  induction blocks with
  | nil => exact ⟨0, Int.le_refl 0, fun block hblock => by cases hblock⟩
  | cons block rest ih =>
      rcases ih with ⟨now, hnow, hall⟩
      refine ⟨max now block.timestamp, Int.le_trans hnow (Int.le_max_left _ _), ?_⟩
      have hfuture : 0 ≤ MAX_FUTURE_BLOCK_TIME := by
        decide
      have hleft := Int.le_max_left now block.timestamp
      have hright := Int.le_max_right now block.timestamp
      rw [List.forall_mem_cons]
      constructor
      · omega
      · intro other hother
        have hle := hall other hother
        omega

theorem Represents.unique {db : Database} {stored other : StoredChain}
    (h : Represents db stored) (h' : Represents db other) : stored = other := by
  rcases exists_timely (stored.blocks ++ other.blocks) with ⟨now, hnow, hall⟩
  have hread := readStored_complete hnow h
    (fun block hblock => hall block (List.mem_append_left _ (List.mem_of_mem_tail hblock)))
    (⟨Or.inl rfl, Or.inl rfl⟩ : MatchesLimits none none _)
  have hread' := readStored_complete hnow h'
    (fun block hblock => hall block (List.mem_append_right _ (List.mem_of_mem_tail hblock)))
    (⟨Or.inl rfl, Or.inl rfl⟩ : MatchesLimits none none _)
  rw [hread] at hread'
  exact Except.ok.inj hread'

/-- A load that answers leaves an open connection to a file that represents the
answer. -/
def LoadedFrom (outcome : Except PyError StoredChain × SQLiteChainStore) : Prop :=
  forall stored, outcome.1 = .ok stored ->
    exists db, outcome.2 = SQLiteChainStore.opened db ∧ Represents db stored

theorem read_loadedFrom (fault : Fault) {now : Int} (hnow : 0 ≤ now)
    (maxTransactions maxBytes : Option Int) (db : Database) :
    LoadedFrom (SQLiteChainStore.read fault now maxTransactions maxBytes
        (SQLiteChainStore.opened db)) ∧
      (SQLiteChainStore.read fault now maxTransactions maxBytes
        (SQLiteChainStore.opened db)).2 = SQLiteChainStore.opened db := by
  rcases SQLiteChainStore.read_opened fault now maxTransactions maxBytes db with
    ⟨e, heq⟩ | ⟨stored, hstored, _, heq⟩
  · rw [heq]
    refine ⟨?_, rfl⟩
    intro stored hok
    cases hok
  · rw [heq]
    refine ⟨?_, rfl⟩
    intro other hok
    cases hok
    exact ⟨db, rfl, (readStored_sound hnow hstored).left⟩

/-- The files that opening a file can leave behind. -/
inductive OpenedFile : DatabaseFile -> DatabaseFile -> Prop where
  | same (file : DatabaseFile) : OpenedFile file file
  | created : OpenedFile .absent .empty
  | initialized {genesis : Block} {limits : MempoolLimits} :
      createGenesisBlock = .ok genesis ->
      OpenedFile .absent (.present (initialized genesis limits))

theorem openAndRead_file (faults : Faults) {now : Int} (hnow : 0 ≤ now)
    (maxTransactions maxBytes : Option Int) (file : DatabaseFile) :
    LoadedFrom (SQLiteChainStore.openAndRead faults now maxTransactions maxBytes
        (SQLiteChainStore.unopened file)) ∧
      OpenedFile file (SQLiteChainStore.openAndRead faults now maxTransactions maxBytes
        (SQLiteChainStore.unopened file)).2.file := by
  have herror : forall e store, LoadedFrom (.error e, store) := by
    intro e store stored hok
    cases hok
  cases file with
  | present db =>
      rcases SQLiteChainStore.openAndRead_present faults now maxTransactions maxBytes db false
        with ⟨e, connected, heq⟩ | ⟨stored, hstored, heq⟩
      · unfold SQLiteChainStore.unopened
        rw [heq]
        exact ⟨herror _ _, OpenedFile.same _⟩
      · unfold SQLiteChainStore.unopened
        rw [heq]
        refine ⟨?_, OpenedFile.same _⟩
        intro other hok
        cases hok
        exact ⟨db, rfl, (readStored_sound hnow hstored).left⟩
  | empty =>
      have hopen : forall fault, exists e, openDatabase fault .empty = (.error e, .empty) := by
        intro fault
        match fault with
        | none => exact ⟨_, rfl⟩
        | some (.access e) => exact ⟨_, rfl⟩
        | some (.configure e) => exact ⟨_, rfl⟩
      rcases hopen faults.opening with ⟨e, heq⟩
      simp only [SQLiteChainStore.openAndRead, SQLiteChainStore.unopened, heq]
      exact ⟨herror _ _, OpenedFile.same _⟩
  | absent =>
      cases hfault : faults.opening with
      | some fault =>
          cases fault with
          | access e =>
              simp only [SQLiteChainStore.openAndRead, SQLiteChainStore.unopened, hfault,
                openDatabase]
              exact ⟨herror _ _, OpenedFile.same _⟩
          | configure e =>
              simp only [SQLiteChainStore.openAndRead, SQLiteChainStore.unopened, hfault,
                openDatabase]
              exact ⟨herror _ _, OpenedFile.created⟩
      | none =>
          simp only [SQLiteChainStore.openAndRead, SQLiteChainStore.unopened, hfault,
            openDatabase, Bool.false_eq_true, if_false]
          rcases initialize_cases faults.initializing
              (maxTransactions.getD DEFAULT_MEMPOOL_MAX_TRANSACTIONS)
              (maxBytes.getD DEFAULT_MEMPOOL_MAX_BYTES) .empty with
            ⟨e, heq⟩ | ⟨genesis, limits, hgenesis, hfile⟩
          · rw [heq]
            exact ⟨herror _ _, OpenedFile.created⟩
          · rcases houtcome : SQLiteChainStore.initialize_ faults.initializing
              (maxTransactions.getD DEFAULT_MEMPOOL_MAX_TRANSACTIONS)
              (maxBytes.getD DEFAULT_MEMPOOL_MAX_BYTES) .empty with ⟨answer, file⟩
            rw [houtcome] at hfile
            simp only at hfile
            subst hfile
            cases answer with
            | error e => exact ⟨herror _ _, OpenedFile.initialized hgenesis⟩
            | ok _ =>
                rcases read_loadedFrom faults.transaction hnow maxTransactions maxBytes
                  (initialized genesis limits) with ⟨hloaded, hstore⟩
                refine ⟨hloaded, ?_⟩
                change OpenedFile .absent (SQLiteChainStore.read faults.transaction now
                  maxTransactions maxBytes
                  (SQLiteChainStore.opened (initialized genesis limits))).2.file
                rw [hstore]
                exact OpenedFile.initialized hgenesis

theorem loadOrInitialize_file (faults : Faults) (clock : Clock)
    (maxTransactions maxBytes : Option Int) (file : DatabaseFile) :
    LoadedFrom (SQLiteChainStore.loadOrInitialize faults clock maxTransactions maxBytes
        (SQLiteChainStore.unopened file)) ∧
      OpenedFile file (SQLiteChainStore.loadOrInitialize faults clock maxTransactions maxBytes
        (SQLiteChainStore.unopened file)).2.file := by
  unfold SQLiteChainStore.loadOrInitialize
  simp only [SQLiteChainStore.unopened, Bool.false_eq_true, if_false]
  cases harguments : SQLiteChainStore.checkArguments clock maxTransactions maxBytes with
  | error e =>
      refine ⟨?_, OpenedFile.same _⟩
      intro stored hok
      cases hok
  | ok now =>
      have hnow := (SQLiteChainStore.checkArguments_resolve harguments).right
      rcases openAndRead_file faults hnow maxTransactions maxBytes file with ⟨hloaded, hfile⟩
      unfold SQLiteChainStore.unopened at hloaded hfile
      rcases houtcome : SQLiteChainStore.openAndRead faults now maxTransactions maxBytes
        ⟨file, false, false⟩ with ⟨answer, store⟩
      rw [houtcome] at hloaded hfile
      simp only [houtcome]
      cases answer with
      | ok stored => exact ⟨hloaded, hfile⟩
      | error e =>
          refine ⟨?_, ?_⟩
          · intro stored hok
            cases hok
          · simp only
            rw [SQLiteChainStore.close_file]
            exact hfile

/-- The instance that a recovered chain becomes. -/
def StoredChain.instance_ (stored : StoredChain) : Blockchain :=
  { blocks := stored.blocks
    state := stored.state
    mempool := stored.mempool
    revision := stored.revision
    closed := false
    storageFailed := false }

/-- A constructor call leaves an openable file behind, and an instance holds what
the file represents. -/
theorem create_file (faults : Faults) (clock : Clock)
    (maxTransactions maxBytes : Option Int) (file : DatabaseFile) :
    OpenedFile file (Blockchain.create (some (SQLiteChainStore.operations faults)) clock
        maxTransactions maxBytes (SQLiteChainStore.unopened file)).2.file ∧
      forall chain, (Blockchain.create (some (SQLiteChainStore.operations faults)) clock
          maxTransactions maxBytes (SQLiteChainStore.unopened file)).1 = .ok chain ->
        exists db stored,
          (Blockchain.create (some (SQLiteChainStore.operations faults)) clock
            maxTransactions maxBytes (SQLiteChainStore.unopened file)).2 =
              SQLiteChainStore.opened db ∧
            Represents db stored ∧ chain = stored.instance_ ∧
            exists genesis, createGenesisBlock = .ok genesis := by
  rcases loadOrInitialize_file faults clock maxTransactions maxBytes file with
    ⟨hloaded, hfile⟩
  unfold Blockchain.create
  cases hinitial : Blockchain.initial clock maxTransactions maxBytes with
  | error e =>
      refine ⟨OpenedFile.same _, ?_⟩
      intro chain hok
      cases hok
  | ok initial =>
      rcases initial_inv hinitial with ⟨hgenesis, ⟨now, hnow⟩, hcount, hbytes⟩
      simp only [SQLiteChainStore.operations]
      rcases houtcome : SQLiteChainStore.loadOrInitialize faults clock maxTransactions maxBytes
        (SQLiteChainStore.unopened file) with ⟨answer, store⟩
      rw [houtcome] at hloaded hfile
      cases answer with
      | error e =>
          refine ⟨?_, ?_⟩
          · simp only
            rw [SQLiteChainStore.close_file]
            exact hfile
          · intro chain hok
            cases hok
      | ok stored =>
          refine ⟨hfile, ?_⟩
          intro chain hok
          rcases hloaded stored rfl with ⟨db, hstore, hrepresents⟩
          rcases hgenesis with ⟨genesis, hgenesis⟩
          have hinitialEq := initial_ok hgenesis hnow hcount hbytes
          rw [hinitial] at hinitialEq
          refine ⟨db, stored, hstore, hrepresents, ?_, genesis, hgenesis⟩
          rw [← Except.ok.inj hok, Except.ok.inj hinitialEq]
          rfl

end Opening

/-!
## Instances on one file
-/

/-- An instance together with the state of its connection. -/
structure Writer where
  chain : Blockchain
  connected : Bool
  closed : Bool

/-- The file and the instances that are open on it. -/
structure World where
  file : DatabaseFile
  writers : Nat -> Option Writer

namespace World

variable [Crypto]

inductive Event where
  | open_ (writer : Nat) (faults : Faults) (clock : Clock)
      (maxTransactions maxBytes : Option Int)
  | call (writer : Nat) (faults : Faults) (call : Blockchain.Call)
  | close (writer : Nat) (faults : Faults)
  | crash (writer : Nat)

/-- The store object of an instance. -/
def connection (w : World) (writer : Writer) : SQLiteChainStore :=
  { file := w.file, connected := writer.connected, closed := writer.closed }

/-- Put back an instance and its store object. -/
def update (w : World) (i : Nat) (chain : Blockchain) (store : SQLiteChainStore) : World :=
  { file := store.file
    writers := Function.update w.writers i (some ⟨chain, store.connected, store.closed⟩) }

def remove (w : World) (i : Nat) (file : DatabaseFile) : World :=
  { file := file, writers := Function.update w.writers i none }

/-- A call on an instance that does not exist does nothing. -/
def machine : Machine World Event (Option (Except PyError Bool)) where
  step event w :=
    match event with
    | .open_ i faults clock maxTransactions maxBytes =>
        match Blockchain.create (some (SQLiteChainStore.operations faults)) clock
            maxTransactions maxBytes (SQLiteChainStore.unopened w.file) with
        | (.ok chain, store) => (some (.ok true), w.update i chain store)
        | (.error e, store) => (some (.error e), w.remove i store.file)
    | .call i faults call =>
        match w.writers i with
        | none => (none, w)
        | some writer =>
            let outcome := Blockchain.perform (some (SQLiteChainStore.operations faults)) call
              writer.chain (w.connection writer)
            (some outcome.1, w.update i outcome.2.1 outcome.2.2)
    | .close i faults =>
        match w.writers i with
        | none => (none, w)
        | some writer =>
            let outcome := Blockchain.close (some (SQLiteChainStore.operations faults))
              writer.chain (w.connection writer)
            (some (outcome.1.map (fun _ => true)), w.update i outcome.2.1 outcome.2.2)
    | .crash i => (none, w.remove i w.file)

/-!
## The history of a file
-/

/-- One operation takes a committed chain to the next one. -/
def Committed (stored next : StoredChain) : Prop :=
  exists call block, Prepares stored.live call next.live block ∧
    next.revision = stored.revision + 1

/-- The file represents the last chain of the history; a file that represents no
chain has no history. -/
def OnDisk (history : List StoredChain) : DatabaseFile -> Prop
  | .present db =>
      (exists last, history.getLast? = some last ∧ Represents db last) ∨
        (history = [] ∧ forall stored, ¬ Represents db stored)
  | _ => history = []

/-- An instance holds a chain of the history, and is connected while it is open. -/
structure Tracked (history : List StoredChain) (writer : Writer) : Prop where
  held : writer.chain.held ∈ history
  tip : exists tip, writer.chain.blocks.getLast? = some tip
  connected : writer.chain.closed = false ->
    writer.connected = true ∧ writer.closed = false
  genesis : exists genesis, createGenesisBlock = .ok genesis

structure Consistent (history : List StoredChain) (w : World) : Prop where
  disk : OnDisk history w.file
  linked : history.IsChain Committed
  tracked : forall i writer, w.writers i = some writer -> Tracked history writer

theorem Committed.revision_lt {stored next : StoredChain} (h : Committed stored next) :
    stored.revision < next.revision := by
  rcases h with ⟨_, _, _, hrevision⟩
  omega

theorem revision_injective {history : List StoredChain} (h : history.IsChain Committed)
    {stored other : StoredChain} (hstored : stored ∈ history) (hother : other ∈ history)
    (heq : stored.revision = other.revision) : stored = other := by
  have hpairs : history.Pairwise (fun a b => a.revision < b.revision) := by
    have htrans : IsTrans StoredChain (fun a b => a.revision < b.revision) :=
      ⟨fun _ _ _ => Int.lt_trans⟩
    apply List.IsChain.pairwise
    exact h.imp (fun _ _ hstep => hstep.revision_lt)
  have hnodup : (history.map StoredChain.revision).Nodup :=
    List.pairwise_map.mpr (hpairs.imp (fun hlt => Int.ne_of_lt hlt))
  exact List.inj_on_of_nodup_map hnodup hstored hother heq

/-!
## One call
-/

/-- What a call on an instance can come to. -/
inductive CallOutcome (w : World) (writer : Writer) (call : Blockchain.Call) :
    Except PyError Bool × Blockchain × SQLiteChainStore -> Prop where
  | refused {e : PyError} :
      Blockchain.ensureUsable writer.chain = .error e ->
      CallOutcome w writer call (.error e, writer.chain, w.connection writer)
  | idle {answer : Except PyError Bool} :
      (forall transition, Blockchain.prepare (Blockchain.live writer.chain) call ≠
        .ok (some transition)) ->
      answer ≠ .ok true ->
      CallOutcome w writer call (answer, writer.chain, w.connection writer)
  | lost {next : Live} {block : Option Block} {e : PyError} :
      Blockchain.prepare (Blockchain.live writer.chain) call = .ok (some (next, block)) ->
      CallOutcome w writer call (.error e, writer.chain.failed, w.connection writer)
  | landed {next : Live} {block : Option Block} {db db' : Database} {e : PyError} :
      Blockchain.prepare (Blockchain.live writer.chain) call = .ok (some (next, block)) ->
      w.file = .present db -> Represents db writer.chain.held ->
      Represents db' (next.at_ (writer.chain.revision + 1)) ->
      CallOutcome w writer call
        (.error e, writer.chain.failed, SQLiteChainStore.opened db')
  | committed {next : Live} {block : Option Block} {db db' : Database} :
      Blockchain.prepare (Blockchain.live writer.chain) call = .ok (some (next, block)) ->
      w.file = .present db -> Represents db writer.chain.held ->
      Represents db' (next.at_ (writer.chain.revision + 1)) ->
      CallOutcome w writer call
        (.ok true, writer.chain.published next (writer.chain.revision + 1),
          SQLiteChainStore.opened db')

theorem Consistent.current {history : List StoredChain} {w : World}
    (h : Consistent history w) {writer : Writer} (htracked : Tracked history writer) :
    exists db last, w.file = .present db ∧ last ∈ history ∧
      history.getLast? = some last ∧ Represents db last ∧
      (writer.chain.held.expected = last.expected -> writer.chain.held = last) := by
  have hne : history ≠ [] := List.ne_nil_of_mem htracked.held
  have hdisk := h.disk
  cases hfile : w.file with
  | absent =>
      rw [hfile] at hdisk
      exact absurd hdisk hne
  | empty =>
      rw [hfile] at hdisk
      exact absurd hdisk hne
  | present db =>
      rw [hfile] at hdisk
      rcases hdisk with ⟨last, hlast, hrepresents⟩ | ⟨hnil, _⟩
      · have hmem := List.mem_of_getLast? hlast
        refine ⟨db, last, rfl, hmem, hlast, hrepresents, ?_⟩
        intro heq
        exact revision_injective h.linked htracked.held hmem
          (congrArg Expected.revision heq)
      · exact absurd hnil hne

theorem perform_outcome {history : List StoredChain} {w : World}
    (h : Consistent history w) {writer : Writer} (htracked : Tracked history writer)
    (faults : Faults) (call : Blockchain.Call) :
    CallOutcome w writer call
      (Blockchain.perform (some (SQLiteChainStore.operations faults)) call writer.chain
        (w.connection writer)) := by
  cases husable : Blockchain.ensureUsable writer.chain with
  | error e =>
      rw [Blockchain.perform_unusable _ call writer.chain _ husable]
      exact CallOutcome.refused husable
  | ok _ =>
      rw [Blockchain.perform_eq _ call writer.chain _ husable]
      cases hprepare : Blockchain.prepare (Blockchain.live writer.chain) call with
      | error e =>
          refine CallOutcome.idle ?_ (by simp)
          intro transition heq
          rw [hprepare] at heq
          cases heq
      | ok prepared =>
          cases prepared with
          | none =>
              refine CallOutcome.idle ?_ (by simp)
              intro transition heq
              rw [hprepare] at heq
              cases heq
          | some transition =>
              rcases transition with ⟨next, block⟩
              rcases h.current htracked with ⟨db, last, hfile, _, _, hrepresents, hunique⟩
              have hopen := htracked.connected
                ((Blockchain.ensureUsable_eq_ok_iff _).mp husable).left
              have hconnection : w.connection writer = SQLiteChainStore.opened db := by
                unfold connection SQLiteChainStore.opened
                rw [hfile, hopen.left, hopen.right]
              have hprepares : Prepares writer.chain.held.live call next block :=
                Blockchain.prepare_prepares hprepare
              have htip := htracked.tip
              rcases htip with ⟨tip, htip⟩
              simp only
              rw [commitTrue_eq faults next block _ htip, hconnection]
              rcases persist_cases faults hrepresents hprepares hunique with
                ⟨e, heq⟩ | ⟨hheld, db', hnext, ⟨_, heq⟩ | ⟨e, heq⟩⟩
              · rw [heq, ← hconnection]
                exact CallOutcome.lost hprepare
              · rw [← hheld] at hrepresents hnext
                rw [heq, ← hheld]
                exact CallOutcome.committed hprepare hfile hrepresents hnext
              · rw [← hheld] at hrepresents hnext
                rw [heq]
                exact CallOutcome.landed hprepare hfile hrepresents hnext

/-!
## One event
-/

theorem Tracked.mono {history later : List StoredChain} {writer : Writer}
    (h : Tracked history writer) (hsub : history ⊆ later) : Tracked later writer :=
  ⟨hsub h.held, h.tip, h.connected, h.genesis⟩

theorem Consistent.extend {history later : List StoredChain} {w : World}
    (h : Consistent history w) (hsub : history ⊆ later) (hlinked : later.IsChain Committed)
    {file : DatabaseFile} (hdisk : OnDisk later file) (i : Nat) {slot : Option Writer}
    (hslot : forall writer, slot = some writer -> Tracked later writer) :
    Consistent later ⟨file, Function.update w.writers i slot⟩ := by
  refine ⟨hdisk, hlinked, ?_⟩
  intro j writer hwriter
  by_cases hj : j = i
  · rw [hj] at hwriter
    simp only [Function.update_self] at hwriter
    exact hslot writer hwriter
  · simp only [Function.update_of_ne hj] at hwriter
    exact (h.tracked j writer hwriter).mono hsub

theorem Consistent.grow {history : List StoredChain} {w : World} (h : Consistent history w)
    {writer : Writer} (htracked : Tracked history writer) {call : Blockchain.Call}
    {next : Live} {block : Option Block} {db db' : Database}
    (hprepare : Blockchain.prepare (Blockchain.live writer.chain) call =
      .ok (some (next, block)))
    (hfile : w.file = .present db) (hheld : Represents db writer.chain.held)
    (hnext : Represents db' (next.at_ (writer.chain.revision + 1))) :
    (history ++ [next.at_ (writer.chain.revision + 1)]).IsChain Committed ∧
      OnDisk (history ++ [next.at_ (writer.chain.revision + 1)]) (.present db') := by
  rcases h.current htracked with ⟨other, last, hother, _, hlast, hrepresents, _⟩
  rw [hfile] at hother
  cases hother
  have heq := hheld.unique hrepresents
  subst heq
  constructor
  · refine List.IsChain.append h.linked (List.IsChain.singleton _) ?_
    intro first hfirst second hsecond
    rw [hlast] at hfirst
    cases hfirst
    cases hsecond
    exact ⟨call, block, Blockchain.prepare_prepares hprepare, rfl⟩
  · exact Or.inl ⟨_, List.getLast?_concat, hnext⟩

theorem Consistent.call_step {history : List StoredChain} {w : World}
    (h : Consistent history w) (i : Nat) (faults : Faults) (call : Blockchain.Call) :
    exists later, history ⊆ later ∧
      Consistent later (machine.step (.call i faults call) w).2 := by
  simp only [machine]
  cases hwriter : w.writers i with
  | none => exact ⟨history, List.Subset.refl _, h⟩
  | some writer =>
      have htracked := h.tracked i writer hwriter
      have houtcome := perform_outcome h htracked faults call
      simp only
      generalize Blockchain.perform (some (SQLiteChainStore.operations faults)) call
        writer.chain (w.connection writer) = outcome at houtcome
      unfold update
      cases houtcome with
      | refused _ =>
          refine ⟨history, List.Subset.refl _, h.extend (List.Subset.refl _) h.linked h.disk i ?_⟩
          intro other heq
          cases heq
          exact htracked
      | idle _ _ =>
          refine ⟨history, List.Subset.refl _, h.extend (List.Subset.refl _) h.linked h.disk i ?_⟩
          intro other heq
          cases heq
          exact htracked
      | lost _ =>
          refine ⟨history, List.Subset.refl _, h.extend (List.Subset.refl _) h.linked h.disk i ?_⟩
          intro other heq
          cases heq
          exact ⟨htracked.held, htracked.tip, htracked.connected, htracked.genesis⟩
      | landed hprepare hfile hheld hnext =>
          rcases h.grow htracked hprepare hfile hheld hnext with ⟨hlinked, hdisk⟩
          refine ⟨_, List.subset_append_left _ _,
            h.extend (List.subset_append_left _ _) hlinked hdisk i ?_⟩
          intro other heq
          cases heq
          exact ⟨List.mem_append_left _ htracked.held, htracked.tip,
            fun _ => ⟨rfl, rfl⟩, htracked.genesis⟩
      | committed hprepare hfile hheld hnext =>
          rcases h.grow htracked hprepare hfile hheld hnext with ⟨hlinked, hdisk⟩
          refine ⟨_, List.subset_append_left _ _,
            h.extend (List.subset_append_left _ _) hlinked hdisk i ?_⟩
          intro other heq
          cases heq
          rcases hnext.sound.valid with ⟨tip, hvalid⟩
          exact ⟨List.mem_append_right _ List.mem_cons_self, ⟨tip, hvalid.getLast?⟩,
            fun _ => ⟨rfl, rfl⟩, htracked.genesis⟩

theorem Consistent.open_file {history : List StoredChain} {w : World}
    (h : Consistent history w) {file : DatabaseFile} (hfile : OpenedFile w.file file) :
    exists later, history ⊆ later ∧ later.IsChain Committed ∧ OnDisk later file := by
  have hdisk := h.disk
  generalize w.file = before at hfile hdisk
  cases hfile with
  | same => exact ⟨history, List.Subset.refl _, h.linked, hdisk⟩
  | created => exact ⟨history, List.Subset.refl _, h.linked, hdisk⟩
  | @initialized genesis limits hgenesis =>
      have hnil : history = [] := hdisk
      subst hnil
      exact ⟨[genesisChain genesis limits], List.nil_subset _, List.IsChain.singleton _,
        Or.inl ⟨_, rfl, represents_initialized hgenesis limits⟩⟩

theorem Consistent.open_step {history : List StoredChain} {w : World}
    (h : Consistent history w) (i : Nat) (faults : Faults) (clock : Clock)
    (maxTransactions maxBytes : Option Int) :
    exists later, history ⊆ later ∧
      Consistent later (machine.step (.open_ i faults clock maxTransactions maxBytes) w).2 := by
  rcases create_file faults clock maxTransactions maxBytes w.file with ⟨hfile, hchain⟩
  rcases h.open_file hfile with ⟨later, hsub, hlinked, hdisk⟩
  refine ⟨later, hsub, ?_⟩
  simp only [machine]
  rcases houtcome : Blockchain.create (some (SQLiteChainStore.operations faults)) clock
    maxTransactions maxBytes (SQLiteChainStore.unopened w.file) with ⟨answer, store⟩
  rw [houtcome] at hchain hdisk
  cases answer with
  | error e =>
      refine h.extend hsub hlinked hdisk i ?_
      intro writer heq
      cases heq
  | ok chain =>
      refine h.extend hsub hlinked hdisk i ?_
      intro writer heq
      cases heq
      rcases hchain chain rfl with ⟨db, stored, hstore, hrepresents, heq, hgenesis⟩
      have hstore' : store = SQLiteChainStore.opened db := hstore
      subst hstore'
      subst heq
      rcases hdisk with ⟨last, hlast, hlastRepresents⟩ | ⟨_, hnone⟩
      · have hunique := hrepresents.unique hlastRepresents
        subst hunique
        rcases hrepresents.sound.valid with ⟨tip, hvalid⟩
        exact ⟨List.mem_of_getLast? hlast, ⟨tip, hvalid.getLast?⟩, fun _ => ⟨rfl, rfl⟩,
          hgenesis⟩
      · exact absurd hrepresents (hnone stored)

theorem Consistent.close_step {history : List StoredChain} {w : World}
    (h : Consistent history w) (i : Nat) (faults : Faults) :
    Consistent history (machine.step (.close i faults) w).2 := by
  simp only [machine]
  cases hwriter : w.writers i with
  | none => exact h
  | some writer =>
      have htracked := h.tracked i writer hwriter
      simp only [Blockchain.close]
      split
      · refine h.extend (List.Subset.refl _) h.linked h.disk i ?_
        intro other heq
        cases heq
        exact htracked
      · have hfile : (SQLiteChainStore.close faults (w.connection writer)).2.file = w.file :=
          SQLiteChainStore.close_file faults _
        refine h.extend (List.Subset.refl _) h.linked ?_ i ?_
        · change OnDisk history (SQLiteChainStore.close faults (w.connection writer)).2.file
          rw [hfile]
          exact h.disk
        · intro other heq
          cases heq
          refine ⟨htracked.held, htracked.tip, ?_, htracked.genesis⟩
          intro hopen
          cases hopen

theorem Consistent.step {history : List StoredChain} {w : World}
    (h : Consistent history w) (event : Event) :
    exists later, history ⊆ later ∧ Consistent later (machine.step event w).2 := by
  cases event with
  | open_ i faults clock maxTransactions maxBytes =>
      exact h.open_step i faults clock maxTransactions maxBytes
  | call i faults call => exact h.call_step i faults call
  | close i faults => exact ⟨history, List.Subset.refl _, h.close_step i faults⟩
  | crash i =>
      refine ⟨history, List.Subset.refl _, h.extend (List.Subset.refl _) h.linked h.disk i ?_⟩
      intro writer heq
      cases heq

/-- A file nobody has opened yet. -/
def unopened (file : DatabaseFile) : World :=
  { file := file, writers := fun _ => none }

theorem unopened_consistent (file : DatabaseFile) :
    exists history, Consistent history (unopened file) := by
  have hnone : forall (history : List StoredChain) i writer,
      (unopened file).writers i = some writer -> Tracked history writer := by
    intro history i writer heq
    cases heq
  cases file with
  | absent => exact ⟨[], rfl, List.IsChain.nil, hnone []⟩
  | empty => exact ⟨[], rfl, List.IsChain.nil, hnone []⟩
  | present db =>
      by_cases hstored : exists stored, Represents db stored
      · rcases hstored with ⟨stored, hrepresents⟩
        exact ⟨[stored], Or.inl ⟨stored, rfl, hrepresents⟩, List.IsChain.singleton _,
          hnone [stored]⟩
      · exact ⟨[], Or.inr ⟨rfl, not_exists.mp hstored⟩, List.IsChain.nil, hnone []⟩

theorem run_consistent (events : List Event) (file : DatabaseFile) :
    exists history, Consistent history (machine.run events (unopened file)) := by
  have hstep : forall event w, (exists history, Consistent history w) ->
      exists history, Consistent history (machine.step event w).2 := by
    intro event w h
    rcases h with ⟨history, h⟩
    rcases h.step event with ⟨later, _, hlater⟩
    exact ⟨later, hlater⟩
  exact machine.run_invariant hstep events (unopened file) (unopened_consistent file)

/-!
## What an event writes
-/

/-- The files an event may leave behind: the same one, a new one on opening, or
the commit of one operation on what the file represents. -/
inductive Writes (w : World) : Event -> DatabaseFile -> Prop where
  | kept (event : Event) : Writes w event w.file
  | opened {i : Nat} {faults : Faults} {clock : Clock} {maxTransactions maxBytes : Option Int}
      {file : DatabaseFile} :
      OpenedFile w.file file ->
      Writes w (.open_ i faults clock maxTransactions maxBytes) file
  | committed {i : Nat} {faults : Faults} {call : Blockchain.Call} {writer : Writer}
      {next : Live} {block : Option Block} {db db' : Database} :
      w.writers i = some writer ->
      Blockchain.prepare (Blockchain.live writer.chain) call = .ok (some (next, block)) ->
      w.file = .present db -> Represents db writer.chain.held ->
      Represents db' (next.at_ (writer.chain.revision + 1)) ->
      Writes w (.call i faults call) (.present db')

theorem Consistent.writes {history : List StoredChain} {w : World}
    (h : Consistent history w) (event : Event) :
    Writes w event (machine.step event w).2.file := by
  cases event with
  | open_ i faults clock maxTransactions maxBytes =>
      have hfile := (create_file faults clock maxTransactions maxBytes w.file).left
      simp only [machine]
      rcases houtcome : Blockchain.create (some (SQLiteChainStore.operations faults)) clock
        maxTransactions maxBytes (SQLiteChainStore.unopened w.file) with ⟨answer, store⟩
      rw [houtcome] at hfile
      cases answer with
      | error e => exact Writes.opened hfile
      | ok chain => exact Writes.opened hfile
  | call i faults call =>
      simp only [machine]
      cases hwriter : w.writers i with
      | none => exact Writes.kept _
      | some writer =>
          have houtcome := perform_outcome h (h.tracked i writer hwriter) faults call
          simp only
          generalize Blockchain.perform (some (SQLiteChainStore.operations faults)) call
            writer.chain (w.connection writer) = outcome at houtcome
          cases houtcome with
          | refused _ => exact Writes.kept _
          | idle _ _ => exact Writes.kept _
          | lost _ => exact Writes.kept _
          | landed hprepare hfile hheld hnext =>
              exact Writes.committed hwriter hprepare hfile hheld hnext
          | committed hprepare hfile hheld hnext =>
              exact Writes.committed hwriter hprepare hfile hheld hnext
  | close i faults =>
      simp only [machine]
      cases hwriter : w.writers i with
      | none => exact Writes.kept _
      | some writer =>
          simp only [Blockchain.close]
          split
          · exact Writes.kept _
          · change Writes w _ (SQLiteChainStore.close faults (w.connection writer)).2.file
            rw [SQLiteChainStore.close_file]
            exact Writes.kept _
  | crash i => exact Writes.kept _

/-- Two successive contents of the file. -/
inductive FileStep : DatabaseFile -> DatabaseFile -> Prop where
  | kept (file : DatabaseFile) : FileStep file file
  | opened {before after : DatabaseFile} : OpenedFile before after -> FileStep before after
  | committed {db db' : Database} {stored : StoredChain} {call : Blockchain.Call}
      {next : Live} {block : Option Block} :
      Represents db stored -> Prepares stored.live call next block ->
      Represents db' (next.at_ (stored.revision + 1)) ->
      FileStep (.present db) (.present db')

theorem Writes.fileStep {w : World} {event : Event} {file : DatabaseFile}
    (h : Writes w event file) : FileStep w.file file := by
  cases h with
  | kept => exact FileStep.kept _
  | opened hfile => exact FileStep.opened hfile
  | committed _ hprepare hfile hheld hnext =>
      rw [hfile]
      exact FileStep.committed hheld (Blockchain.prepare_prepares hprepare) hnext

/-- The contents the file goes through. -/
def files : List Event -> World -> List DatabaseFile
  | [], w => [w.file]
  | event :: rest, w => w.file :: files rest (machine.step event w).2

theorem files_head (events : List Event) (w : World) :
    exists rest, files events w = w.file :: rest := by
  cases events with
  | nil => exact ⟨[], rfl⟩
  | cons event rest => exact ⟨_, rfl⟩

theorem files_isChain (events : List Event) :
    forall w, (exists history, Consistent history w) ->
      (files events w).IsChain FileStep := by
  induction events with
  | nil =>
      intro w _
      exact List.IsChain.singleton _
  | cons event rest ih =>
      intro w hw
      rcases hw with ⟨history, h⟩
      rcases h.step event with ⟨later, _, hlater⟩
      have hrest := ih _ ⟨later, hlater⟩
      rcases files_head rest (machine.step event w).2 with ⟨tail, htail⟩
      rw [files, htail]
      rw [htail] at hrest
      exact List.IsChain.cons_cons (h.writes event).fileStep hrest

/-!
## Failed instances
-/

/-- An operation that raises on an instance. -/
def Raised {result : Type} (outcome : Except PyError result) : Prop :=
  exists e, outcome = .error e

/-- An instance that raises on every operation and changes nothing. -/
structure Refuses (chain : Blockchain) : Prop where
  calls : forall faults call store, exists e,
    Blockchain.perform (some (SQLiteChainStore.operations faults)) call chain store =
      (.error e, chain, store)
  validateChain : forall clock, Raised (Blockchain.validateChain chain clock)
  height : Raised (Blockchain.height chain)
  getBalance : forall address, Raised (Blockchain.getBalance chain address)
  getMempoolStats : Raised (Blockchain.getMempoolStats chain)
  getLatestBlock : Raised (Blockchain.getLatestBlock chain)
  getLatestBlockInfo : Raised (Blockchain.getLatestBlockInfo chain)
  getBlockByHeight : forall height, Raised (Blockchain.getBlockByHeight chain height)
  getBlockByHash : forall blockHash, Raised (Blockchain.getBlockByHash chain blockHash)
  getBlocks : forall startHeight limit, Raised (Blockchain.getBlocks chain startHeight limit)
  findTransaction : forall txid, Raised (Blockchain.findTransaction chain txid)
  getAddressInfo : forall address, Raised (Blockchain.getAddressInfo chain address)
  walletState : forall address, Raised (Blockchain.walletState chain address)
  getWalletHistory : forall address start limit,
    Raised (Blockchain.getWalletHistory chain address start limit)
  createBlockTemplate : forall minerAddress transactions timestamp wallClock,
    Raised (Blockchain.createBlockTemplate chain minerAddress transactions timestamp wallClock)
  createMempoolBlockTemplate : forall minerAddress timestamp wallClock maxTransactions maxBytes,
    Raised (Blockchain.createMempoolBlockTemplate chain minerAddress timestamp wallClock
      maxTransactions maxBytes)

theorem refuses_of_unusable {chain : Blockchain} {e : PyError}
    (h : Blockchain.ensureUsable chain = .error e) : Refuses chain := by
  have hraised : forall {result : Type} (rest : Unit -> Except PyError result),
      Raised (Blockchain.ensureUsable chain >>= rest) := by
    intro result rest
    rw [h]
    exact ⟨e, rfl⟩
  have hinfo : forall address, Raised (Blockchain.getAddressInfo chain address) :=
    fun _ => hraised _
  refine
    { calls := fun faults call store => ⟨e, Blockchain.perform_unusable _ call chain store h⟩
      validateChain := fun _ => hraised _
      height := hraised _
      getBalance := fun _ => hraised _
      getMempoolStats := hraised _
      getLatestBlock := hraised _
      getLatestBlockInfo := hraised _
      getBlockByHeight := fun _ => hraised _
      getBlockByHash := fun _ => hraised _
      getBlocks := fun _ _ => hraised _
      findTransaction := fun _ => hraised _
      getAddressInfo := hinfo
      walletState := ?_
      getWalletHistory := fun _ _ _ => hraised _
      createBlockTemplate := fun _ _ _ _ => hraised _
      createMempoolBlockTemplate := fun _ _ _ _ _ => hraised _ }
  intro address
  rcases hinfo address with ⟨raised, hinfo⟩
  unfold Blockchain.walletState
  rw [hinfo]
  exact ⟨raised, rfl⟩

omit [Crypto] in
theorem ensureUsable_failed {chain : Blockchain} (h : chain.storageFailed = true) :
    exists e, Blockchain.ensureUsable chain = .error e := by
  unfold Blockchain.ensureUsable
  cases chain.closed with
  | true => exact ⟨_, rfl⟩
  | false =>
      rw [h]
      exact ⟨_, rfl⟩

/-- An event that opens a new instance in this place. -/
def Event.opens (i : Nat) : Event -> Prop
  | .open_ j _ _ _ _ => j = i
  | _ => False

/-- A place whose instance, if it is still there, failed while holding a chain. -/
def Failed (i : Nat) (held : StoredChain) (w : World) : Prop :=
  forall writer, w.writers i = some writer ->
    writer.chain.storageFailed = true ∧ writer.chain.held = held

theorem failed_step {i : Nat} {held : StoredChain} {w : World} (h : Failed i held w)
    {event : Event} (hevent : ¬ event.opens i) :
    Failed i held (machine.step event w).2 := by
  have hother : forall j file slot, j ≠ i ->
      Failed i held ⟨file, Function.update w.writers j slot⟩ := by
    intro j file slot hj writer hwriter
    have hi : i ≠ j := fun heq => hj heq.symm
    simp only [Function.update_of_ne hi] at hwriter
    exact h writer hwriter
  have hself : forall file chain connected closed, chain.storageFailed = true ->
      chain.held = held ->
      Failed i held ⟨file, Function.update w.writers i (some ⟨chain, connected, closed⟩)⟩ := by
    intro file chain connected closed hfailed hheld writer hwriter
    simp only [Function.update_self, Option.some.injEq] at hwriter
    subst hwriter
    exact ⟨hfailed, hheld⟩
  cases event with
  | open_ j faults clock maxTransactions maxBytes =>
      simp only [machine]
      rcases Blockchain.create (some (SQLiteChainStore.operations faults)) clock
        maxTransactions maxBytes (SQLiteChainStore.unopened w.file) with ⟨answer, store⟩
      cases answer with
      | error e => exact hother j _ _ hevent
      | ok chain => exact hother j _ _ hevent
  | call j faults call =>
      simp only [machine]
      cases hwriter : w.writers j with
      | none => exact h
      | some writer =>
          by_cases hj : j = i
          · subst hj
            rcases h writer hwriter with ⟨hfailed, hheld⟩
            rcases ensureUsable_failed hfailed with ⟨e, husable⟩
            simp only [Blockchain.perform_unusable _ call writer.chain _ husable]
            exact hself _ _ _ _ hfailed hheld
          · exact hother j _ _ hj
  | close j faults =>
      simp only [machine]
      cases hwriter : w.writers j with
      | none => exact h
      | some writer =>
          by_cases hj : j = i
          · subst hj
            rcases h writer hwriter with ⟨hfailed, hheld⟩
            simp only [Blockchain.close]
            split
            · exact hself _ _ _ _ hfailed hheld
            · exact hself _ _ _ _ hfailed hheld
          · exact hother j _ _ hj
  | crash j =>
      by_cases hj : j = i
      · subst hj
        intro writer hwriter
        simp only [machine, remove, Function.update_self] at hwriter
        cases hwriter
      · exact hother j _ _ hj

theorem failed_run {i : Nat} {held : StoredChain} (events : List Event) :
    forall w, Failed i held w -> (forall event, event ∈ events -> ¬ event.opens i) ->
      Failed i held (machine.run events w) := by
  induction events with
  | nil =>
      intro w h _
      exact h
  | cons event rest ih =>
      intro w h hevents
      rw [List.forall_mem_cons] at hevents
      exact ih _ (failed_step h hevents.left) hevents.right

/-!
## Opening the file again
-/

/-- Every instance that comes up on the file holds this chain, and one comes up
under the stored limits at a time that is late enough. -/
structure ReopensAs (file : DatabaseFile) (stored : StoredChain) : Prop where
  only : forall faults clock maxTransactions maxBytes chain store,
    Blockchain.create (some (SQLiteChainStore.operations faults)) clock maxTransactions
      maxBytes (SQLiteChainStore.unopened file) = (.ok chain, store) ->
    chain.held = stored
  succeeds : forall clock now maxTransactions maxBytes,
    resolveCurrentTime clock = .ok now -> TimelyAt now stored.blocks ->
    MatchesLimits maxTransactions maxBytes stored.mempool.limits ->
    exists chain store,
      Blockchain.create (some (SQLiteChainStore.operations Faults.none)) clock
        maxTransactions maxBytes (SQLiteChainStore.unopened file) = (.ok chain, store) ∧
      chain.held = stored

theorem reopensAs_of_represents {genesis : Block} (hgenesis : createGenesisBlock = .ok genesis)
    {db : Database} {stored : StoredChain} (h : Represents db stored) :
    ReopensAs (.present db) stored where
  only := by
    intro faults clock maxTransactions maxBytes chain store heq
    rcases create_file faults clock maxTransactions maxBytes (.present db) with
      ⟨hfile, hchain⟩
    rw [heq] at hfile hchain
    rcases hchain chain rfl with ⟨other, loaded, hstore, hloaded, hinstance, _⟩
    have hstore' : store = SQLiteChainStore.opened other := hstore
    subst hstore'
    have hsame : OpenedFile (.present db) (.present other) := hfile
    cases hsame with
    | same =>
        rw [h.unique hloaded, hinstance]
        rfl
  succeeds := by
    intro clock now maxTransactions maxBytes hnow htimely hlimits
    exact ⟨_, _, Session.create_present hgenesis h hnow htimely hlimits, rfl⟩

/-- After a failed commit the instance holds what it held and refuses everything
for as long as it lives, and the file reopens as what it represented before, or
as the transition the instance prepared from exactly that. -/
structure Interrupted (w : World) (i : Nat) (writer : Writer) (next : Live)
    (w' : World) : Prop where
  keeps : exists failed, w'.writers i = some failed ∧ failed.chain.held = writer.chain.held
  refuses : forall later, (forall event, event ∈ later -> ¬ event.opens i) ->
    forall failed, (machine.run later w').writers i = some failed ->
      failed.chain.held = writer.chain.held ∧ Refuses failed.chain
  reopens : exists db stored, w.file = .present db ∧ Represents db stored ∧
    (ReopensAs w'.file stored ∨
      (stored = writer.chain.held ∧
        ReopensAs w'.file (next.at_ (writer.chain.revision + 1))))

/-- An acknowledged call was computed from the file and is in the file and in its
instance. -/
structure Acknowledged (w : World) (i : Nat) (call : Blockchain.Call) (w' : World) :
    Prop where
  durable : exists writer next block db db' after,
    w.writers i = some writer ∧
      Blockchain.prepare (Blockchain.live writer.chain) call = .ok (some (next, block)) ∧
      w.file = .present db ∧ Represents db writer.chain.held ∧
      w'.file = .present db' ∧ Represents db' (next.at_ (writer.chain.revision + 1)) ∧
      w'.writers i = some after ∧
      after.chain.held = next.at_ (writer.chain.revision + 1)

/-- What holds of every event in every run. -/
structure Disciplined (w : World) (event : Event) : Prop where
  writes : Writes w event (machine.step event w).2.file
  acknowledged : forall i faults call, event = .call i faults call ->
    (machine.step event w).1 = some (.ok true) ->
    Acknowledged w i call (machine.step event w).2
  stale : forall i faults call writer, event = .call i faults call ->
    w.writers i = some writer ->
    (forall db, w.file = .present db -> ¬ Represents db writer.chain.held) ->
    (machine.step event w).2.file = w.file
  interrupted : forall i faults call writer next block e, event = .call i faults call ->
    w.writers i = some writer -> Blockchain.ensureUsable writer.chain = .ok () ->
    Blockchain.prepare (Blockchain.live writer.chain) call = .ok (some (next, block)) ->
    (machine.step event w).1 = some (.error e) ->
    Interrupted w i writer next (machine.step event w).2

theorem refuses_later {i : Nat} {held : StoredChain} {w : World} (h : Failed i held w)
    (later : List Event) (hlater : forall event, event ∈ later -> ¬ event.opens i)
    (failed : Writer) (hfailed : (machine.run later w).writers i = some failed) :
    failed.chain.held = held ∧ Refuses failed.chain := by
  rcases failed_run later w h hlater failed hfailed with ⟨hstorage, hheld⟩
  rcases ensureUsable_failed hstorage with ⟨e, husable⟩
  exact ⟨hheld, refuses_of_unusable husable⟩

omit [Crypto] in
theorem failed_update (w : World) (i : Nat) (chain : Blockchain) (store : SQLiteChainStore) :
    (w.update i chain.failed store).writers i =
        some ⟨chain.failed, store.connected, store.closed⟩ ∧
      Failed i chain.held (w.update i chain.failed store) := by
  refine ⟨Function.update_self _ _ _, ?_⟩
  unfold update
  intro writer hwriter
  simp only [Function.update_self, Option.some.injEq] at hwriter
  subst hwriter
  exact ⟨rfl, rfl⟩

theorem Consistent.interrupted {history : List StoredChain} {w : World}
    (h : Consistent history w) {i : Nat} {faults : Faults} {call : Blockchain.Call}
    {writer : Writer} {next : Live} {block : Option Block} {e : PyError}
    (hwriter : w.writers i = some writer)
    (husable : Blockchain.ensureUsable writer.chain = .ok ())
    (hprepare : Blockchain.prepare (Blockchain.live writer.chain) call =
      .ok (some (next, block)))
    (herror : (machine.step (.call i faults call) w).1 = some (.error e)) :
    Interrupted w i writer next (machine.step (.call i faults call) w).2 := by
  have htracked := h.tracked i writer hwriter
  rcases htracked.genesis with ⟨genesis, hgenesis⟩
  rcases h.current htracked with ⟨db, stored, hfile, _, _, hrepresents, _⟩
  have houtcome := perform_outcome h htracked faults call
  simp only [machine, hwriter] at herror ⊢
  generalize Blockchain.perform (some (SQLiteChainStore.operations faults)) call
    writer.chain (w.connection writer) = outcome at houtcome herror
  cases houtcome with
  | refused hunusable =>
      rw [husable] at hunusable
      cases hunusable
  | idle hnone _ => exact absurd hprepare (hnone _)
  | lost _ =>
      rcases failed_update w i writer.chain (w.connection writer) with ⟨hplace, hfailed⟩
      refine ⟨⟨_, hplace, rfl⟩, refuses_later hfailed, db, stored, hfile, hrepresents, ?_⟩
      apply Or.inl
      change ReopensAs w.file stored
      rw [hfile]
      exact reopensAs_of_represents hgenesis hrepresents
  | @landed other otherBlock before after _ hother hbefore hheld hnext =>
      rw [hfile] at hbefore
      cases hbefore
      rw [hprepare] at hother
      cases hother
      rcases failed_update w i writer.chain (SQLiteChainStore.opened after) with
        ⟨hplace, hfailed⟩
      refine ⟨⟨_, hplace, rfl⟩, refuses_later hfailed, db, stored, hfile, hrepresents, ?_⟩
      exact Or.inr ⟨hrepresents.unique hheld, reopensAs_of_represents hgenesis hnext⟩
  | committed _ _ _ _ => cases herror

theorem Consistent.acknowledged {history : List StoredChain} {w : World}
    (h : Consistent history w) {i : Nat} {faults : Faults} {call : Blockchain.Call}
    (htrue : (machine.step (.call i faults call) w).1 = some (.ok true)) :
    Acknowledged w i call (machine.step (.call i faults call) w).2 := by
  simp only [machine] at htrue ⊢
  cases hwriter : w.writers i with
  | none =>
      rw [hwriter] at htrue
      cases htrue
  | some writer =>
      have houtcome := perform_outcome h (h.tracked i writer hwriter) faults call
      rw [hwriter] at htrue
      simp only [Option.some.injEq] at htrue ⊢
      generalize Blockchain.perform (some (SQLiteChainStore.operations faults)) call
        writer.chain (w.connection writer) = outcome at houtcome htrue
      cases houtcome with
      | refused _ => cases htrue
      | idle _ hanswer => exact absurd htrue hanswer
      | lost _ => cases htrue
      | landed _ _ _ _ => cases htrue
      | committed hprepare hfile hheld hnext =>
          exact ⟨writer, _, _, _, _, _, hwriter, hprepare, hfile, hheld, rfl, hnext,
            Function.update_self _ _ _, rfl⟩

theorem Consistent.stale {history : List StoredChain} {w : World}
    (h : Consistent history w) {i : Nat} {faults : Faults} {call : Blockchain.Call}
    {writer : Writer} (hwriter : w.writers i = some writer)
    (hstale : forall db, w.file = .present db -> ¬ Represents db writer.chain.held) :
    (machine.step (.call i faults call) w).2.file = w.file := by
  have hwrites := h.writes (.call i faults call)
  generalize (machine.step (.call i faults call) w).2.file = file at hwrites
  cases hwrites with
  | kept => rfl
  | committed hother _ hfile hheld _ =>
      rw [hwriter] at hother
      cases hother
      exact absurd hheld (hstale _ hfile)

/-- Any number of instances on one file, called in any order under any faults: the
contents of the file form one sequence of single operations, each computed from
the content before it. -/
theorem writers_serialised (file : DatabaseFile) (events : List Event) :
    (files events (unopened file)).IsChain FileStep ∧
      forall done event rest, events = done ++ event :: rest ->
        Disciplined (machine.run done (unopened file)) event := by
  refine ⟨files_isChain events _ (unopened_consistent file), ?_⟩
  intro done event rest _
  rcases run_consistent done file with ⟨history, h⟩
  refine ⟨h.writes event, ?_, ?_, ?_⟩
  · intro i faults call hevent htrue
    subst hevent
    exact h.acknowledged htrue
  · intro i faults call writer hevent hwriter hstale
    subst hevent
    exact h.stale hwriter hstale
  · intro i faults call writer next block e hevent hwriter husable hprepare herror
    subst hevent
    exact h.interrupted hwriter husable hprepare herror

end World

/-!
## Two writers on the sample network
-/

namespace Sample

def newFile : DatabaseFile :=
  .present (@initialized crypto genesis limits)

theorem newFile_represents :
    @Represents crypto (@initialized crypto genesis limits) (Blockchain.held start) :=
  @represents_initialized crypto genesis createGenesisBlock_sample limits

/-- Two instances are opened, and the first one commits a block. -/
def conflicting : List World.Event :=
  [.open_ 0 Faults.none clock none none, .open_ 1 Faults.none clock none none,
    .call 0 Faults.none (.addBlock first clock)]

theorem newFile_opens :
    @Blockchain.create crypto SQLiteChainStore
        (some (@SQLiteChainStore.operations crypto Faults.none)) clock none none
        (SQLiteChainStore.unopened newFile) =
      (.ok start, SQLiteChainStore.opened (@initialized crypto genesis limits)) :=
  @Session.create_present crypto genesis createGenesisBlock_sample _ _ newFile_represents
    clock 1788652920 rfl (fun _ hblock => by cases hblock) none none
    ⟨Or.inl rfl, Or.inl rfl⟩

theorem newFile_matches :
    @Session.Matches crypto []
      (start, SQLiteChainStore.opened (@initialized crypto genesis limits)) start :=
  @Session.Matches.mk crypto [] _ start ⟨_, rfl, newFile_represents⟩ rfl rfl rfl rfl
    (Nat.le_refl 0)

theorem first_committed :
    exists chain db,
      @Blockchain.perform crypto SQLiteChainStore
          (some (@SQLiteChainStore.operations crypto Faults.none)) (.addBlock first clock)
          start (SQLiteChainStore.opened (@initialized crypto genesis limits)) =
        (.ok true, chain, SQLiteChainStore.opened db) ∧
      @Represents crypto db (Blockchain.held chain) ∧ chain.revision = 1 := by
  have hallowed : @Session.Allowed crypto [] (.call (.addBlock first clock)) start := by
    intro _
    have hstep := first_call
    unfold Session.memory at hstep
    simp only [Prod.mk.injEq] at hstep
    rw [hstep.right]
    exact ⟨by decide, oneBlock_indexes⟩
  rcases @Session.matches_call crypto [] _ start (.addBlock first clock) newFile_matches
    hallowed with ⟨hanswer, hmatches⟩
  rw [first_call] at hanswer hmatches
  rcases houtcome : @Blockchain.perform crypto SQLiteChainStore
    (some (@SQLiteChainStore.operations crypto Faults.none)) (.addBlock first clock)
    start (SQLiteChainStore.opened (@initialized crypto genesis limits)) with
    ⟨answer, chain, store⟩
  have hstep : (@Session.persistent crypto).step (.call (.addBlock first clock))
      (start, SQLiteChainStore.opened (@initialized crypto genesis limits)) =
        (.returned answer, chain, store) := by
    unfold Session.persistent Session.store
    simp only [houtcome]
  rw [hstep] at hanswer hmatches
  have htrue : answer = .ok true := Session.Answer.returned.inj hanswer
  rcases @Session.Matches.opened crypto _ _ _ hmatches with ⟨db, hstore, hrepresents⟩
  have hstore' : store = SQLiteChainStore.opened db := hstore
  have hrevision : chain.revision = 1 := @Session.Matches.revision crypto _ _ _ hmatches
  rw [htrue, hstore']
  exact ⟨chain, db, rfl, hrepresents, hrevision⟩

theorem conflicting_world :
    exists db stored,
      ((@World.machine crypto).run conflicting (World.unopened newFile)).file = .present db ∧
        @Represents crypto db stored ∧ stored.revision = 1 ∧
        ((@World.machine crypto).run conflicting (World.unopened newFile)).writers 1 =
          some ⟨start, true, false⟩ := by
  rcases first_committed with ⟨chain, db, hperform, hrepresents, hrevision⟩
  have hopen : forall w i, World.file w = newFile ->
      (@World.machine crypto).step (.open_ i Faults.none clock none none) w =
        (some (.ok true), w.update i start
          (SQLiteChainStore.opened (@initialized crypto genesis limits))) := by
    intro w i hfile
    simp only [World.machine, hfile, newFile_opens]
  have hcall : forall w, World.file w = newFile ->
      w.writers 0 = some ⟨start, true, false⟩ ->
      (@World.machine crypto).step (.call 0 Faults.none (.addBlock first clock)) w =
        (some (.ok true), w.update 0 chain (SQLiteChainStore.opened db)) := by
    intro w hfile hwriter
    have hconnection : w.connection ⟨start, true, false⟩ =
        SQLiteChainStore.opened (@initialized crypto genesis limits) := by
      unfold World.connection
      rw [hfile]
      rfl
    simp only [World.machine, hwriter, hconnection, hperform]
  unfold conflicting
  rw [Machine.run, hopen _ 0 rfl, Machine.run, hopen _ 1 rfl, Machine.run, hcall _ rfl rfl,
    Machine.run]
  exact ⟨db, Blockchain.held chain, rfl, hrepresents, hrevision, rfl⟩

end Sample

/-- The second instance, which holds an older revision, leaves the file alone. -/
theorem World.writers_serialised_sample :
    exists db stored,
      ((@World.machine Sample.crypto).run Sample.conflicting
        (World.unopened Sample.newFile)).file = .present db ∧
      @Represents Sample.crypto db stored ∧ stored.revision = 1 ∧
      ((@World.machine Sample.crypto).step
        (.call 1 Faults.none (.addBlock Sample.first Sample.clock))
        ((@World.machine Sample.crypto).run Sample.conflicting
          (World.unopened Sample.newFile))).2.file = .present db := by
  rcases Sample.conflicting_world with ⟨db, stored, hfile, hrepresents, hrevision, hwriter⟩
  refine ⟨db, stored, hfile, hrepresents, hrevision, ?_⟩
  have hdisciplined := (@World.writers_serialised Sample.crypto Sample.newFile
    (Sample.conflicting ++ [.call 1 Faults.none (.addBlock Sample.first Sample.clock)])).right
    Sample.conflicting _ [] rfl
  rw [← hfile]
  refine @World.Disciplined.stale Sample.crypto _ _ hdisciplined 1 _ _ _ rfl hwriter ?_
  intro other hother hheld
  rw [hfile] at hother
  cases hother
  have heq := @Represents.unique Sample.crypto db stored _ hrepresents hheld
  rw [heq] at hrevision
  cases hrevision

end PyChain
