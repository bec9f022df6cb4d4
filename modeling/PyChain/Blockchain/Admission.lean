import PyChain.Blockchain.Revalidation

/-!
# Admission at most once

There is no list of transactions already seen by the pool.  What keeps a
transaction from being admitted twice is the ledger: an input that a dropped
transaction misses was spent by a confirmed one, or belongs to a transaction
that was dropped before it, and neither can ever be offered again.
-/

namespace PyChain

open Foundation

section Admission

variable [Crypto]

/-- The bytes behind the identifiers of some transactions. -/
def EncodingOf (known : Transaction -> Prop) (data : Bytes) : Prop :=
  exists transaction, known transaction ∧ data = transaction.encoding

namespace Blockchain

/-- An output that is never offered again.  It was spent, or only a transaction
that spends such an output itself could make it. -/
inductive Lost (known : Transaction -> Prop) (state : ChainState) : OutPoint -> Prop where
  | spent {outpoint : OutPoint} :
      outpoint.1 ∈ state.seenTxids -> outpoint ∉ state.utxoSet.keys ->
      Lost known state outpoint
  | orphan {outpoint input : OutPoint} {transaction : Transaction} :
      known transaction -> outpoint.1 = transaction.txid ->
      transaction.txid ∉ state.seenTxids -> input ∈ transaction.spentOutpoints ->
      Lost known state input -> Lost known state outpoint

/-- A transaction that can never be applied. -/
def Barred (known : Transaction -> Prop) (state : ChainState) (transaction : Transaction) :
    Prop :=
  exists input, input ∈ transaction.spentOutpoints ∧ Lost known state input

variable {known : Transaction -> Prop}

theorem known_unique (hfree : CollisionFreeOn (EncodingOf known))
    {transaction other : Transaction} (h : known transaction) (h' : known other)
    (htxid : transaction.txid = other.txid) : transaction = other :=
  Transaction.encoding_injective
    (hfree.hex_injective ⟨transaction, h, rfl⟩ ⟨other, h', rfl⟩ htxid)

theorem Lost.unspent {state : ChainState} {outpoint : OutPoint}
    (h : Lost known state outpoint)
    (hrecorded : RecordedOutputs state.utxoSet state.seenTxids) :
    outpoint ∉ state.utxoSet.keys := by
  cases h with
  | spent _ hspent => exact hspent
  | orphan _ htxid hunseen _ _ =>
      intro hmem
      apply hunseen
      rw [← htxid]
      exact hrecorded _ hmem

variable {before after : Live} {block : Block} {next : ChainState}

/-!
## Blocks
-/

theorem applied_input (hsound : before.Sound)
    (happly : applyBlockTransactions block before.state = some next)
    {transaction : Transaction} (h : transaction ∈ block.transactions) {outpoint : OutPoint}
    (hspent : outpoint ∈ transaction.spentOutpoints) :
    outpoint ∈ before.state.utxoSet.keys ∨
      exists maker, maker ∈ block.transactions ∧ maker.txid = outpoint.1 := by
  have hexact := applied_exact hsound happly
  have hmem : outpoint ∈ OutputLedger.spentBy (postings block.ledgerOrder) := by
    rw [spentBy_postings, List.mem_flatMap]
    exact ⟨transaction, (mem_ledgerOrder block transaction).mpr h, hspent⟩
  rcases OutputLedger.spentBy_ident hexact hmem with hbase | ⟨posting, hposting, hident⟩
  · exact Or.inl hbase
  · rcases List.mem_map.mp hposting with ⟨maker, hmaker, heq⟩
    subst heq
    exact Or.inr ⟨maker, (mem_ledgerOrder block maker).mp hmaker, hident⟩

theorem Lost.applied (hsound : before.Sound)
    (happly : applyBlockTransactions block before.state = some next)
    (hfree : CollisionFreeOn (EncodingOf known))
    (hknown : forall transaction, transaction ∈ block.transactions -> known transaction)
    {outpoint : OutPoint} (h : Lost known before.state outpoint) :
    (forall maker, maker ∈ block.transactions -> maker.txid ≠ outpoint.1) ∧
      Lost known next outpoint := by
  induction h with
  | @spent outpoint hseen hspent =>
      have hfresh : forall maker, maker ∈ block.transactions -> maker.txid ≠ outpoint.1 := by
        intro maker hmaker htxid
        apply applied_new happly hmaker
        rw [htxid]
        exact hseen
      refine ⟨hfresh, Lost.spent ((applied_seen happly _).mpr (Or.inl hseen)) ?_⟩
      intro hmem
      rcases Dict.exists_get?_of_mem_keys hmem with ⟨output, houtput⟩
      rcases applied_output hsound happly houtput with hold | ⟨maker, hmaker, _, hmade⟩
      · exact hspent (Dict.mem_keys_of_get? hold)
      · exact hfresh maker hmaker (outputItems_txid hmade).symm
  | @orphan outpoint input transaction htransaction htxid hunseen hinput hlost ih =>
      rcases ih with ⟨hnotMade, hlater⟩
      have habsent : transaction ∉ block.transactions := by
        intro hmem
        rcases applied_input hsound happly hmem hinput with hbase | ⟨maker, hmaker, heq⟩
        · exact hlost.unspent hsound.recorded hbase
        · exact hnotMade maker hmaker heq
      have hfresh : forall maker, maker ∈ block.transactions -> maker.txid ≠ outpoint.1 := by
        intro maker hmaker heq
        rw [htxid] at heq
        rw [known_unique hfree (hknown maker hmaker) htransaction heq] at hmaker
        exact habsent hmaker
      refine ⟨hfresh, Lost.orphan htransaction htxid ?_ hinput hlater⟩
      intro hseen
      rcases (applied_seen happly _).mp hseen with hold | hnew
      · exact hunseen hold
      · rcases List.mem_map.mp hnew with ⟨maker, hmaker, heq⟩
        exact hfresh maker hmaker (heq.trans htxid.symm)

/-!
## The pool
-/

theorem Live.Sound.pending_input (hsound : before.Sound) {transaction : Transaction}
    (h : transaction ∈ before.mempool.getTransactions) {outpoint : OutPoint}
    (hspent : outpoint ∈ transaction.spentOutpoints) :
    outpoint ∈ before.state.utxoSet.keys ∨
      exists maker, maker ∈ before.mempool.getTransactions ∧ maker.txid = outpoint.1 := by
  rw [Mempool.getTransactions_eq] at h
  rcases List.mem_map.mp h with ⟨item, hitem, heq⟩
  subst heq
  rcases hsound.coherent.known_input hsound.pool_recorded hitem hspent with ⟨output, hknown⟩
  rcases (hsound.coherent.known_iff hsound.pool_recorded outpoint output).mp hknown with
    hbase | ⟨maker, hmaker, hmade⟩
  · apply Or.inl
    rw [← hsound.utxoSet]
    exact Dict.mem_keys_of_get? hbase
  · exact Or.inr ⟨maker, hmaker, (outputItems_txid hmade).symm⟩

theorem Live.Sound.pending_unseen (hsound : before.Sound) {transaction : Transaction}
    (h : transaction ∈ before.mempool.getTransactions) :
    transaction.txid ∉ before.state.seenTxids := by
  rw [Mempool.getTransactions_eq] at h
  rcases List.mem_map.mp h with ⟨item, hitem, heq⟩
  subst heq
  rcases (hsound.coherent.representation hsound.pool_recorded).keyed item.1 item.2 hitem with
    ⟨hkey, hunseen⟩
  rw [← hkey, ← hsound.seenTxids]
  exact hunseen

theorem Lost.not_pending (hsound : before.Sound) (hfree : CollisionFreeOn (EncodingOf known))
    (hpool : forall transaction, transaction ∈ before.mempool.getTransactions ->
      known transaction)
    {outpoint : OutPoint} (h : Lost known before.state outpoint) :
    forall maker, maker ∈ before.mempool.getTransactions -> maker.txid ≠ outpoint.1 := by
  induction h with
  | spent hseen _ =>
      intro maker hmaker htxid
      apply hsound.pending_unseen hmaker
      rw [htxid]
      exact hseen
  | orphan htransaction htxid _ hinput hlost ih =>
      intro maker hmaker heq
      rw [htxid] at heq
      rw [known_unique hfree (hpool maker hmaker) htransaction heq] at hmaker
      rcases hsound.pending_input hmaker hinput with hbase | ⟨other, hother, hmade⟩
      · exact hlost.unspent hsound.recorded hbase
      · exact ih other hother hmade

theorem Barred.rejected (hsound : before.Sound) (hfree : CollisionFreeOn (EncodingOf known))
    (hpool : forall transaction, transaction ∈ before.mempool.getTransactions ->
      known transaction)
    {transaction : Transaction} (h : Barred known before.state transaction)
    (pool : Mempool) : before.mempool.addTransaction transaction ≠ (true, pool) := by
  intro hadd
  rcases h with ⟨input, hinput, hlost⟩
  rcases Mempool.admitted_of_addTransaction hadd with ⟨fee, hadmitted⟩
  rcases Dict.exists_get?_of_mem_keys (hadmitted.processed.applies.right.left input hinput) with
    ⟨output, houtput⟩
  rcases ((hsound.coherent.working_iff hsound.pool_recorded input output).mp houtput).left with
    hbase | ⟨item, hitem, hmade⟩
  · rw [hsound.utxoSet] at hbase
    exact hlost.unspent hsound.recorded (Dict.mem_keys_of_get? hbase)
  · have hmaker : item.2.transaction ∈ before.mempool.getTransactions := by
      rw [Mempool.getTransactions_eq]
      exact List.mem_map_of_mem hitem
    exact hlost.not_pending hsound hfree hpool _ hmaker (outputItems_txid hmade).symm

/-!
## What a block drops
-/

omit [Crypto] in
theorem mem_pending {pool : Mempool} {item : Str × MempoolEntry}
    (h : item ∈ pool.entries.items) : item.2.transaction ∈ pool.getTransactions := by
  rw [Mempool.getTransactions_eq]
  exact List.mem_map_of_mem h

theorem known_transactionOf (hfree : CollisionFreeOn (EncodingOf known))
    (hknown : forall transaction, transaction ∈ block.transactions -> known transaction)
    {pool : Mempool}
    (hpool : forall transaction, transaction ∈ pool.getTransactions -> known transaction) :
    CollisionFreeOn (TransactionOf block pool) := by
  rintro x y ⟨transaction, hx, hxeq⟩ ⟨other, hy, hyeq⟩ heq
  exact hfree x y ⟨transaction, hx.elim (hknown _) (hpool _), hxeq⟩
    ⟨other, hy.elim (hknown _) (hpool _), hyeq⟩ heq

theorem Prepares.fate {clock : Clock} {appended : Option Block}
    (h : Prepares before (.addBlock block clock) after appended) (hsound : before.Sound)
    (hfree : CollisionFreeOn (EncodingOf known))
    (hknown : forall transaction, transaction ∈ block.transactions -> known transaction)
    (hpool : forall transaction, transaction ∈ before.mempool.getTransactions ->
      known transaction)
    {item : Str × MempoolEntry} (hitem : item ∈ before.mempool.entries.items) :
    item.1 ∈ after.state.seenTxids ∨ item ∈ after.mempool.entries.items ∨
      Barred known after.state item.2.transaction := by
  rw [h.survivors hsound (known_transactionOf hfree hknown hpool)]
  cases h with
  | @addBlock _ tip _ now nextState htip hnow hlinked htimely happly hfresh =>
      simp only
      have hrepresentation := hsound.coherent.representation hsound.pool_recorded
      by_cases hblock : item.1 ∈ block.transactions.map Transaction.txid
      · exact Or.inl ((applied_seen happly _).mpr (Or.inr hblock))
      apply Or.inr
      refine Mempool.survivors_cases nextState.utxoSet
        (P := fun item => Barred known nextState item.2.transaction) ?_ item
        (List.mem_filter.mpr ⟨hitem, by simpa using hblock⟩)
      intro done item rest hsplit hdone hunfunded
      rcases List.filter_eq_append_iff.mp hsplit with ⟨front, back, hitems, hfront, hback⟩
      rcases List.filter_eq_cons_iff.mp hback with ⟨skipped, later, hbackEq, hskipped, _, _⟩
      unfold Mempool.Funded at hunfunded
      push Not at hunfunded
      rcases hunfunded with ⟨input, hinput, hunconfirmed, hunmade⟩
      refine ⟨input, hinput, ?_⟩
      have hposition : before.mempool.entries.items =
          (front ++ skipped) ++ (item.1, item.2) :: later := by
        rw [hitems, hbackEq, List.append_assoc]
      rcases hrepresentation.provenance _ _ _ _ hposition input hinput with
        hconfirmed | ⟨earlier, output, hearlier, hmade⟩
      · rw [hsound.utxoSet] at hconfirmed
        exact Lost.spent ((applied_seen happly _).mpr (Or.inl (hsound.recorded _ hconfirmed)))
          hunconfirmed
      · have hpending : earlier ∈ before.mempool.entries.items := by
          rw [hposition]
          exact List.mem_append_left _ hearlier
        have hkey := (hrepresentation.keyed earlier.1 earlier.2 hpending).left
        have htxid := outputItems_txid hmade
        by_cases hmined : earlier.1 ∈ block.transactions.map Transaction.txid
        · refine Lost.spent ((applied_seen happly _).mpr (Or.inr ?_)) hunconfirmed
          rw [htxid, ← hkey]
          exact hmined
        · have hmem : earlier ∈ done := by
            rcases List.mem_append.mp hearlier with hin | hin
            · rw [← hfront]
              exact List.mem_filter.mpr ⟨hin, by simpa using hmined⟩
            · exact absurd (by simpa using hmined) (hskipped earlier hin)
          rcases hdone earlier hmem with hsurvives | ⟨other, hother, hlost⟩
          · exact absurd (Mempool.mem_madeBy.mpr ⟨earlier, output, hsurvives, hmade⟩) hunmade
          · refine Lost.orphan (hpool _ (mem_pending hpending)) htxid ?_ hother hlost
            intro hseen
            rcases (applied_seen happly _).mp hseen with hold | hnew
            · exact hsound.pending_unseen (mem_pending hpending) hold
            · rw [← hkey] at hnew
              exact hmined hnew

/-!
## Settled identifiers
-/

/-- Confirmed, pending, or the identifier of a barred transaction. -/
def Settled (known : Transaction -> Prop) (refs : Live) (txid : Str) : Prop :=
  txid ∈ refs.state.seenTxids ∨ txid ∈ refs.mempool.entries.keys ∨
    exists transaction, known transaction ∧ transaction.txid = txid ∧
      Barred known refs.state transaction

/-- A sound instance whose pending transactions are known. -/
structure Tracked (known : Transaction -> Prop) (refs : Live) : Prop where
  sound : refs.Sound
  pending : forall transaction, transaction ∈ refs.mempool.getTransactions ->
    known transaction

def Call.transactions : Call -> List Transaction
  | .addBlock block _ => block.transactions
  | .submitTransaction transaction => [transaction]
  | .removePendingTransaction _ => []

def Call.removes : Call -> Bool
  | .removePendingTransaction _ => true
  | _ => false

section Steps

variable {call : Call} {appended : Option Block}

theorem Prepares.tracked (h : Prepares before call after appended)
    (hfree : CollisionFreeOn (EncodingOf known))
    (hknown : forall transaction, transaction ∈ call.transactions -> known transaction)
    (hkeeps : call.removes = false) (htracked : Tracked known before) :
    Tracked known after := by
  refine ⟨h.sound htracked.sound, ?_⟩
  intro transaction hmem
  cases call with
  | addBlock block clock =>
      have hsmaller := known_transactionOf hfree hknown htracked.pending
      rw [Mempool.getTransactions_eq, h.survivors htracked.sound hsmaller] at hmem
      rcases List.mem_map.mp hmem with ⟨item, hitem, heq⟩
      have hold := (List.mem_filter.mp ((Mempool.survivors_sublist _ _).subset hitem)).left
      rw [← heq]
      exact htracked.pending _ (mem_pending hold)
  | submitTransaction submitted =>
      cases h with
      | submitTransaction hadd =>
          rcases Mempool.admitted_of_addTransaction hadd with ⟨fee, hadmitted⟩
          rw [Mempool.getTransactions_eq, hadmitted.items_eq, List.map_append,
            List.mem_append] at hmem
          rcases hmem with hold | hnew
          · rw [← Mempool.getTransactions_eq] at hold
            exact htracked.pending transaction hold
          · rw [List.map_singleton, List.mem_singleton] at hnew
            rw [hnew]
            exact hknown submitted List.mem_cons_self
  | removePendingTransaction txid => cases hkeeps

theorem Prepares.settled (h : Prepares before call after appended)
    (hfree : CollisionFreeOn (EncodingOf known))
    (hknown : forall transaction, transaction ∈ call.transactions -> known transaction)
    (hkeeps : call.removes = false) (htracked : Tracked known before) {txid : Str}
    (hsettled : Settled known before txid) : Settled known after txid := by
  cases call with
  | addBlock block clock =>
      have hfate : forall item, item ∈ before.mempool.entries.items ->
          item.1 ∈ after.state.seenTxids ∨ item ∈ after.mempool.entries.items ∨
            Barred known after.state item.2.transaction :=
        fun _ hitem => h.fate htracked.sound hfree hknown htracked.pending hitem
      cases h with
      | @addBlock _ tip _ now nextState _ _ _ _ happly _ =>
          rcases hsettled with hseen | hpending | ⟨transaction, hmem, htxid, hbarred⟩
          · exact Or.inl ((applied_seen happly _).mpr (Or.inl hseen))
          · rcases List.mem_map.mp hpending with ⟨item, hitem, heq⟩
            have hkey := (htracked.sound.coherent.keyed item.1 item.2 hitem).left
            rw [← heq]
            rcases hfate item hitem with hmined | hsurvives | hbarred
            · exact Or.inl hmined
            · exact Or.inr (Or.inl (List.mem_map_of_mem hsurvives))
            · exact Or.inr (Or.inr ⟨item.2.transaction,
                htracked.pending _ (mem_pending hitem), hkey.symm, hbarred⟩)
          · rcases hbarred with ⟨input, hinput, hlost⟩
            exact Or.inr (Or.inr ⟨transaction, hmem, htxid, input, hinput,
              (hlost.applied htracked.sound happly hfree hknown).right⟩)
  | submitTransaction submitted =>
      cases h with
      | submitTransaction hadd =>
          rcases hsettled with hseen | hpending | hbarred
          · exact Or.inl hseen
          · rcases Mempool.admitted_of_addTransaction hadd with ⟨fee, hadmitted⟩
            refine Or.inr (Or.inl ?_)
            unfold Dict.keys
            rw [hadmitted.items_eq, List.map_append]
            exact List.mem_append_left _ hpending
          · exact Or.inr (Or.inr hbarred)
  | removePendingTransaction txid => cases hkeeps

theorem Prepares.submit_settles {transaction : Transaction}
    (h : Prepares before (.submitTransaction transaction) after appended)
    (hfree : CollisionFreeOn (EncodingOf known)) (hknown : known transaction)
    (htracked : Tracked known before) :
    ¬ Settled known before transaction.txid ∧ Settled known after transaction.txid := by
  cases h with
  | submitTransaction hadd =>
      rcases Mempool.admitted_of_addTransaction hadd with ⟨fee, hadmitted⟩
      have hnew := hadmitted.processed.new
      rw [Finset.mem_union, List.mem_toFinset, not_or] at hnew
      constructor
      · rintro (hseen | hpending | ⟨other, hother, htxid, hbarred⟩)
        · rw [← htracked.sound.seenTxids] at hseen
          exact hnew.left hseen
        · exact hnew.right hpending
        · rw [known_unique hfree hother hknown htxid] at hbarred
          exact hbarred.rejected htracked.sound hfree htracked.pending _ hadd
      · refine Or.inr (Or.inl ?_)
        unfold Dict.keys
        rw [hadmitted.items_eq, List.map_append]
        exact List.mem_append_right _ List.mem_cons_self

/-- The chain has a block of this hash. -/
def Appended (refs : Live) (blockHash : Str) : Prop :=
  exists block, block ∈ refs.blocks ∧ block.hash = blockHash

theorem Prepares.keeps_blocks (h : Prepares before call after appended) {blockHash : Str}
    (hold : Appended before blockHash) : Appended after blockHash := by
  rcases hold with ⟨block, hblock, heq⟩
  refine ⟨block, ?_, heq⟩
  rw [h.grows]
  exact List.mem_append_left _ hblock

theorem Prepares.append_new {clock : Clock}
    (h : Prepares before (.addBlock block clock) after appended) :
    ¬ Appended before block.hash ∧ Appended after block.hash := by
  cases h with
  | addBlock _ _ _ _ _ hfresh =>
      constructor
      · rintro ⟨other, hother, heq⟩
        exact hfresh other hother heq
      · exact ⟨block, List.mem_append_right _ List.mem_cons_self, rfl⟩

end Steps

/-!
## Runs of one instance
-/

section Runs

variable {disk : Type}

/-- One instance.  Its store and the disk are given with each call, because faults
and other writers may change them in between. -/
def lifetime (disk : Type) :
    Machine Blockchain (Option (ChainStore disk) × disk × Call) (Except PyError Bool) where
  step request chain :=
    let outcome := perform request.1 request.2.2 chain request.2.1
    (outcome.1, outcome.2.1)

/-- The transaction that a call admits to the pool. -/
def admits (request : Option (ChainStore disk) × disk × Call) (chain : Blockchain) : List Str :=
  match request.2.2, ((lifetime disk).step request chain).1 with
  | .submitTransaction transaction, .ok true => [transaction.txid]
  | _, _ => []

/-- The block that a call appends to the chain. -/
def appends (request : Option (ChainStore disk) × disk × Call) (chain : Blockchain) :
    List Str :=
  match request.2.2, ((lifetime disk).step request chain).1 with
  | .addBlock block _, .ok true => [block.hash]
  | _, _ => []

/-- Calls that remove nothing and bring known transactions only. -/
def Admissible (known : Transaction -> Prop)
    (request : Option (ChainStore disk) × disk × Call) : Prop :=
  request.2.2.removes = false ∧
    forall transaction, transaction ∈ request.2.2.transactions -> known transaction

variable {request : Option (ChainStore disk) × disk × Call} {chain : Blockchain}

theorem lifetime_tracked (hfree : CollisionFreeOn (EncodingOf known))
    (hrequest : Admissible known request) (h : Tracked known (live chain)) :
    Tracked known (live ((lifetime disk).step request chain).2) := by
  rcases perform_answer request.1 request.2.2 chain request.2.1 with
    ⟨_, block, hprepares⟩ | ⟨_, hsame⟩
  · exact hprepares.tracked hfree hrequest.right hrequest.left h
  · change Tracked known (live (perform request.1 request.2.2 chain request.2.1).2.1)
    rw [hsame]
    exact h

theorem lifetime_settled (hfree : CollisionFreeOn (EncodingOf known))
    (hrequest : Admissible known request) (h : Tracked known (live chain)) {txid : Str}
    (hsettled : Settled known (live chain) txid) :
    Settled known (live ((lifetime disk).step request chain).2) txid := by
  rcases perform_answer request.1 request.2.2 chain request.2.1 with
    ⟨_, block, hprepares⟩ | ⟨_, hsame⟩
  · exact hprepares.settled hfree hrequest.right hrequest.left h hsettled
  · change Settled known (live (perform request.1 request.2.2 chain request.2.1).2.1) txid
    rw [hsame]
    exact hsettled

theorem lifetime_appended {blockHash : Str} (h : Appended (live chain) blockHash) :
    Appended (live ((lifetime disk).step request chain).2) blockHash := by
  rcases perform_answer request.1 request.2.2 chain request.2.1 with
    ⟨_, block, hprepares⟩ | ⟨_, hsame⟩
  · exact hprepares.keeps_blocks h
  · change Appended (live (perform request.1 request.2.2 chain request.2.1).2.1) blockHash
    rw [hsame]
    exact h

theorem admits_settles (hfree : CollisionFreeOn (EncodingOf known))
    (hrequest : Admissible known request) (h : Tracked known (live chain)) :
    (admits request chain).Nodup ∧ forall txid, txid ∈ admits request chain ->
      ¬ Settled known (live chain) txid ∧
        Settled known (live ((lifetime disk).step request chain).2) txid := by
  unfold admits
  rcases request with ⟨store, d, call⟩
  split
  · rename_i transaction hcall htrue
    simp only at hcall
    subst hcall
    refine ⟨List.nodup_singleton _, ?_⟩
    intro txid htxid
    rw [List.mem_singleton.mp htxid]
    rcases perform_answer store (.submitTransaction transaction) chain d with
      ⟨_, block, hprepares⟩ | ⟨hfalse, _⟩
    · exact hprepares.submit_settles hfree (hrequest.right transaction List.mem_cons_self) h
    · exact absurd htrue hfalse
  · exact ⟨List.nodup_nil, fun _ hmem => by cases hmem⟩

theorem appends_new :
    (appends request chain).Nodup ∧ forall blockHash, blockHash ∈ appends request chain ->
      ¬ Appended (live chain) blockHash ∧
        Appended (live ((lifetime disk).step request chain).2) blockHash := by
  unfold appends
  rcases request with ⟨store, d, call⟩
  split
  · rename_i block clock hcall htrue
    simp only at hcall
    subst hcall
    refine ⟨List.nodup_singleton _, ?_⟩
    intro blockHash hmem
    rw [List.mem_singleton.mp hmem]
    rcases perform_answer store (.addBlock block clock) chain d with
      ⟨_, appended, hprepares⟩ | ⟨hfalse, _⟩
    · exact hprepares.append_new
    · exact absurd htrue hfalse
  · exact ⟨List.nodup_nil, fun _ hmem => by cases hmem⟩

theorem lifetime_run_tracked (hfree : CollisionFreeOn (EncodingOf known))
    (requests : List (Option (ChainStore disk) × disk × Call)) :
    forall start, (forall request, request ∈ requests -> Admissible known request) ->
      Tracked known (live start) -> Tracked known (live ((lifetime disk).run requests start)) := by
  induction requests with
  | nil =>
      intro start _ h
      exact h
  | cons request rest ih =>
      intro start hrequests h
      apply ih
      · intro other hother
        exact hrequests other (List.mem_cons_of_mem _ hother)
      · exact lifetime_tracked hfree (hrequests request List.mem_cons_self) h

theorem admits_once (hfree : CollisionFreeOn (EncodingOf known))
    {requests : List (Option (ChainStore disk) × disk × Call)}
    (hrequests : forall request, request ∈ requests -> Admissible known request)
    {start : Blockchain} (hstart : Tracked known (live start)) :
    ((lifetime disk).trace admits requests start).Nodup ∧
      forall txid, txid ∈ (lifetime disk).trace admits requests start ->
        ¬ Settled known (live start) txid :=
  (lifetime disk).trace_nodup
    (Admissible known) (fun chain => Tracked known (live chain))
    (fun chain => Settled known (live chain))
    (fun _ _ hrequest h => lifetime_tracked hfree hrequest h)
    (fun _ _ _ hrequest h hsettled => lifetime_settled hfree hrequest h hsettled)
    (fun _ _ hrequest h => admits_settles hfree hrequest h) requests start hrequests hstart

theorem appends_once (requests : List (Option (ChainStore disk) × disk × Call))
    (start : Blockchain) :
    ((lifetime disk).trace appends requests start).Nodup ∧
      forall blockHash, blockHash ∈ (lifetime disk).trace appends requests start ->
        ¬ Appended (live start) blockHash :=
  (lifetime disk).trace_nodup
    (fun _ => True) (fun _ => True) (fun chain => Appended (live chain))
    (fun _ _ _ _ => trivial)
    (fun _ _ _ _ _ happended => lifetime_appended happended)
    (fun _ _ _ _ => appends_new) requests start (fun _ _ => trivial) trivial

end Runs

end Blockchain

end Admission

end PyChain
