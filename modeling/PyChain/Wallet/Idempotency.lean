import PyChain.Wallet.Sending

/-!
# One transaction for one intent

While a send holds the lock of its user, the record of its intent says how far it has
come.  The signed bytes of a record never change once they are stored, so every retry,
also after a restart, hands the node the transaction that was built first.
-/

namespace PyChain

open Foundation

namespace Wallet

open Appdb

section Records

/-- What has been seen so far: the sends that were called, the wallet of a user, the
views of the node, and the transactions the node has held. -/
structure Seen where
  called : SendRequest -> Prop
  wallet : Nat -> WalletRow -> Prop
  view : WalletRow -> WalletState -> Prop
  held : Str -> Prop

variable [Crypto] (keystore : KeyStore) (maxItemBytes : Nat) (seen : Seen)

/-- The transaction is pending or confirmed. -/
def Holds (chain : Blockchain) (txid : Str) : Prop :=
  txid ∈ chain.mempool.entries.keys ∨ Api.Confirmed chain txid

/-- Signed bytes that were built for a send with this intent and fingerprint, from a view
of the wallet of its user. -/
def BuiltFor (intent : Nat × Str) (requestFingerprint : Str) (transaction : Transaction)
    (data : Bytes) : Prop :=
  exists request wallet view wallClock, seen.called request ∧
    seen.wallet request.userId wallet ∧ seen.view wallet view ∧ request.intent = intent ∧
    fingerprint request = requestFingerprint ∧
    prepareTransaction keystore wallet view request.recipientAddress request.amount
      request.fee maxItemBytes wallClock = .ok (transaction, data)

/-- The bytes of a record are those of a transaction. -/
def Stores (record : IdempotencyRecord) (transaction : Transaction) : Prop :=
  exists data, record.transactionData = some data ∧
    Codec.decodeTransaction data = .ok transaction

/-- A record has bytes once it is prepared; when it is accepted, the node has held its
transaction. -/
structure RecordSound (intent : Nat × Str) (record : IdempotencyRecord) : Prop where
  reserved : record.state = .reserved <-> record.transactionData = none
  built : forall data, record.transactionData = some data -> exists transaction,
    Codec.decodeTransaction data = .ok transaction ∧
      record.resultTxid = some transaction.txid ∧
      BuiltFor keystore maxItemBytes seen intent record.requestFingerprint transaction data
  accepted : record.state = .accepted -> forall txid, record.resultTxid = some txid ->
    seen.held txid

omit [Crypto] in
/-- A record only grows: stored bytes and an acceptance stay. -/
structure Extends (record next : IdempotencyRecord) : Prop where
  requestFingerprint : next.requestFingerprint = record.requestFingerprint
  transactionData : next.transactionData = record.transactionData
  resultTxid : next.resultTxid = record.resultTxid
  accepted : record.state = .accepted -> next.state = .accepted

/-- The record of an intent is sound, and the wallets are those that were seen. -/
structure SoundAt (database : AppDatabase) (intent : Nat × Str) : Prop where
  record : forall record, database.idempotencyRecords.get? intent = some record ->
    RecordSound keystore maxItemBytes seen intent record
  wallets : forall userId wallet, database.wallets.get? userId = some wallet ->
    seen.wallet userId wallet

omit [Crypto] in
/-- What the record of a send says of its phase, and what the answers it has are worth. -/
def Agrees (userId : Nat) (record : IdempotencyRecord) : SendPhase -> Prop
  | .queued => True
  | .viewing wallet => record.state = .reserved ∧ seen.wallet userId wallet
  | .viewed wallet answer =>
      record.state = .reserved ∧ seen.wallet userId wallet ∧
        forall view, answer = .ok view -> seen.view wallet view
  | .slotting wallet view =>
      record.state = .reserved ∧ seen.wallet userId wallet ∧ seen.view wallet view
  | .building wallet view =>
      record.state = .reserved ∧ seen.wallet userId wallet ∧ seen.view wallet view
  | .finding transaction => record.state = .prepared ∧ Stores record transaction
  | .found transaction answer =>
      (record.state = .prepared ∧ Stores record transaction) ∧
        (answer = .ok true -> seen.held transaction.txid)
  | .submitting transaction => record.state = .prepared ∧ Stores record transaction
  | .submitted transaction answer =>
      (record.state = .prepared ∧ Stores record transaction) ∧
        (answer = .ok true -> seen.held transaction.txid)
  | .rechecking transaction => record.state = .prepared ∧ Stores record transaction
  | .rechecked transaction answer =>
      (record.state = .prepared ∧ Stores record transaction) ∧
        (answer = .ok true -> seen.held transaction.txid)
  | .ended _ => True

omit [Crypto] in
theorem Extends.refl (record : IdempotencyRecord) : Extends record record :=
  ⟨rfl, rfl, rfl, id⟩

/-- A send in some phase, with the record of its intent. -/
def Tied (request : SendRequest) (database : AppDatabase) (phase : SendPhase) : Prop :=
  exists record, database.idempotencyRecords.get? request.intent = some record ∧
    record.requestFingerprint = fingerprint request ∧
      Agrees seen request.userId record phase

/-- The records of the other intents are as they were, and those of this one sound. -/
structure Step (request : SendRequest) (database : AppDatabase)
    (outcome : SendPhase × AppDatabase) : Prop where
  frame : forall other, other ≠ request.intent ->
    outcome.2.idempotencyRecords.get? other = database.idempotencyRecords.get? other
  sound : SoundAt keystore maxItemBytes seen outcome.2 request.intent
  grows : forall record, database.idempotencyRecords.get? request.intent = some record ->
    record.transactionData ≠ none -> exists next,
      outcome.2.idempotencyRecords.get? request.intent = some next ∧ Extends record next
  tied : outcome.1.holding = true -> Tied seen request outcome.2 outcome.1
  handing : forall transaction, outcome.1 = .submitting transaction -> exists record,
    outcome.2.idempotencyRecords.get? request.intent = some record ∧
      Stores record transaction
  receipt : forall txid, outcome.1 = .ended (.ok txid) -> exists record,
    outcome.2.idempotencyRecords.get? request.intent = some record ∧
      record.requestFingerprint = fingerprint request ∧ record.state = .accepted ∧
      record.resultTxid = txid
  settled : outcome.1 ≠ .queued ∧ outcome.1.isBuilding = false

/-!
## Turns
-/

section Turns

variable {keystore : KeyStore} {maxItemBytes : Nat} {seen : Seen}
  {fails : Statement -> Bool} {request : SendRequest} {database : AppDatabase}

theorem Step.unchanged {phase : SendPhase}
    (hsound : SoundAt keystore maxItemBytes seen database request.intent)
    (htied : phase.holding = true -> Tied seen request database phase)
    (hreceipt : forall txid, phase = .ended (.ok txid) -> exists record,
      database.idempotencyRecords.get? request.intent = some record ∧
        record.requestFingerprint = fingerprint request ∧ record.state = .accepted ∧
        record.resultTxid = txid)
    (hsettled : phase ≠ .queued ∧ phase.isBuilding = false) :
    Step keystore maxItemBytes seen request database (phase, database) := by
  refine ⟨fun _ _ => rfl, hsound, ?_, htied, ?_, hreceipt, hsettled⟩
  · intro record hrecord _
    exact ⟨record, hrecord, Extends.refl record⟩
  · intro transaction hphase
    cases hphase
    rcases htied rfl with ⟨record, hrecord, _, _, hstores⟩
    exact ⟨record, hrecord, hstores⟩

theorem Step.failed {e : SendError}
    (hsound : SoundAt keystore maxItemBytes seen database request.intent) :
    Step keystore maxItemBytes seen request database (.ended (.error e), database) :=
  Step.unchanged hsound (fun h => by cases h) (fun _ h => by cases h)
    ⟨(fun h => by cases h), rfl⟩

theorem abandon_step
    (hsound : SoundAt keystore maxItemBytes seen database request.intent) (e : SendError) :
    Step keystore maxItemBytes seen request database (abandon fails request database e) := by
  unfold abandon
  cases hdelete : database.deleteReserved (fails .deleteReserved) request.intent with
  | error failure => exact Step.failed hsound
  | ok next =>
      have hget := AppDatabase.get?_deleteReserved hdelete
      have hkept : forall record, next.idempotencyRecords.get? request.intent = some record ->
          database.idempotencyRecords.get? request.intent = some record := by
        intro record hrecord
        rw [hget, Option.filter_eq_some_iff] at hrecord
        exact hrecord.left
      refine ⟨?_, ⟨fun record hrecord => hsound.record record (hkept record hrecord), ?_⟩, ?_,
        (fun h => by cases h), (fun _ h => by cases h), (fun _ h => by cases h),
        (fun h => by cases h), rfl⟩
      · intro other hother
        change next.idempotencyRecords.get? other = _
        rw [hget]
        cases database.idempotencyRecords.get? other with
        | none => rfl
        | some record => simp [hother]
      · rw [AppDatabase.wallets_deleteReserved hdelete]
        exact hsound.wallets
      · intro record hrecord hdata
        refine ⟨record, ?_, Extends.refl record⟩
        change next.idempotencyRecords.get? request.intent = _
        rw [hget, hrecord]
        have hstate : record.state ≠ .reserved := by
          intro hstate
          exact hdata ((hsound.record record hrecord).reserved.mp hstate)
        simp [hstate]

omit [Crypto] in
theorem insertRecord_eq_ok {requestFingerprint : Str} {next : AppDatabase}
    (h : database.insertRecord (fails .insertRecord) request.intent requestFingerprint =
      .ok next) :
    next.idempotencyRecords = database.idempotencyRecords.set request.intent
        { requestFingerprint := requestFingerprint
          resultTxid := none
          transactionData := none
          state := .reserved } ∧
      next.wallets = database.wallets := by
  unfold AppDatabase.insertRecord at h
  split at h
  · cases h
  · rw [← (AppDatabase.execute_eq_ok_iff.mp h).right]
    exact ⟨rfl, rfl⟩

/-- The record of a new intent. -/
def reservation (request : SendRequest) : IdempotencyRecord where
  requestFingerprint := fingerprint request
  resultTxid := none
  transactionData := none
  state := .reserved

theorem reservation_sound :
    RecordSound keystore maxItemBytes seen request.intent (reservation request) := by
  refine ⟨⟨fun _ => rfl, fun _ => rfl⟩, ?_, ?_⟩
  · intro data h
    cases h
  · intro h
    cases h

theorem prepare_step
    (hsound : SoundAt keystore maxItemBytes seen database request.intent)
    (hreserved : exists record,
      database.idempotencyRecords.get? request.intent = some record ∧
        record.requestFingerprint = fingerprint request ∧ record.state = .reserved) :
    Step keystore maxItemBytes seen request database (prepare fails request database) := by
  unfold prepare
  cases hselect : database.wallet (fails .selectWallet) request.userId with
  | error e => exact abandon_step hsound _
  | ok row =>
      cases row with
      | none => exact abandon_step hsound _
      | some wallet =>
          rcases hreserved with ⟨record, hrecord, hprint, hstate⟩
          have hwallet := hsound.wallets _ _ (AppDatabase.execute_eq_ok_iff.mp hselect).right
          exact Step.unchanged hsound (fun _ => ⟨record, hrecord, hprint, hstate, hwallet⟩)
            (fun _ h => by cases h) ⟨(fun h => by cases h), rfl⟩

theorem resumeRecord_step {record : IdempotencyRecord}
    (hsound : SoundAt keystore maxItemBytes seen database request.intent)
    (hrecord : database.idempotencyRecords.get? request.intent = some record) :
    Step keystore maxItemBytes seen request database
      (resumeRecord fails request database record) := by
  have hthis := hsound.record record hrecord
  unfold resumeRecord
  by_cases hprint : record.requestFingerprint ≠ fingerprint request
  · rw [if_pos hprint]
    exact Step.failed hsound
  rw [if_neg hprint]
  have hsame := not_not.mp hprint
  by_cases haccepted : record.state = .accepted
  · rw [if_pos haccepted]
    refine Step.unchanged hsound (fun h => by cases h) ?_ ⟨(fun h => by cases h), rfl⟩
    intro txid h
    cases h
    exact ⟨record, hrecord, hsame, haccepted, rfl⟩
  rw [if_neg haccepted]
  by_cases hrejected : record.state = .rejected
  · rw [if_pos hrejected]
    exact Step.failed hsound
  rw [if_neg hrejected]
  cases hdata : record.transactionData with
  | none => exact prepare_step hsound ⟨record, hrecord, hsame, hthis.reserved.mpr hdata⟩
  | some data =>
      rcases hthis.built data hdata with ⟨transaction, hdecode, _, _⟩
      have hprepared : record.state = .prepared := by
        cases hstate : record.state with
        | prepared => rfl
        | accepted => exact absurd hstate haccepted
        | rejected => exact absurd hstate hrejected
        | reserved =>
            rw [hthis.reserved.mp hstate] at hdata
            cases hdata
      simp only [hdecode]
      exact Step.unchanged hsound
        (fun _ => ⟨record, hrecord, hsame, hprepared, data, hdata, hdecode⟩)
        (fun _ h => by cases h) ⟨(fun h => by cases h), rfl⟩

theorem start_step
    (hsound : SoundAt keystore maxItemBytes seen database request.intent) :
    Step keystore maxItemBytes seen request database (start fails request database) := by
  unfold start
  cases hselect : database.idempotency (fails .selectRecord) request.intent with
  | error e => exact Step.failed hsound
  | ok found =>
      have hfound : database.idempotencyRecords.get? request.intent = found :=
        (AppDatabase.execute_eq_ok_iff.mp hselect).right
      cases found with
      | some record => exact resumeRecord_step hsound hfound
      | none =>
          cases hinsert : database.insertRecord (fails .insertRecord) request.intent
              (fingerprint request) with
          | error e => exact Step.failed hsound
          | ok next =>
              rcases insertRecord_eq_ok hinsert with ⟨hrecords, hwallets⟩
              have hnew : next.idempotencyRecords.get? request.intent =
                  some (reservation request) := by
                rw [hrecords, Dict.get?_set, if_pos rfl]
                rfl
              have hreserved : SoundAt keystore maxItemBytes seen next request.intent := by
                constructor
                · intro record hrecord
                  rw [hnew] at hrecord
                  rw [← Option.some.inj hrecord]
                  exact reservation_sound
                · rw [hwallets]
                  exact hsound.wallets
              have hprepare : Step keystore maxItemBytes seen request next
                  (prepare fails request next) :=
                prepare_step hreserved ⟨_, hnew, rfl, rfl⟩
              refine ⟨?_, hprepare.sound, ?_, hprepare.tied, hprepare.handing,
                hprepare.receipt, hprepare.settled⟩
              · intro other hother
                rw [hprepare.frame other hother, hrecords, Dict.get?_set, if_neg hother]
              · intro record hrecord
                rw [hfound] at hrecord
                cases hrecord

omit [Crypto] in
theorem get?_updateRecord {fail : Bool} {f : IdempotencyRecord -> IdempotencyRecord}
    {next : AppDatabase} (h : database.updateRecord fail request.intent f = .ok next)
    (other : Nat × Str) :
    next.idempotencyRecords.get? other =
      if other = request.intent then (database.idempotencyRecords.get? other).map f
      else database.idempotencyRecords.get? other := by
  rw [← (AppDatabase.execute_eq_ok_iff.mp h).right]
  exact Dict.get?_modify _ _ _ _

omit [Crypto] in
theorem wallets_updateRecord {fail : Bool} {f : IdempotencyRecord -> IdempotencyRecord}
    {next : AppDatabase} (h : database.updateRecord fail request.intent f = .ok next) :
    next.wallets = database.wallets := by
  rw [← (AppDatabase.execute_eq_ok_iff.mp h).right]

theorem prepared_decodes {wallet : WalletRow} {view : WalletState} {recipient : Str}
    {amount fee maxBytes : Int} {wallClock : Nat} {transaction : Transaction} {data : Bytes}
    (h : prepareTransaction keystore wallet view recipient amount fee maxBytes wallClock =
      .ok (transaction, data)) : Codec.decodeTransaction data = .ok transaction := by
  unfold prepareTransaction at h
  simp only [bind_eq_ok_iff] at h
  rcases h with ⟨_, _, _, _, built, _, encoded, hencoded, _, _, hanswer⟩
  cases hanswer
  cases hencode : Codec.encodeTransaction transaction with
  | error e =>
      rw [hencode] at hencoded
      cases hencoded
  | ok value =>
      rw [hencode] at hencoded
      rw [← Except.ok.inj hencoded]
      exact Codec.decodeTransaction_eq_ok_iff.mpr (Codec.encodeTransaction_eq_ok_iff.mp hencode)

theorem storeBuilt_step {result : Except WalletError (Transaction × Bytes)}
    (hsound : SoundAt keystore maxItemBytes seen database request.intent)
    (hreserved : exists record,
      database.idempotencyRecords.get? request.intent = some record ∧
        record.requestFingerprint = fingerprint request ∧ record.state = .reserved)
    (hbuilt : forall transaction data, result = .ok (transaction, data) ->
      Codec.decodeTransaction data = .ok transaction ∧
        BuiltFor keystore maxItemBytes seen request.intent (fingerprint request) transaction data) :
    Step keystore maxItemBytes seen request database
      (storeBuilt fails request database result) := by
  unfold storeBuilt
  cases result with
  | error e => exact abandon_step hsound _
  | ok pair =>
      rcases pair with ⟨transaction, data⟩
      rcases hreserved with ⟨record, hrecord, hprint, hstate⟩
      rcases hbuilt transaction data rfl with ⟨hdecode, hfor⟩
      simp only
      cases hupdate : database.updateRecord (fails .storeTransaction) request.intent
          (fun record =>
            { record with
              transactionData := some data
              resultTxid := some transaction.txid
              state := .prepared }) with
      | error e => exact abandon_step hsound _
      | ok next =>
          have hget := get?_updateRecord hupdate
          have hnew := hget request.intent
          rw [if_pos rfl, hrecord, Option.map_some] at hnew
          refine ⟨?_, ?_, ?_, ?_, (fun _ h => by cases h), (fun _ h => by cases h),
            (fun h => by cases h), rfl⟩
          · intro other hother
            change next.idempotencyRecords.get? other = _
            rw [hget, if_neg hother]
          · refine ⟨?_, by rw [wallets_updateRecord hupdate]; exact hsound.wallets⟩
            intro stored hstored
            change next.idempotencyRecords.get? request.intent = _ at hstored
            rw [hnew] at hstored
            rw [← Option.some.inj hstored]
            refine ⟨⟨(fun h => by cases h), (fun h => by cases h)⟩, ?_, (fun h => by cases h)⟩
            intro bytes hbytes
            cases hbytes
            refine ⟨transaction, hdecode, rfl, ?_⟩
            change BuiltFor keystore maxItemBytes seen request.intent record.requestFingerprint _ _
            rw [hprint]
            exact hfor
          · intro stored hstored hdata
            rw [hrecord] at hstored
            rw [← Option.some.inj hstored] at hdata
            exact absurd ((hsound.record record hrecord).reserved.mp hstate) hdata
          · intro _
            exact ⟨_, hnew, hprint, rfl, data, rfl, hdecode⟩

theorem settle_step {transaction : Transaction} {accepted : Bool}
    (hsound : SoundAt keystore maxItemBytes seen database request.intent)
    (hprepared : exists record,
      database.idempotencyRecords.get? request.intent = some record ∧
        record.requestFingerprint = fingerprint request ∧ record.state = .prepared ∧
        Stores record transaction)
    (hheld : accepted = true -> seen.held transaction.txid) :
    Step keystore maxItemBytes seen request database
      (settle fails request database transaction accepted) := by
  unfold settle
  rcases hprepared with ⟨record, hrecord, hprint, hstate, data, hdata, hdecode⟩
  cases hupdate : database.updateRecord (fails .settle) request.intent
      (fun record => { record with state := if accepted then .accepted else .rejected }) with
  | error e => exact Step.failed hsound
  | ok next =>
      have hthis := hsound.record record hrecord
      have hget := get?_updateRecord hupdate
      have hnew := hget request.intent
      rw [if_pos rfl, hrecord, Option.map_some] at hnew
      have htxid : record.resultTxid = some transaction.txid := by
        rcases hthis.built data hdata with ⟨other, hother, htxid, _⟩
        rw [hdecode] at hother
        rw [Except.ok.inj hother]
        exact htxid
      have hframe : forall other, other ≠ request.intent ->
          next.idempotencyRecords.get? other = database.idempotencyRecords.get? other := by
        intro other hother
        rw [hget, if_neg hother]
      have hsettled : SoundAt keystore maxItemBytes seen next request.intent := by
        refine ⟨?_, by rw [wallets_updateRecord hupdate]; exact hsound.wallets⟩
        intro stored hstored
        rw [hnew] at hstored
        rw [← Option.some.inj hstored]
        refine ⟨?_, hthis.built, ?_⟩
        · have hne : (if accepted = true then RecordState.accepted else .rejected) ≠
              .reserved := by
            split
            · exact fun h => by cases h
            · exact fun h => by cases h
          simp [hne, hdata]
        · intro haccepted txid hresult
          change record.resultTxid = some txid at hresult
          rw [htxid] at hresult
          rw [← Option.some.inj hresult]
          apply hheld
          by_contra hnot
          simp [hnot] at haccepted
      have hgrows : forall stored,
          database.idempotencyRecords.get? request.intent = some stored ->
            stored.transactionData ≠ none -> exists later,
              next.idempotencyRecords.get? request.intent = some later ∧
                Extends stored later := by
        intro stored hstored _
        rw [hrecord] at hstored
        rw [← Option.some.inj hstored]
        refine ⟨_, hnew, rfl, rfl, rfl, ?_⟩
        intro haccepted
        rw [hstate] at haccepted
        cases haccepted
      cases accepted with
      | true =>
          refine ⟨hframe, hsettled, hgrows, (fun h => by cases h), (fun _ h => by cases h), ?_,
            (fun h => by cases h), rfl⟩
          intro txid h
          cases h
          exact ⟨_, hnew, hprint, rfl, htxid⟩
      | false =>
          exact ⟨hframe, hsettled, hgrows, (fun h => by cases h), (fun _ h => by cases h),
            (fun _ h => by cases h), (fun h => by cases h), rfl⟩

theorem resume_step {phase : SendPhase} (hanswered : phase.answered = true)
    (hsound : SoundAt keystore maxItemBytes seen database request.intent)
    (htied : Tied seen request database phase) :
    Step keystore maxItemBytes seen request database
      (resume fails request database phase) := by
  rcases htied with ⟨record, hrecord, hprint, hagrees⟩
  cases phase with
  | viewed wallet answer =>
      cases answer with
      | error e => exact abandon_step hsound _
      | ok view =>
          rcases hagrees with ⟨hstate, hwallet, hview⟩
          exact Step.unchanged hsound
            (fun _ => ⟨record, hrecord, hprint, hstate, hwallet, hview view rfl⟩)
            (fun _ h => by cases h) ⟨(fun h => by cases h), rfl⟩
  | found transaction answer =>
      rcases hagrees with ⟨hprepared, hheld⟩
      cases answer with
      | error e => exact Step.failed hsound
      | ok found =>
          cases found with
          | true =>
              exact settle_step hsound ⟨record, hrecord, hprint, hprepared⟩
                (fun _ => hheld rfl)
          | false =>
              exact Step.unchanged hsound (fun _ => ⟨record, hrecord, hprint, hprepared⟩)
                (fun _ h => by cases h) ⟨(fun h => by cases h), rfl⟩
  | submitted transaction answer =>
      rcases hagrees with ⟨hprepared, hheld⟩
      cases answer with
      | error e => exact Step.failed hsound
      | ok accepted =>
          cases accepted with
          | true =>
              exact settle_step hsound ⟨record, hrecord, hprint, hprepared⟩
                (fun _ => hheld rfl)
          | false =>
              exact Step.unchanged hsound (fun _ => ⟨record, hrecord, hprint, hprepared⟩)
                (fun _ h => by cases h) ⟨(fun h => by cases h), rfl⟩
  | rechecked transaction answer =>
      rcases hagrees with ⟨hprepared, hheld⟩
      cases answer with
      | error e => exact Step.failed hsound
      | ok accepted =>
          refine settle_step hsound ⟨record, hrecord, hprint, hprepared⟩ (fun h => hheld ?_)
          rw [h]
  | _ => cases hanswered

theorem interrupt_step {phase : SendPhase} (hholding : phase.holding = true) {e : PyError}
    (hsound : SoundAt keystore maxItemBytes seen database request.intent) :
    Step keystore maxItemBytes seen request database
      (interrupt fails request database phase e) := by
  cases phase with
  | queued => cases hholding
  | ended outcome => cases hholding
  | viewing wallet => exact abandon_step hsound _
  | viewed wallet answer => exact abandon_step hsound _
  | slotting wallet view => exact abandon_step hsound _
  | building wallet view => exact abandon_step hsound _
  | _ => exact Step.failed hsound

end Turns

end Records

/-!
## The process
-/

def SendTask.isBuilding (task : SendTask) : Bool :=
  task.phase.isBuilding

namespace Sender

variable [Crypto] {disk : Type} (keystore : KeyStore) (maxItemBytes : Nat)
  (seen : Seen)

/-- The tasks that hold a lock are tied to the record of their intent. -/
structure Sound (sender : Sender disk) : Prop where
  requests : forall id task, sender.tasks.get? id = some task -> seen.called task.request
  records : forall intent, SoundAt keystore maxItemBytes seen sender.database intent
  tied : forall id task, sender.tasks.get? id = some task -> task.phase.holding = true ->
    task.request.userId ∈ sender.locks ∧
      Tied seen task.request sender.database task.phase
  exclusive : forall id task other rival, sender.tasks.get? id = some task ->
    sender.tasks.get? other = some rival -> task.phase.holding = true ->
    rival.phase.holding = true -> task.request.userId = rival.request.userId -> id = other
  occupied : forall userId, userId ∈ sender.locks -> exists id task,
    sender.tasks.get? id = some task ∧ task.phase.holding = true ∧
      task.request.userId = userId
  nodup : sender.locks.Nodup
  builds : sender.buildJobs = sender.tasks.values.countP SendTask.isBuilding
  capped : sender.buildJobs ≤ MAX_BUILD_JOBS
  handed : forall intent transaction, (intent, transaction) ∈ sender.handed ->
    exists record, sender.database.idempotencyRecords.get? intent = some record ∧
      Stores record transaction
  receipts : forall request txid, (request, txid) ∈ sender.receipts ->
    seen.called request ∧
    exists record, sender.database.idempotencyRecords.get? request.intent = some record ∧
      record.requestFingerprint = fingerprint request ∧ record.state = .accepted ∧
      record.resultTxid = txid

/-- A task about to take a turn: it has the lock of its user, alone. -/
structure Poised (sender : Sender disk) (id : Nat) (task : SendTask) : Prop where
  requests : forall other rival, sender.tasks.get? other = some rival ->
    seen.called rival.request
  get : sender.tasks.get? id = some task
  records : forall intent, SoundAt keystore maxItemBytes seen sender.database intent
  locked : task.request.userId ∈ sender.locks
  others : forall other rival, other ≠ id -> sender.tasks.get? other = some rival ->
    rival.phase.holding = true -> rival.request.userId ≠ task.request.userId ∧
      rival.request.userId ∈ sender.locks ∧
      Tied seen rival.request sender.database rival.phase
  exclusive : forall first rival second other, first ≠ id -> second ≠ id ->
    sender.tasks.get? first = some rival -> sender.tasks.get? second = some other ->
    rival.phase.holding = true -> other.phase.holding = true ->
    rival.request.userId = other.request.userId -> first = second
  occupied : forall userId, userId ∈ sender.locks -> userId ≠ task.request.userId ->
    exists other rival, other ≠ id ∧ sender.tasks.get? other = some rival ∧
      rival.phase.holding = true ∧ rival.request.userId = userId
  nodup : sender.locks.Nodup
  builds : forall phase, SendPhase.isBuilding phase = false ->
    sender.buildJobs =
      (sender.tasks.set id { task with phase := phase }).values.countP SendTask.isBuilding
  capped : sender.buildJobs ≤ MAX_BUILD_JOBS
  handed : forall intent transaction, (intent, transaction) ∈ sender.handed ->
    exists record, sender.database.idempotencyRecords.get? intent = some record ∧
      Stores record transaction
  receipts : forall request txid, (request, txid) ∈ sender.receipts ->
    seen.called request ∧
    exists record, sender.database.idempotencyRecords.get? request.intent = some record ∧
      record.requestFingerprint = fingerprint request ∧ record.state = .accepted ∧
      record.resultTxid = txid

variable {keystore maxItemBytes seen} {sender : Sender disk} {id : Nat} {task : SendTask}

/-- A task that holds its lock may take a turn, and gives back its build slot if it has
one. -/
theorem Sound.poised (h : Sound keystore maxItemBytes seen sender)
    (hget : sender.tasks.get? id = some task) (hholding : task.phase.holding = true)
    (jobs : Nat) (hjobs : jobs + (if task.isBuilding = true then 1 else 0) = sender.buildJobs) :
    Poised keystore maxItemBytes seen { sender with buildJobs := jobs } id task := by
  refine ⟨h.requests, hget, h.records, (h.tied id task hget hholding).left, ?_, ?_, ?_, h.nodup, ?_, ?_,
    h.handed, h.receipts⟩
  · intro other rival hother hrival hrivalHolding
    rcases h.tied other rival hrival hrivalHolding with ⟨hlocked, htied⟩
    refine ⟨?_, hlocked, htied⟩
    intro hsame
    exact hother (h.exclusive other rival id task hrival hget hrivalHolding hholding hsame)
  · intro first rival second other _ _ hrival hother
    exact h.exclusive first rival second other hrival hother
  · intro userId hlocked hne
    rcases h.occupied userId hlocked with ⟨other, rival, hrival, hrivalHolding, huser⟩
    refine ⟨other, rival, ?_, hrival, hrivalHolding, huser⟩
    intro hsame
    rw [hsame, hget] at hrival
    rw [← Option.some.inj hrival] at huser
    exact hne huser.symm
  · intro phase hphase
    have hcount := Dict.countP_set_of_get? hget { task with phase := phase } SendTask.isBuilding
    have hnot : SendTask.isBuilding { task with phase := phase } = false := hphase
    have hbuilds := h.builds
    rw [hnot] at hcount
    change jobs =
      (sender.tasks.set id { task with phase := phase }).values.countP SendTask.isBuilding
    simp only [Bool.false_eq_true, if_false] at hcount
    omega
  · have hcapped := h.capped
    change jobs ≤ MAX_BUILD_JOBS
    omega

theorem Sound.poised_locked (h : Sound keystore maxItemBytes seen sender)
    (hget : sender.tasks.get? id = some task) (hqueued : task.phase = .queued)
    (hfree : task.request.userId ∉ sender.locks) :
    Poised keystore maxItemBytes seen
      { sender with locks := task.request.userId :: sender.locks } id task := by
  refine ⟨h.requests, hget, h.records, List.mem_cons_self, ?_, ?_, ?_, ?_, ?_, h.capped, h.handed,
    h.receipts⟩
  · intro other rival _ hrival hholding
    rcases h.tied other rival hrival hholding with ⟨hlocked, htied⟩
    refine ⟨?_, List.mem_cons_of_mem _ hlocked, htied⟩
    intro hsame
    rw [hsame] at hlocked
    exact hfree hlocked
  · intro first rival second other _ _ hrival hother
    exact h.exclusive first rival second other hrival hother
  · intro userId hlocked hne
    rcases List.mem_cons.mp hlocked with hsame | hold
    · exact absurd hsame hne
    rcases h.occupied userId hold with ⟨other, rival, hrival, hholding, huser⟩
    refine ⟨other, rival, ?_, hrival, hholding, huser⟩
    intro hsame
    rw [hsame, hget] at hrival
    rw [← Option.some.inj hrival, hqueued] at hholding
    cases hholding
  · exact List.nodup_cons.mpr ⟨hfree, h.nodup⟩
  · intro phase hphase
    have hcount := Dict.countP_set_of_get? hget { task with phase := phase } SendTask.isBuilding
    have hnot : SendTask.isBuilding { task with phase := phase } = false := hphase
    have hbefore : task.isBuilding = false := by
      unfold SendTask.isBuilding
      rw [hqueued]
      rfl
    have hbuilds := h.builds
    rw [hnot, hbefore] at hcount
    change sender.buildJobs =
      (sender.tasks.set id { task with phase := phase }).values.countP SendTask.isBuilding
    simp only [Bool.false_eq_true, if_false] at hcount
    omega

/-!
## What a turn leaves behind
-/

section Turned

variable {outcome : SendPhase × AppDatabase}

omit [Crypto] in
theorem turned_database : (sender.turned id task outcome).database = outcome.2 := by
  unfold turned
  split <;> rfl

omit [Crypto] in
theorem turned_tasks : (sender.turned id task outcome).tasks =
    sender.tasks.set id { task with phase := outcome.1 } := by
  unfold turned
  split <;> rfl

omit [Crypto] in
theorem turned_buildJobs : (sender.turned id task outcome).buildJobs = sender.buildJobs := by
  unfold turned
  split <;> rfl

omit [Crypto] in
theorem turned_locks (hqueued : outcome.1 ≠ .queued) :
    (sender.turned id task outcome).locks =
      if outcome.1.holding = true then sender.locks
      else sender.locks.erase task.request.userId := by
  unfold turned
  rcases outcome with ⟨phase, database⟩
  cases phase with
  | queued => exact absurd rfl hqueued
  | ended result =>
      cases result with
      | error e => rfl
      | ok txid => rfl
  | _ => rfl

omit [Crypto] in
theorem mem_turned_handed {intent : Nat × Str} {transaction : Transaction}
    (h : (intent, transaction) ∈ (sender.turned id task outcome).handed) :
    (intent, transaction) ∈ sender.handed ∨
      intent = task.request.intent ∧ outcome.1 = .submitting transaction := by
  unfold turned at h
  split at h
  · exact Or.inl h
  · exact Or.inl h
  · rename_i given hphase
    rcases List.mem_append.mp h with hold | hnew
    · exact Or.inl hold
    · cases List.mem_singleton.mp hnew
      exact Or.inr ⟨rfl, hphase⟩
  · exact Or.inl h

omit [Crypto] in
theorem mem_turned_receipts {request : SendRequest} {txid : Option Str}
    (h : (request, txid) ∈ (sender.turned id task outcome).receipts) :
    (request, txid) ∈ sender.receipts ∨
      request = task.request ∧ outcome.1 = .ended (.ok txid) := by
  unfold turned at h
  split at h
  · rename_i given hphase
    rcases List.mem_append.mp h with hold | hnew
    · exact Or.inl hold
    · cases List.mem_singleton.mp hnew
      exact Or.inr ⟨rfl, hphase⟩
  · exact Or.inl h
  · exact Or.inl h
  · exact Or.inl h

end Turned

omit [Crypto] in
theorem get?_set_phase {tasks : Dict Nat SendTask} {phase : SendPhase} {other : Nat}
    {rival : SendTask} (h : (tasks.set id { task with phase := phase }).get? other = some rival) :
    other = id ∧ rival = { task with phase := phase } ∨
      other ≠ id ∧ tasks.get? other = some rival := by
  rw [Dict.get?_set] at h
  by_cases hother : other = id
  · rw [if_pos hother] at h
    exact Or.inl ⟨hother, (Option.some.inj h).symm⟩
  · rw [if_neg hother] at h
    exact Or.inr ⟨hother, h⟩

theorem tied_of_step {request rival : SendRequest} {outcome : SendPhase × AppDatabase}
    {phase : SendPhase} (hstep : Step keystore maxItemBytes seen request sender.database outcome)
    (hne : rival.intent ≠ request.intent)
    (h : Tied seen rival sender.database phase) : Tied seen rival outcome.2 phase := by
  rcases h with ⟨record, hrecord, hprint, hagrees⟩
  exact ⟨record, by rw [hstep.frame _ hne]; exact hrecord, hprint, hagrees⟩

/-- What a record of some intent says stays true through a turn that keeps sound what it
changes. -/
theorem persists_of_step {request : SendRequest} {outcome : SendPhase × AppDatabase}
    (hstep : Step keystore maxItemBytes seen request sender.database outcome)
    {intent : Nat × Str} {record : IdempotencyRecord}
    (hrecord : sender.database.idempotencyRecords.get? intent = some record)
    (hdata : record.transactionData ≠ none) :
    exists next, outcome.2.idempotencyRecords.get? intent = some next ∧
      Extends record next := by
  by_cases hintent : intent = request.intent
  · rw [hintent] at hrecord ⊢
    exact hstep.grows record hrecord hdata
  · refine ⟨record, ?_, Extends.refl record⟩
    rw [hstep.frame intent hintent]
    exact hrecord

theorem Poised.turned {outcome : SendPhase × AppDatabase}
    (h : Poised keystore maxItemBytes seen sender id task)
    (hstep : Step keystore maxItemBytes seen task.request sender.database outcome) :
    Sound keystore maxItemBytes seen (sender.turned id task outcome) := by
  have hlocks : (sender.turned id task outcome).locks =
      if outcome.1.holding = true then sender.locks
      else sender.locks.erase task.request.userId := turned_locks hstep.settled.left
  have hintent : forall rival : SendTask, rival.request.userId ≠ task.request.userId ->
      rival.request.intent ≠ task.request.intent :=
    fun rival hne heq => hne (congrArg Prod.fst heq)
  have hkept : forall userId, userId ≠ task.request.userId -> userId ∈ sender.locks ->
      userId ∈ (sender.turned id task outcome).locks := by
    intro userId hne hlocked
    rw [hlocks]
    split
    · exact hlocked
    · exact (List.mem_erase_of_ne hne).mpr hlocked
  refine ⟨?_, ?_, ?_, ?_, ?_, ?_, ?_, ?_, ?_, ?_⟩
  · intro other rival hrival
    rw [turned_tasks] at hrival
    rcases get?_set_phase hrival with ⟨_, heq⟩ | ⟨_, hold⟩
    · rw [heq]
      exact h.requests id task h.get
    · exact h.requests other rival hold
  · intro intent
    rw [turned_database]
    refine ⟨?_, hstep.sound.wallets⟩
    intro record hrecord
    by_cases hthis : intent = task.request.intent
    · rw [hthis] at hrecord ⊢
      exact hstep.sound.record record hrecord
    · rw [hstep.frame intent hthis] at hrecord
      exact (h.records intent).record record hrecord
  · intro other rival hrival hholding
    rw [turned_tasks] at hrival
    rw [turned_database]
    rcases get?_set_phase hrival with ⟨_, heq⟩ | ⟨hother, hold⟩
    · rw [heq] at hholding ⊢
      refine ⟨?_, hstep.tied hholding⟩
      rw [hlocks, if_pos hholding]
      exact h.locked
    · rcases h.others other rival hother hold hholding with ⟨hne, hlocked, htied⟩
      exact ⟨hkept _ hne hlocked, tied_of_step hstep (hintent rival hne) htied⟩
  · intro first rival second other hrival hother hholding hholding' hsame
    rw [turned_tasks] at hrival hother
    rcases get?_set_phase hrival with ⟨hfirst, heq⟩ | ⟨hfirst, hold⟩
    · rcases get?_set_phase hother with ⟨hsecond, _⟩ | ⟨hsecond, hold'⟩
      · rw [hfirst, hsecond]
      · rw [heq] at hsame
        exact absurd hsame.symm (h.others second other hsecond hold' hholding').left
    · rcases get?_set_phase hother with ⟨_, heq'⟩ | ⟨hsecond, hold'⟩
      · rw [heq'] at hsame
        exact absurd hsame (h.others first rival hfirst hold hholding).left
      · exact h.exclusive first rival second other hfirst hsecond hold hold' hholding hholding'
          hsame
  · intro userId hlocked
    rw [hlocks] at hlocked
    rw [turned_tasks]
    by_cases huser : userId = task.request.userId
    · by_cases hholding : outcome.1.holding = true
      · refine ⟨id, { task with phase := outcome.1 }, ?_, hholding, huser.symm⟩
        rw [Dict.get?_set, if_pos rfl]
      · rw [if_neg hholding, huser, h.nodup.mem_erase_iff] at hlocked
        exact absurd rfl hlocked.left
    · have hold : userId ∈ sender.locks := by
        split at hlocked
        · exact hlocked
        · exact List.mem_of_mem_erase hlocked
      rcases h.occupied userId hold huser with ⟨other, rival, hother, hrival, hholding, heq⟩
      refine ⟨other, rival, ?_, hholding, heq⟩
      rw [Dict.get?_set, if_neg hother]
      exact hrival
  · rw [hlocks]
    split
    · exact h.nodup
    · exact h.nodup.erase _
  · rw [turned_buildJobs, turned_tasks]
    exact h.builds outcome.1 hstep.settled.right
  · rw [turned_buildJobs]
    exact h.capped
  · intro intent transaction hhanded
    rw [turned_database]
    rcases mem_turned_handed hhanded with hold | ⟨hthis, hphase⟩
    · rcases h.handed intent transaction hold with ⟨record, hrecord, data, hdata, hdecode⟩
      rcases persists_of_step hstep hrecord (by rw [hdata]; exact Option.some_ne_none data) with
        ⟨next, hnext, hextends⟩
      refine ⟨next, hnext, data, ?_, hdecode⟩
      rw [hextends.transactionData]
      exact hdata
    · rw [hthis]
      exact hstep.handing transaction hphase
  · intro request txid hreceipt
    rw [turned_database]
    rcases mem_turned_receipts hreceipt with hold | ⟨hthis, hphase⟩
    · rcases h.receipts request txid hold with
        ⟨hcalled, record, hrecord, hprint, haccepted, htxid⟩
      have hdata : record.transactionData ≠ none := by
        intro hnone
        have hreserved := ((h.records _).record record hrecord).reserved.mpr hnone
        rw [haccepted] at hreserved
        cases hreserved
      rcases persists_of_step hstep hrecord hdata with ⟨next, hnext, hextends⟩
      refine ⟨hcalled, next, hnext, ?_, hextends.accepted haccepted, ?_⟩
      · rw [hextends.requestFingerprint]
        exact hprint
      · rw [hextends.resultTxid]
        exact htxid
    · rw [hthis]
      exact ⟨h.requests id task h.get, hstep.receipt txid hphase⟩

/-!
## Events
-/

theorem Sound.setPhase (h : Sound keystore maxItemBytes seen sender)
    (hget : sender.tasks.get? id = some task) {phase : SendPhase} {chain : Blockchain}
    {d : disk} (jobs : Nat) (hholding : phase.holding = task.phase.holding)
    (htied : phase.holding = true -> Tied seen task.request sender.database phase)
    (hjobs : jobs + (if task.isBuilding = true then 1 else 0) =
      sender.buildJobs + (if phase.isBuilding = true then 1 else 0))
    (hcapped : jobs ≤ MAX_BUILD_JOBS) :
    Sound keystore maxItemBytes seen
      { sender.setPhase id task phase with chain := chain, disk := d, buildJobs := jobs } := by
  have hback : forall other rival, (sender.tasks.set id { task with phase := phase }).get? other =
      some rival -> rival.phase.holding = true -> exists before,
        sender.tasks.get? other = some before ∧ before.request = rival.request ∧
          before.phase.holding = true := by
    intro other rival hrival hrivalHolding
    rcases get?_set_phase hrival with ⟨hother, heq⟩ | ⟨_, hold⟩
    · rw [heq] at hrivalHolding ⊢
      rw [hother]
      exact ⟨task, hget, rfl, by rw [← hholding]; exact hrivalHolding⟩
    · exact ⟨rival, hold, rfl, hrivalHolding⟩
  refine ⟨?_, h.records, ?_, ?_, ?_, h.nodup, ?_, hcapped, h.handed, h.receipts⟩
  · intro other rival hrival
    rcases get?_set_phase hrival with ⟨_, heq⟩ | ⟨_, hold⟩
    · rw [heq]
      exact h.requests id task hget
    · exact h.requests other rival hold
  · intro other rival hrival hrivalHolding
    rcases get?_set_phase hrival with ⟨_, heq⟩ | ⟨_, hold⟩
    · rw [heq] at hrivalHolding ⊢
      refine ⟨(h.tied id task hget ?_).left, htied hrivalHolding⟩
      rw [← hholding]
      exact hrivalHolding
    · exact h.tied other rival hold hrivalHolding
  · intro first rival second other hrival hother hfirst hsecond hsame
    rcases hback first rival hrival hfirst with ⟨before, hbefore, hrequest, hbeforeHolding⟩
    rcases hback second other hother hsecond with
      ⟨before', hbefore', hrequest', hbeforeHolding'⟩
    apply h.exclusive first before second before' hbefore hbefore' hbeforeHolding
      hbeforeHolding'
    rw [hrequest, hrequest']
    exact hsame
  · intro userId hlocked
    rcases h.occupied userId hlocked with ⟨other, rival, hrival, hrivalHolding, huser⟩
    by_cases hother : other = id
    · rw [hother, hget] at hrival
      rw [← Option.some.inj hrival] at hrivalHolding huser
      refine ⟨id, { task with phase := phase }, ?_, ?_, huser⟩
      · change (sender.tasks.set id _).get? id = _
        rw [Dict.get?_set, if_pos rfl]
      · change phase.holding = true
        rw [hholding]
        exact hrivalHolding
    · refine ⟨other, rival, ?_, hrivalHolding, huser⟩
      change (sender.tasks.set id _).get? other = _
      rw [Dict.get?_set, if_neg hother]
      exact hrival
  · have hcount := Dict.countP_set_of_get? hget { task with phase := phase } SendTask.isBuilding
    have hbuilds := h.builds
    have hnext : SendTask.isBuilding { task with phase := phase } = phase.isBuilding := rfl
    rw [hnext] at hcount
    change jobs =
      (sender.tasks.set id { task with phase := phase }).values.countP SendTask.isBuilding
    omega

variable (store : Option (ChainStore disk))

theorem holds_of_find {chain : Blockchain} {txid : Str}
    (h : isMatch (chain.findTransaction txid) = .ok true) : Holds chain txid := by
  cases hfind : chain.findTransaction txid with
  | error e =>
      rw [hfind] at h
      cases h
  | ok result =>
      rw [hfind] at h
      unfold Blockchain.findTransaction at hfind
      rcases bind_eq_ok_iff.mp hfind with ⟨_, _, hrest⟩
      cases hpending : chain.mempool.getTransaction txid with
      | some transaction =>
          rcases Option.map_eq_some_iff.mp hpending with ⟨entry, hentry, _⟩
          exact Or.inl (Dict.mem_keys_of_get? hentry)
      | none =>
          rw [hpending] at hrest
          simp only at hrest
          split at hrest
          · have hlocated := Except.ok.inj hrest
            cases result with
            | none => cases h
            | some found =>
                unfold Blockchain.locate at hlocated
                rcases List.exists_of_findSome?_eq_some hlocated with ⟨item, hitem, hmatch⟩
                rcases Option.map_eq_some_iff.mp hmatch with ⟨transaction, hfound, _⟩
                refine Or.inr ⟨item.1, transaction, ?_, List.mem_of_find?_eq_some hfound, ?_⟩
                · exact List.mem_of_getElem? (List.mk_mem_zipIdx_iff_getElem?.mp hitem)
                · simpa using List.find?_some hfound
          · cases hrest
            cases h

theorem holds_of_submit {chain : Blockchain} {transaction : Transaction} {d : disk}
    (h : (Blockchain.perform store (.submitTransaction transaction) chain d).1 = .ok true) :
    Holds (Blockchain.perform store (.submitTransaction transaction) chain d).2.1
      transaction.txid := by
  rcases Blockchain.perform_answer store (.submitTransaction transaction) chain d with
    ⟨_, block, hprepares⟩ | ⟨hfalse, _⟩
  · generalize hlive : Blockchain.live
      (Blockchain.perform store (.submitTransaction transaction) chain d).2.1 = after at hprepares
    apply Or.inl
    have hpool : (Blockchain.perform store (.submitTransaction transaction) chain d).2.1.mempool =
        after.mempool := by
      rw [← hlive]
      rfl
    rw [hpool]
    cases hprepares with
    | submitTransaction hadd =>
        rcases Mempool.admitted_of_addTransaction hadd with ⟨fee, hadmitted⟩
        unfold Dict.keys
        rw [hadmitted.items_eq, List.map_append]
        exact List.mem_append_right _ List.mem_cons_self
  · exact absurd h hfalse

theorem nodeAnswers_submitting (transaction : Transaction) (chain : Blockchain) (d : disk) :
    nodeAnswers store chain d (.submitting transaction) =
        (.submitted transaction (.ok false), chain, d) ∨
      nodeAnswers store chain d (.submitting transaction) =
        (.submitted transaction
          (Blockchain.perform store (.submitTransaction transaction) chain d).1,
          (Blockchain.perform store (.submitTransaction transaction) chain d).2.1,
          (Blockchain.perform store (.submitTransaction transaction) chain d).2.2) := by
  unfold nodeAnswers
  cases hencode : Codec.encodeTransaction transaction with
  | error e =>
      apply Or.inl
      simp only [hencode]
  | ok data =>
      apply Or.inr
      simp only [hencode]

/-- What a node with this chain holds, and how it views wallets, has been seen. -/
structure Shows (seen : Seen) (chain : Blockchain) : Prop where
  held : forall txid, Holds chain txid -> seen.held txid
  view : forall (wallet : WalletRow) view, chain.walletState wallet.address = .ok view ->
    seen.view wallet view

theorem nodeAnswers_agrees {userId : Nat} {record : IdempotencyRecord} {phase : SendPhase}
    {chain : Blockchain} {d : disk} (h : Agrees seen userId record phase)
    (hshows : Shows seen (nodeAnswers store chain d phase).2.1) :
    Agrees seen userId record (nodeAnswers store chain d phase).1 := by
  have hheld := hshows.held
  cases phase with
  | viewing wallet => exact ⟨h.left, h.right, hshows.view wallet⟩
  | finding transaction => exact ⟨h, fun hmatch => hheld _ (holds_of_find hmatch)⟩
  | rechecking transaction => exact ⟨h, fun hmatch => hheld _ (holds_of_find hmatch)⟩
  | submitting transaction =>
      rcases nodeAnswers_submitting store transaction chain d with heq | heq
      · rw [heq]
        exact ⟨h, fun hfalse => by cases hfalse⟩
      · rw [heq] at hheld ⊢
        exact ⟨h, fun htrue => hheld _ (holds_of_submit store htrue)⟩
  | _ => exact h

theorem nodeAnswers_holding (chain : Blockchain) (d : disk) (phase : SendPhase) :
    (nodeAnswers store chain d phase).1.holding = phase.holding ∧
      (nodeAnswers store chain d phase).1.isBuilding = phase.isBuilding := by
  cases phase with
  | submitting transaction =>
      rcases nodeAnswers_submitting store transaction chain d with heq | heq
      · rw [heq]
        exact ⟨rfl, rfl⟩
      · rw [heq]
        exact ⟨rfl, rfl⟩
  | _ => exact ⟨rfl, rfl⟩

omit [Crypto] in
theorem isBuilding_of_answered {phase : SendPhase} (h : phase.answered = true) :
    phase.holding = true ∧ phase.isBuilding = false := by
  cases phase with
  | viewed wallet answer => exact ⟨rfl, rfl⟩
  | found transaction answer => exact ⟨rfl, rfl⟩
  | submitted transaction answer => exact ⟨rfl, rfl⟩
  | rechecked transaction answer => exact ⟨rfl, rfl⟩
  | _ => cases h

theorem Sound.called (h : Sound keystore maxItemBytes seen sender) (id : Nat)
    {request : SendRequest} (hcalled : seen.called request) :
    Sound keystore maxItemBytes seen (Sender.called id request sender) := by
  unfold Sender.called
  cases hget : sender.tasks.get? id with
  | some task => exact h
  | none =>
      have hback : forall other rival,
          (sender.tasks.set id ⟨request, .queued⟩).get? other = some rival ->
            rival.phase.holding = true -> sender.tasks.get? other = some rival := by
        intro other rival hrival hholding
        rw [Dict.get?_set] at hrival
        split at hrival
        · rw [← Option.some.inj hrival] at hholding
          cases hholding
        · exact hrival
      refine ⟨?_, h.records, ?_, ?_, ?_, h.nodup, ?_, h.capped, h.handed, h.receipts⟩
      · intro other rival hrival
        change (sender.tasks.set id _).get? other = _ at hrival
        rw [Dict.get?_set] at hrival
        split at hrival
        · rw [← Option.some.inj hrival]
          exact hcalled
        · exact h.requests other rival hrival
      · intro other rival hrival hholding
        exact h.tied other rival (hback other rival hrival hholding) hholding
      · intro first rival second other hrival hother hfirst hsecond
        exact h.exclusive first rival second other (hback first rival hrival hfirst)
          (hback second other hother hsecond) hfirst hsecond
      · intro userId hlocked
        rcases h.occupied userId hlocked with ⟨other, rival, hrival, hholding, huser⟩
        refine ⟨other, rival, ?_, hholding, huser⟩
        change (sender.tasks.set id _).get? other = _
        rw [Dict.get?_set, if_neg]
        · exact hrival
        · intro hother
          rw [hother, hget] at hrival
          cases hrival
      · change sender.buildJobs = (sender.tasks.set id _).values.countP _
        rw [Dict.countP_set_of_not_mem ((Dict.get?_eq_none_iff _ _).mp hget)]
        exact h.builds

theorem Sound.locked (h : Sound keystore maxItemBytes seen sender) (id : Nat)
    (fails : Statement -> Bool) :
    Sound keystore maxItemBytes seen (Sender.locked id fails sender) := by
  unfold Sender.locked withTask
  cases hget : sender.tasks.get? id with
  | none => exact h
  | some task =>
      simp only
      cases hphase : task.phase with
      | queued =>
          simp only
          by_cases hlocked : task.request.userId ∈ sender.locks
          · rw [if_pos hlocked]
            exact h
          · rw [if_neg hlocked]
            exact (h.poised_locked hget hphase hlocked).turned (start_step (h.records _))
      | _ => exact h

theorem Sound.answered (h : Sound keystore maxItemBytes seen sender) (id : Nat)
    (hshows : Shows seen (Sender.answered store id sender).chain) :
    Sound keystore maxItemBytes seen (Sender.answered store id sender) := by
  unfold Sender.answered withTask at hshows ⊢
  cases hget : sender.tasks.get? id with
  | none => exact h
  | some task =>
      rw [hget] at hshows
      simp only at hshows ⊢
      rcases nodeAnswers_holding store sender.chain sender.disk task.phase with
        ⟨hholding, hbuilding⟩
      refine h.setPhase hget sender.buildJobs hholding ?_ ?_ h.capped
      · intro hnext
        rw [hholding] at hnext
        rcases (h.tied id task hget hnext).right with ⟨record, hrecord, hprint, hagrees⟩
        exact ⟨record, hrecord, hprint, nodeAnswers_agrees store hagrees hshows⟩
      · rw [hbuilding]
        rfl

theorem Sound.resumed (h : Sound keystore maxItemBytes seen sender) (id : Nat)
    (fails : Statement -> Bool) :
    Sound keystore maxItemBytes seen (Sender.resumed id fails sender) := by
  unfold Sender.resumed withTask
  cases hget : sender.tasks.get? id with
  | none => exact h
  | some task =>
      simp only
      by_cases hanswered : task.phase.answered = true
      · rw [if_pos hanswered]
        rcases isBuilding_of_answered hanswered with ⟨hholding, hbuilding⟩
        have hposed := h.poised hget hholding sender.buildJobs (by
          unfold SendTask.isBuilding
          rw [hbuilding]
          rfl)
        exact hposed.turned
          (resume_step hanswered (h.records _) (h.tied id task hget hholding).right)
      · rw [if_neg hanswered]
        exact h

theorem Sound.slotted (h : Sound keystore maxItemBytes seen sender) (id : Nat) :
    Sound keystore maxItemBytes seen (Sender.slotted id sender) := by
  unfold Sender.slotted withTask
  cases hget : sender.tasks.get? id with
  | none => exact h
  | some task =>
      simp only
      cases hphase : task.phase with
      | slotting wallet view =>
          simp only
          by_cases hfree : sender.buildJobs < MAX_BUILD_JOBS
          · rw [if_pos hfree]
            have hholding : task.phase.holding = true := by
              rw [hphase]
              rfl
            have hnot : task.isBuilding = false := by
              unfold SendTask.isBuilding
              rw [hphase]
              rfl
            refine h.setPhase hget (sender.buildJobs + 1) hholding.symm ?_ ?_ hfree
            · intro _
              rcases (h.tied id task hget hholding).right with
                ⟨record, hrecord, hprint, hagrees⟩
              rw [hphase] at hagrees
              exact ⟨record, hrecord, hprint, hagrees⟩
            · rw [hnot]
              rfl
          · rw [if_neg hfree]
            exact h
      | _ => exact h

theorem Sound.poised_building (h : Sound keystore maxItemBytes seen sender)
    (hget : sender.tasks.get? id = some task) (hbuilding : task.isBuilding = true) :
    Poised keystore maxItemBytes seen sender.releaseBuild id task := by
  have hholding : task.phase.holding = true := by
    unfold SendTask.isBuilding at hbuilding
    cases hphase : task.phase with
    | building wallet view => rfl
    | _ =>
        rw [hphase] at hbuilding
        cases hbuilding
  apply h.poised hget hholding (sender.buildJobs - 1)
  have hcount := Dict.countP_set_of_get? hget { task with phase := .queued } SendTask.isBuilding
  have hbuilds := h.builds
  have hqueued : SendTask.isBuilding { task with phase := .queued } = false := rfl
  rw [hbuilding, hqueued] at hcount
  rw [hbuilding]
  simp only [if_true, Bool.false_eq_true, if_false] at hcount ⊢
  omega

theorem Sound.built (h : Sound keystore maxItemBytes seen sender) (id wallClock : Nat)
    (fails : Statement -> Bool) :
    Sound keystore maxItemBytes seen
      (Sender.built keystore maxItemBytes id wallClock fails sender) := by
  unfold Sender.built withTask
  cases hget : sender.tasks.get? id with
  | none => exact h
  | some task =>
      simp only
      cases hphase : task.phase with
      | building wallet view =>
          simp only
          have hbuilding : task.isBuilding = true := by
            unfold SendTask.isBuilding
            rw [hphase]
            rfl
          have hholding : task.phase.holding = true := by
            rw [hphase]
            rfl
          apply (h.poised_building hget hbuilding).turned
          rcases (h.tied id task hget hholding).right with ⟨record, hrecord, hprint, hagrees⟩
          rw [hphase] at hagrees
          rcases hagrees with ⟨hstate, hwallet, hview⟩
          apply storeBuilt_step (h.records _) ⟨record, hrecord, hprint, hstate⟩
          intro transaction data hprepared
          refine ⟨prepared_decodes hprepared, ?_⟩
          exact ⟨task.request, wallet, view, wallClock, h.requests id task hget, hwallet, hview,
            rfl, rfl, hprepared⟩
      | _ => exact h

theorem Sound.interrupted (h : Sound keystore maxItemBytes seen sender) (id : Nat)
    (e : PyError) (fails : Statement -> Bool) :
    Sound keystore maxItemBytes seen (Sender.interrupted id e fails sender) := by
  unfold Sender.interrupted withTask
  cases hget : sender.tasks.get? id with
  | none => exact h
  | some task =>
      simp only
      have hturn : task.phase.holding = true -> task.isBuilding = false ->
          Sound keystore maxItemBytes seen (sender.turned id task
            (interrupt fails task.request sender.database task.phase e)) := by
        intro hholding hbuilding
        have hposed := h.poised hget hholding sender.buildJobs (by
          rw [hbuilding]
          rfl)
        exact hposed.turned (interrupt_step hholding (h.records _))
      unfold SendTask.isBuilding at hturn
      cases hphase : task.phase with
      | queued =>
          refine h.setPhase hget sender.buildJobs ?_ (fun hend => by cases hend) ?_
            h.capped
          · rw [hphase]
            rfl
          · unfold SendTask.isBuilding
            rw [hphase]
            rfl
      | ended outcome => exact h
      | building wallet view =>
          have hbuilding : task.isBuilding = true := by
            unfold SendTask.isBuilding
            rw [hphase]
            rfl
          exact (h.poised_building hget hbuilding).turned (interrupt_step rfl (h.records _))
      | _ =>
          rw [hphase] at hturn
          exact hturn rfl rfl

theorem Sound.restarted (h : Sound keystore maxItemBytes seen sender) (chain : Blockchain)
    (d : disk) : Sound keystore maxItemBytes seen (Sender.restarted chain d sender) := by
  refine ⟨?_, h.records, ?_, ?_, ?_, List.nodup_nil, rfl, Nat.zero_le _, h.handed,
    h.receipts⟩
  · intro other rival hrival
    cases hrival
  · intro other rival hrival
    cases hrival
  · intro first rival second other hrival
    cases hrival
  · intro userId hlocked
    cases hlocked

theorem Sound.perform (h : Sound keystore maxItemBytes seen sender)
    {event : SendEvent disk}
    (hcalled : forall id request, event = .called id request -> seen.called request)
    (hshows : Shows seen (Sender.perform store keystore maxItemBytes event sender).chain) :
    Sound keystore maxItemBytes seen
      (Sender.perform store keystore maxItemBytes event sender) := by
  cases event with
  | called id request => exact h.called id (hcalled id request rfl)
  | locked id fails => exact h.locked id fails
  | answered id => exact h.answered store id hshows
  | resumed id fails => exact h.resumed id fails
  | slotted id => exact h.slotted id
  | built id wallClock fails => exact h.built id wallClock fails
  | interrupted id e fails => exact h.interrupted id e fails
  | restarted chain d => exact h.restarted chain d
  | nodeMoved chain d =>
      exact ⟨h.requests, h.records, h.tied, h.exclusive, h.occupied, h.nodup, h.builds,
        h.capped, h.handed, h.receipts⟩

theorem Fresh.sound (h : Fresh sender)
    (hwallets : forall userId wallet, sender.database.wallets.get? userId = some wallet ->
      seen.wallet userId wallet) : Sound keystore maxItemBytes seen sender := by
  refine ⟨?_, ?_, ?_, ?_, ?_, ?_, ?_, ?_, ?_, ?_⟩
  · intro id task hget
    rw [h.tasks] at hget
    cases hget
  · intro intent
    refine ⟨?_, hwallets⟩
    intro record hrecord
    rw [h.records] at hrecord
    cases hrecord
  · intro id task hget
    rw [h.tasks] at hget
    cases hget
  · intro id task other rival hget
    rw [h.tasks] at hget
    cases hget
  · intro userId hlocked
    rw [h.locks] at hlocked
    cases hlocked
  · rw [h.locks]
    exact List.nodup_nil
  · rw [h.buildJobs, h.tasks]
    rfl
  · rw [h.buildJobs]
    exact Nat.zero_le _
  · intro intent transaction hhanded
    rw [h.handed] at hhanded
    cases hhanded
  · intro request txid hreceipt
    rw [h.receipts] at hreceipt
    cases hreceipt

end Sender

end Wallet

end PyChain
