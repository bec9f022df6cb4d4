import PyChain.Wallet.Idempotency
import PyChain.Wallet.Payments

/-!
# Receipts

What the callers of `send` may rely on in every run, whatever statements fail, whichever
awaits raise, however often the process starts again and whatever else the node does.
-/

namespace PyChain

open Foundation

namespace Wallet

open Appdb

/-!
## Fingerprints
-/

theorem requestDict_sortKeys (request : SendRequest) :
    Json.sortKeys request.toDict =
      Json.obj
        [(str "amount", Json.int request.amount),
          (str "fee", Json.int request.fee),
          (str "recipient_address", Json.str request.recipientAddress)] := rfl

theorem requestDict_distinct (request : SendRequest) : Json.DistinctKeys request.toDict := by
  unfold SendRequest.toDict
  simp only [Json.DistinctKeys, Json.FieldsDistinct, and_self, and_true, List.map_cons,
    List.map_nil]
  decide

theorem eq_of_serialize {x y : SendRequest} (hintent : x.intent = y.intent)
    (h : Json.serialize x.toDict = Json.serialize y.toDict) : x = y := by
  have hsorted := Json.serialize_injective (requestDict_distinct x) (requestDict_distinct y) h
  rw [requestDict_sortKeys, requestDict_sortKeys] at hsorted
  simp only [Json.obj.injEq, List.cons.injEq, Prod.mk.injEq, Json.int.injEq, Json.str.injEq,
    true_and, and_true] at hsorted
  rcases hsorted with ⟨hamount, hfee, hrecipient⟩
  rcases Prod.mk.inj hintent with ⟨huser, hkey⟩
  cases x
  cases y
  simp only [SendRequest.mk.injEq]
  exact ⟨huser, hrecipient, hamount, hfee, hkey⟩

namespace Sender

section Runs

variable [Crypto] {disk : Type} (store : Option (ChainStore disk)) (keystore : KeyStore)
  (maxItemBytes : Nat) (start : Sender disk) (calls : List (SendEvent disk))

def after : Sender disk :=
  (machine store keystore maxItemBytes).run calls start

/-- A state the run goes through. -/
def Passes (state : Sender disk) : Prop :=
  exists done later, calls = done ++ later ∧
    state = after store keystore maxItemBytes start done

def seenIn : Seen where
  called request := exists id, SendEvent.called id request ∈ calls
  wallet userId row := start.database.wallets.get? userId = some row
  view row view := exists state, Passes store keystore maxItemBytes start calls state ∧
    state.chain.walletState row.address = .ok view
  held txid := exists state, Passes store keystore maxItemBytes start calls state ∧
    Holds state.chain txid

/-- The bytes that are hashed into the fingerprints of a run. -/
def FingerprintInput (data : Bytes) : Prop :=
  exists id request, SendEvent.called id request ∈ calls ∧
    Json.serialize request.toDict = data

variable {start}

theorem run_sound (hfresh : Fresh start) :
    Sound keystore maxItemBytes (seenIn store keystore maxItemBytes start calls)
      (after store keystore maxItemBytes start calls) := by
  apply Machine.run_invariant_along (machine store keystore maxItemBytes)
    (fun event => event ∈ calls) (Passes store keystore maxItemBytes start calls)
    (Sound keystore maxItemBytes (seenIn store keystore maxItemBytes start calls))
  · intro event sender hevent hpasses hsound
    apply hsound.perform store
    · intro id request heq
      rw [heq] at hevent
      exact ⟨id, hevent⟩
    · constructor
      · intro txid hholds
        exact ⟨_, hpasses, hholds⟩
      · intro wallet view hview
        exact ⟨_, hpasses, hview⟩
  · exact fun _ hevent => hevent
  · intro done later heq
    exact ⟨done, later, heq, rfl⟩
  · exact hfresh.sound (fun _ _ hwallet => hwallet)

variable {store keystore maxItemBytes calls}

theorem stores_unique {record record' : IdempotencyRecord} {x y : Transaction}
    (heq : record = record') (hx : Stores record x) (hy : Stores record' y) : x = y := by
  rcases hx with ⟨data, hdata, hdecode⟩
  rcases hy with ⟨data', hdata', hdecode'⟩
  rw [heq, hdata'] at hdata
  rw [← Option.some.inj hdata, hdecode'] at hdecode
  exact (Except.ok.inj hdecode).symm

theorem stored_built {intent : Nat × Str} {record : IdempotencyRecord}
    {transaction : Transaction} {seen : Seen}
    (hsound : RecordSound keystore maxItemBytes seen intent record)
    (hstores : Stores record transaction) : exists data,
      record.resultTxid = some transaction.txid ∧
        BuiltFor keystore maxItemBytes seen intent record.requestFingerprint transaction
          data := by
  rcases hstores with ⟨data, hdata, hdecode⟩
  rcases hsound.built data hdata with ⟨other, hother, htxid, hbuilt⟩
  rw [hdecode] at hother
  rw [← Except.ok.inj hother] at htxid hbuilt
  exact ⟨data, htxid, hbuilt⟩

theorem accepted_stores {intent : Nat × Str} {record : IdempotencyRecord} {seen : Seen}
    (hsound : RecordSound keystore maxItemBytes seen intent record)
    (haccepted : record.state = .accepted) : exists transaction, Stores record transaction := by
  cases hdata : record.transactionData with
  | none =>
      have hreserved := hsound.reserved.mpr hdata
      rw [haccepted] at hreserved
      cases hreserved
  | some data =>
      rcases hsound.built data hdata with ⟨transaction, hdecode, _⟩
      exact ⟨transaction, data, hdata, hdecode⟩

/-- In every run the node is handed at most one transaction for one intent, however often
it is retried.  It was prepared for a send with this intent, from the wallet of its user
and a view of that wallet which the node gave during the run. -/
theorem handed_once (hfresh : Fresh start) {intent : Nat × Str} {transaction : Transaction}
    (h : (intent, transaction) ∈ (after store keystore maxItemBytes start calls).handed) :
    (exists id request wallet state view wallClock data,
      SendEvent.called id request ∈ calls ∧ request.intent = intent ∧
        start.database.wallets.get? intent.1 = some wallet ∧
        Passes store keystore maxItemBytes start calls state ∧
        state.chain.walletState wallet.address = .ok view ∧
        prepareTransaction keystore wallet view request.recipientAddress request.amount
          request.fee maxItemBytes wallClock = .ok (transaction, data)) ∧
      forall other,
        (intent, other) ∈ (after store keystore maxItemBytes start calls).handed ->
          other = transaction := by
  have hsound := run_sound store keystore maxItemBytes calls hfresh
  rcases hsound.handed intent transaction h with ⟨record, hrecord, hstores⟩
  constructor
  · rcases stored_built ((hsound.records intent).record record hrecord) hstores with
      ⟨data, _, request, wallet, view, wallClock, ⟨id, hcalled⟩, hwallet, ⟨state, hpasses, hview⟩,
        hintent, _, hprepared⟩
    rw [← hintent]
    exact ⟨id, request, wallet, state, view, wallClock, data, hcalled, rfl, hwallet, hpasses,
      hview, hprepared⟩
  · intro other hother
    rcases hsound.handed intent other hother with ⟨record', hrecord', hstores'⟩
    rw [hrecord] at hrecord'
    exact stores_unique (Option.some.inj hrecord').symm hstores' hstores

/-- A receipt names a transaction that was prepared for this very send and that the node
has held, as pending or confirmed, at some point of the run.  All receipts and all
transactions handed to the node of one intent agree, so a key is never used for two
payloads. -/
theorem receipts_honest (hfresh : Fresh start) (hfree : CollisionFreeOn (FingerprintInput calls))
    {request : SendRequest} {txid : Option Str}
    (h : (request, txid) ∈ (after store keystore maxItemBytes start calls).receipts) :
    exists transaction, txid = some transaction.txid ∧
      (exists wallet state view wallClock data,
        start.database.wallets.get? request.userId = some wallet ∧
          Passes store keystore maxItemBytes start calls state ∧
          state.chain.walletState wallet.address = .ok view ∧
          prepareTransaction keystore wallet view request.recipientAddress request.amount
            request.fee maxItemBytes wallClock = .ok (transaction, data)) ∧
      (exists state, Passes store keystore maxItemBytes start calls state ∧
        Holds state.chain transaction.txid) ∧
      (forall other txid',
        (other, txid') ∈ (after store keystore maxItemBytes start calls).receipts ->
          other.intent = request.intent -> other = request ∧ txid' = txid) ∧
      forall other,
        (request.intent, other) ∈ (after store keystore maxItemBytes start calls).handed ->
          other = transaction := by
  have hsound := run_sound store keystore maxItemBytes calls hfresh
  have hsame : forall x y : SendRequest,
      (seenIn store keystore maxItemBytes start calls).called x ->
      (seenIn store keystore maxItemBytes start calls).called y ->
      x.intent = y.intent -> fingerprint x = fingerprint y -> x = y := by
    intro x y hx hy hintent hprint
    rcases hx with ⟨first, hfirst⟩
    rcases hy with ⟨second, hsecond⟩
    exact eq_of_serialize hintent
      (hfree.hex_injective ⟨first, x, hfirst, rfl⟩ ⟨second, y, hsecond, rfl⟩ hprint)
  rcases hsound.receipts request txid h with
    ⟨hcalled, record, hrecord, hprint, haccepted, htxid⟩
  have hthis := (hsound.records request.intent).record record hrecord
  rcases accepted_stores hthis haccepted with ⟨transaction, hstores⟩
  rcases stored_built hthis hstores with
    ⟨data, hresult, other, wallet, view, wallClock, hother, hwallet, ⟨state, hpasses, hview⟩,
      hintent, hprint', hprepared⟩
  have heq : other = request := hsame other request hother hcalled hintent (by rw [hprint', hprint])
  rw [heq] at hwallet hprepared
  refine ⟨transaction, ?_, ⟨wallet, state, view, wallClock, data, hwallet, hpasses, hview,
    hprepared⟩, hthis.accepted haccepted _ hresult, ?_, ?_⟩
  · rw [← htxid]
    exact hresult
  · intro later txid' hlater hintent'
    rcases hsound.receipts later txid' hlater with
      ⟨hcalled', record', hrecord', hprint'', _, htxid'⟩
    rw [hintent', hrecord] at hrecord'
    rw [← Option.some.inj hrecord'] at hprint'' htxid'
    refine ⟨hsame later request hcalled' hcalled hintent' (by rw [← hprint'', hprint]), ?_⟩
    rw [← htxid', htxid]
  · intro handed hhanded
    rcases hsound.handed _ handed hhanded with ⟨record', hrecord', hstores'⟩
    rw [hrecord] at hrecord'
    exact stores_unique (Option.some.inj hrecord').symm hstores' hstores

/-- A user is locked exactly while one of its sends is under way, which is then the only
one, and no lock and no build slot is ever lost: every slot taken belongs to a send that
is building, and there are at most two. -/
theorem locks_exact (hfresh : Fresh start) :
    (after store keystore maxItemBytes start calls).locks.Nodup ∧
      (forall userId,
        userId ∈ (after store keystore maxItemBytes start calls).locks <-> exists id task,
          (after store keystore maxItemBytes start calls).tasks.get? id = some task ∧
            task.phase.holding = true ∧ task.request.userId = userId) ∧
      (forall id task other rival,
        (after store keystore maxItemBytes start calls).tasks.get? id = some task ->
        (after store keystore maxItemBytes start calls).tasks.get? other = some rival ->
        task.phase.holding = true -> rival.phase.holding = true ->
        task.request.userId = rival.request.userId -> id = other) ∧
      (after store keystore maxItemBytes start calls).buildJobs =
        (after store keystore maxItemBytes start calls).tasks.values.countP
          SendTask.isBuilding ∧
      (after store keystore maxItemBytes start calls).buildJobs ≤ MAX_BUILD_JOBS := by
  have hsound := run_sound store keystore maxItemBytes calls hfresh
  refine ⟨hsound.nodup, ?_, hsound.exclusive, hsound.builds, hsound.capped⟩
  intro userId
  constructor
  · exact hsound.occupied userId
  · intro hexists
    rcases hexists with ⟨id, task, hget, hholding, huser⟩
    rw [← huser]
    exact (hsound.tied id task hget hholding).left

end Runs

end Sender

end Wallet

/-!
## A retry after a restart
-/

namespace Sample

open Wallet

def sendRequest : SendRequest where
  userId := 1
  recipientAddress := other
  amount := 10
  fee := 1
  idempotencyKey := str "first"

def sender : Sender Unit where
  database :=
    { users := Dict.empty.set 1 ⟨str "owner@example.org", str "owner", str "hash"⟩
      wallets := Dict.empty.set 1 wallet
      sessions := Dict.empty
      idempotencyRecords := Dict.empty }
  chain := unspent
  disk := ()
  locks := []
  buildJobs := 0
  tasks := Dict.empty
  handed := []
  receipts := []

theorem sender_fresh : Sender.Fresh sender :=
  ⟨rfl, rfl, rfl, rfl, rfl, rfl⟩

def smooth (_ : Statement) : Bool := false

/-- The process stops once the transaction has been handed to the node, and the caller
tries again. -/
def retried : List (SendEvent Unit) :=
  [.called 7 sendRequest, .locked 7 smooth, .answered 7, .resumed 7 smooth, .slotted 7,
    .built 7 1788652950 smooth, .answered 7, .resumed 7 smooth, .restarted unspent (),
    .called 8 sendRequest, .locked 8 smooth, .answered 8, .resumed 8 smooth, .answered 8,
    .resumed 8 smooth]

theorem retried_outcome :
    (@Sender.after ownersCrypto Unit none keystore 100000 sender retried).handed =
        [(sendRequest.intent, payment), (sendRequest.intent, payment)] ∧
      (@Sender.after ownersCrypto Unit none keystore 100000 sender retried).receipts =
        [(sendRequest, some (@Transaction.txid ownersCrypto payment))] := by
  decide +kernel

theorem retried_free :
    @CollisionFreeOn ownersCrypto (Sender.FingerprintInput retried) := by
  have hinput : forall data, Sender.FingerprintInput retried data ->
      data = Json.serialize sendRequest.toDict := by
    intro data h
    rcases h with ⟨id, request, hcalled, hdata⟩
    rw [← hdata]
    unfold retried at hcalled
    simp only [List.mem_cons, SendEvent.called.injEq, reduceCtorEq, List.not_mem_nil, false_or,
      or_false] at hcalled
    rcases hcalled with ⟨_, heq⟩ | ⟨_, heq⟩
    · rw [heq]
    · rw [heq]
  intro x y hx hy _
  rw [hinput x hx, hinput y hy]

end Sample

namespace Wallet.Sender

theorem handed_once_sample : exists wallet : WalletRow,
    Sample.sender.database.wallets.get? 1 = some wallet ∧
      forall other, (Sample.sendRequest.intent, other) ∈
        (@after Sample.ownersCrypto Unit none Sample.keystore 100000 Sample.sender
          Sample.retried).handed -> other = Sample.payment := by
  rcases Sample.retried_outcome with ⟨hhanded, _⟩
  rcases @handed_once Sample.ownersCrypto Unit none Sample.keystore 100000 Sample.sender
    Sample.retried Sample.sender_fresh Sample.sendRequest.intent Sample.payment (by
      rw [hhanded]
      exact List.mem_cons_self) with ⟨⟨_, _, wallet, _, _, _, _, _, _, hwallet, _⟩, honce⟩
  exact ⟨wallet, hwallet, honce⟩

theorem receipts_honest_sample : exists transaction state,
    @Passes Sample.ownersCrypto Unit none Sample.keystore 100000 Sample.sender Sample.retried
        state ∧
      @Holds Sample.ownersCrypto state.chain (@Transaction.txid Sample.ownersCrypto transaction) ∧
      @Transaction.txid Sample.ownersCrypto Sample.payment =
        @Transaction.txid Sample.ownersCrypto transaction := by
  rcases Sample.retried_outcome with ⟨_, hreceipts⟩
  rcases @receipts_honest Sample.ownersCrypto Unit none Sample.keystore 100000 Sample.sender
    Sample.retried Sample.sender_fresh Sample.retried_free Sample.sendRequest _ (by
      rw [hreceipts]
      exact List.mem_cons_self) with ⟨transaction, htxid, _, ⟨state, hpasses, hholds⟩, _⟩
  exact ⟨transaction, state, hpasses, hholds, Option.some.inj htxid⟩

theorem locks_exact_sample :
    (@after Sample.ownersCrypto Unit none Sample.keystore 100000 Sample.sender
        Sample.retried).locks.Nodup ∧
      (@after Sample.ownersCrypto Unit none Sample.keystore 100000 Sample.sender
        Sample.retried).buildJobs ≤ MAX_BUILD_JOBS := by
  rcases @locks_exact Sample.ownersCrypto Unit none Sample.keystore 100000 Sample.sender
    Sample.retried Sample.sender_fresh with ⟨hnodup, _, _, _, hcapped⟩
  exact ⟨hnodup, hcapped⟩

end Wallet.Sender

end PyChain
