import PyChain.Api.Errors
import PyChain.Blockchain.Queries
import PyChain.Storage.Codec

/-!
# The explorer

An index of the confirmed chain that is rebuilt when the tip changes.  A first
pass over the blocks lists transactions and outputs, a second one looks up what
each input spends and writes the history of each address.  Block details and
address details are read from the index.
-/

namespace PyChain

open Foundation

namespace Api

structure HistoryRecord where
  txid : Str
  blockHeight : Option Nat
  timestamp : Int
  status : RecordStatus
  direction : Direction
  amount : Int
  fee : Int
deriving DecidableEq, Repr

structure ChainView where
  tipHeight : Int
  tipHash : Str
  blocksByHeight : Dict Nat Block
  blocksByHash : Dict Str (Nat × Block)
  blockSizes : Dict Nat Nat
  txById : Dict Str (Nat × Str × Transaction)
  txFees : Dict Str Int
  txSizes : Dict Str Nat
  outputsByOutpoint : UTXOSet
  addressHistory : Dict Str (List HistoryRecord)
  totalConfirmedTransactions : Nat

/-- The length of an encoding; every exception counts as zero. -/
def encodedSize (encoded : Except PyError Bytes) : Nat :=
  match encoded with
  | .ok data => data.length
  | .error _ => 0

namespace ChainView

def new (tipHeight : Int) (tipHash : Str) : ChainView :=
  { tipHeight := tipHeight
    tipHash := tipHash
    blocksByHeight := Dict.empty
    blocksByHash := Dict.empty
    blockSizes := Dict.empty
    txById := Dict.empty
    txFees := Dict.empty
    txSizes := Dict.empty
    outputsByOutpoint := Dict.empty
    addressHistory := Dict.empty
    totalConfirmedTransactions := 0 }

variable [Crypto]

/-!
## The first pass
-/

def indexTransaction (height : Nat) (blockHash : Str) (view : ChainView)
    (transaction : Transaction) : ChainView :=
  { view with
    totalConfirmedTransactions := view.totalConfirmedTransactions + 1
    txById := view.txById.set transaction.txid (height, blockHash, transaction)
    txSizes := view.txSizes.set transaction.txid
      (encodedSize (Codec.encodeTransaction transaction))
    outputsByOutpoint :=
      view.outputsByOutpoint.update (UTXOSet.outputItems transaction) }

def indexBlock (view : ChainView) (item : Block × Nat) : ChainView :=
  item.1.transactions.foldl (indexTransaction item.2 item.1.hash)
    { view with
      blocksByHeight := view.blocksByHeight.set item.2 item.1
      blocksByHash := view.blocksByHash.set item.1.hash (item.2, item.1)
      blockSizes := view.blockSizes.set item.2 (encodedSize (Codec.encodeBlock item.1)) }

/-!
## The second pass

The senders of a transaction are a set.  Each of them has a history of its own, so
the order in which they are visited does not matter.
-/

omit [Crypto] in
/-- The outputs that a transaction spends, as far as the index knows them. -/
def spentOutputs (outputs : UTXOSet) (transaction : Transaction) : List TxOutput :=
  transaction.inputs.filterMap (fun input => outputs.get? input.outpoint)

omit [Crypto] in
def inAmount (outputs : UTXOSet) (transaction : Transaction) : Int :=
  ((spentOutputs outputs transaction).map TxOutput.amount).sum

omit [Crypto] in
def outAmount (transaction : Transaction) : Int :=
  (transaction.outputs.map TxOutput.amount).sum

omit [Crypto] in
def clampedFee (outputs : UTXOSet) (transaction : Transaction) : Int :=
  if transaction.inputs.isEmpty = true then 0
  else max 0 (inAmount outputs transaction - outAmount transaction)

omit [Crypto] in
def senderAddresses (outputs : UTXOSet) (transaction : Transaction) : List Str :=
  ((spentOutputs outputs transaction).map TxOutput.recipientAddress).dedup

/-- A record of a confirmed transaction. -/
def confirmedRecord (height : Nat) (transaction : Transaction) (direction : Direction)
    (amount fee : Int) : HistoryRecord :=
  { txid := transaction.txid
    blockHeight := some height
    timestamp := transaction.timestamp
    status := .confirmed
    direction := direction
    amount := amount
    fee := fee }

/-- One record for each recipient, with the sum of what it is paid. -/
def recipientRecords (height : Nat) (transaction : Transaction) (direction : Direction)
    (fee : Int) (outputs : List TxOutput) : List (Str × HistoryRecord) :=
  (Dict.tally (outputs.map (fun output => (output.recipientAddress, output.amount)))).items.map
    (fun item => (item.1, confirmedRecord height transaction direction item.2 fee))

/-- The records of a transaction without inputs. -/
def minedRecords (height : Nat) (transaction : Transaction) : List (Str × HistoryRecord) :=
  recipientRecords height transaction .mined 0 transaction.outputs

/-- The records of any other transaction: of its senders, then of its other
recipients. -/
def movedRecords (outputs : UTXOSet) (height : Nat) (transaction : Transaction) (fee : Int) :
    List (Str × HistoryRecord) :=
  (senderAddresses outputs transaction).map (fun sender =>
      (sender, confirmedRecord height transaction .sent
        (amountPaidPast sender transaction.outputs) fee)) ++
    recipientRecords height transaction .received fee
      (transaction.outputs.filter
        (fun output => output.recipientAddress ∉ senderAddresses outputs transaction))

def recordsOf (outputs : UTXOSet) (height : Nat) (transaction : Transaction) :
    List (Str × HistoryRecord) :=
  if transaction.inputs.isEmpty = true then minedRecords height transaction
  else movedRecords outputs height transaction (clampedFee outputs transaction)

def accountTransaction (height : Nat) (view : ChainView) (transaction : Transaction) :
    ChainView :=
  { view with
    txFees := view.txFees.set transaction.txid
      (clampedFee view.outputsByOutpoint transaction)
    addressHistory := view.addressHistory.pushAll
      (recordsOf view.outputsByOutpoint height transaction) }

def accountBlock (view : ChainView) (item : Block × Nat) : ChainView :=
  item.1.transactions.foldl (accountTransaction item.2) view

omit [Crypto] in
/-- Newest first, by height and then by timestamp. -/
def newestFirst (a b : HistoryRecord) : Prop :=
  b.blockHeight.getD 0 < a.blockHeight.getD 0 ∨
    (b.blockHeight.getD 0 = a.blockHeight.getD 0 ∧ b.timestamp ≤ a.timestamp)

instance : DecidableRel newestFirst :=
  fun a b => inferInstanceAs (Decidable (b.blockHeight.getD 0 < a.blockHeight.getD 0 ∨
    (b.blockHeight.getD 0 = a.blockHeight.getD 0 ∧ b.timestamp ≤ a.timestamp)))

def populate (view : ChainView) (blocks : List Block) : ChainView :=
  let indexed := blocks.zipIdx.foldl indexBlock view
  let accounted := blocks.zipIdx.foldl accountBlock indexed
  { accounted with
    addressHistory := accounted.addressHistory.mapValues
      (fun records => records.insertionSort newestFirst) }

/-- The view of a list of blocks with a tip. -/
def of (blocks : List Block) (tip : Block) : ChainView :=
  (new ((blocks.length : Int) - 1) tip.hash).populate blocks

end ChainView

/-!
## What the passes leave
-/

namespace ChainView

variable [Crypto]

/-- Where each transaction of some numbered blocks stands. -/
def locations (items : List (Block × Nat)) : List (Str × (Nat × Str × Transaction)) :=
  items.flatMap (fun item => item.1.transactions.map
    (fun transaction => (transaction.txid, (item.2, item.1.hash, transaction))))

omit [Crypto] in
/-- All transactions of a chain, block by block as they are listed. -/
def listed (items : List (Block × Nat)) : List Transaction :=
  items.flatMap (fun item => item.1.transactions)

structure Indexes (view : ChainView) (entries : List (Str × (Nat × Str × Transaction)))
    (transactions : List Transaction) (after : ChainView) : Prop where
  txById : after.txById = view.txById.update entries
  outputs : after.outputsByOutpoint =
    view.outputsByOutpoint.update (transactions.flatMap UTXOSet.outputItems)
  total : after.totalConfirmedTransactions =
    view.totalConfirmedTransactions + transactions.length
  txFees : after.txFees = view.txFees
  addressHistory : after.addressHistory = view.addressHistory
  tipHash : after.tipHash = view.tipHash

theorem indexTransactions_indexes (height : Nat) (blockHash : Str)
    (transactions : List Transaction) :
    forall view : ChainView,
      Indexes view
        (transactions.map
          (fun transaction => (transaction.txid, (height, blockHash, transaction))))
        transactions (transactions.foldl (indexTransaction height blockHash) view) := by
  induction transactions with
  | nil =>
      intro view
      exact ⟨rfl, rfl, rfl, rfl, rfl, rfl⟩
  | cons transaction rest ih =>
      intro view
      rcases ih (indexTransaction height blockHash view transaction) with
        ⟨hids, houtputs, htotal, hfees, hhistory, htip⟩
      refine ⟨hids, ?_, ?_, hfees, hhistory, htip⟩
      · rw [List.foldl_cons, houtputs, List.flatMap_cons]
        unfold Dict.update
        rw [List.foldl_append]
        rfl
      · rw [List.foldl_cons, htotal, List.length_cons]
        unfold indexTransaction
        simp only
        omega

theorem indexBlocks_indexes (items : List (Block × Nat)) :
    forall view : ChainView,
      Indexes view (locations items) (listed items) (items.foldl indexBlock view) := by
  induction items with
  | nil =>
      intro view
      exact ⟨rfl, rfl, rfl, rfl, rfl, rfl⟩
  | cons item rest ih =>
      intro view
      rcases ih (indexBlock view item) with
        ⟨hids, houtputs, htotal, hfees, hhistory, htip⟩
      rcases indexTransactions_indexes item.2 item.1.hash item.1.transactions
        { view with
          blocksByHeight := view.blocksByHeight.set item.2 item.1
          blocksByHash := view.blocksByHash.set item.1.hash (item.2, item.1)
          blockSizes :=
            view.blockSizes.set item.2 (encodedSize (Codec.encodeBlock item.1)) } with
        ⟨hids', houtputs', htotal', hfees', hhistory', htip'⟩
      refine ⟨?_, ?_, ?_, hfees.trans hfees', hhistory.trans hhistory', htip.trans htip'⟩
      · rw [List.foldl_cons, hids]
        unfold indexBlock
        rw [hids']
        unfold locations Dict.update
        rw [List.flatMap_cons, List.foldl_append]
      · rw [List.foldl_cons, houtputs]
        unfold indexBlock
        rw [houtputs']
        unfold listed Dict.update
        rw [List.flatMap_cons, List.flatMap_append, List.foldl_append]
      · rw [List.foldl_cons, htotal]
        unfold indexBlock
        rw [htotal']
        unfold listed
        rw [List.flatMap_cons, List.length_append]
        simp only
        omega

/-- What the second pass adds, over one set of outputs. -/
structure Accounts (view : ChainView) (fees : List (Str × Int))
    (records : List (Str × HistoryRecord)) (after : ChainView) : Prop where
  txFees : after.txFees = view.txFees.update fees
  addressHistory : after.addressHistory = view.addressHistory.pushAll records
  outputs : after.outputsByOutpoint = view.outputsByOutpoint
  txById : after.txById = view.txById
  total : after.totalConfirmedTransactions = view.totalConfirmedTransactions
  tipHash : after.tipHash = view.tipHash

theorem accountTransactions_accounts (height : Nat) (transactions : List Transaction) :
    forall view : ChainView,
      Accounts view
        (transactions.map (fun transaction =>
          (transaction.txid, clampedFee view.outputsByOutpoint transaction)))
        (transactions.flatMap (recordsOf view.outputsByOutpoint height))
        (transactions.foldl (accountTransaction height) view) := by
  induction transactions with
  | nil =>
      intro view
      exact ⟨rfl, rfl, rfl, rfl, rfl, rfl⟩
  | cons transaction rest ih =>
      intro view
      rcases ih (accountTransaction height view transaction) with
        ⟨hfees, hhistory, houtputs, hids, htotal, htip⟩
      refine ⟨hfees, ?_, houtputs, hids, htotal, htip⟩
      rw [List.foldl_cons, hhistory, List.flatMap_cons]
      unfold Dict.pushAll
      rw [List.foldl_append]
      rfl

def blockRecords (outputs : UTXOSet) (items : List (Block × Nat)) :
    List (Str × HistoryRecord) :=
  items.flatMap (fun item => item.1.transactions.flatMap (recordsOf outputs item.2))

theorem accountBlocks_accounts (items : List (Block × Nat)) :
    forall view : ChainView,
      Accounts view
        ((listed items).map (fun transaction =>
          (transaction.txid, clampedFee view.outputsByOutpoint transaction)))
        (blockRecords view.outputsByOutpoint items) (items.foldl accountBlock view) := by
  induction items with
  | nil =>
      intro view
      exact ⟨rfl, rfl, rfl, rfl, rfl, rfl⟩
  | cons item rest ih =>
      intro view
      rcases ih (accountBlock view item) with
        ⟨hfees, hhistory, houtputs, hids, htotal, htip⟩
      rcases accountTransactions_accounts item.2 item.1.transactions view with
        ⟨hfees', hhistory', houtputs', hids', htotal', htip'⟩
      have hsame : (accountBlock view item).outputsByOutpoint = view.outputsByOutpoint :=
        houtputs'
      rw [hsame] at hfees hhistory
      refine ⟨?_, ?_, houtputs.trans houtputs', hids.trans hids', htotal.trans htotal',
        htip.trans htip'⟩
      · rw [List.foldl_cons, hfees]
        unfold accountBlock
        rw [hfees']
        unfold listed Dict.update
        rw [List.flatMap_cons, List.map_append, List.foldl_append]
      · rw [List.foldl_cons, hhistory]
        unfold accountBlock
        rw [hhistory']
        unfold blockRecords Dict.pushAll
        rw [List.flatMap_cons, List.foldl_append]

/-- The index that both passes leave. -/
structure Populated (blocks : List Block) (view : ChainView) : Prop where
  txById : view.txById = Dict.empty.update (locations blocks.zipIdx)
  outputs : view.outputsByOutpoint =
    Dict.empty.update ((listed blocks.zipIdx).flatMap UTXOSet.outputItems)
  total : view.totalConfirmedTransactions = (listed blocks.zipIdx).length
  txFees : view.txFees = Dict.empty.update ((listed blocks.zipIdx).map
    (fun transaction => (transaction.txid, clampedFee view.outputsByOutpoint transaction)))
  addressHistory : forall address, (view.addressHistory.listAt address).Perm
    (Dict.valuesOf (blockRecords view.outputsByOutpoint blocks.zipIdx) address)

theorem populate_populated (blocks : List Block) (tipHeight : Int) (tipHash : Str) :
    Populated blocks ((new tipHeight tipHash).populate blocks) := by
  rcases indexBlocks_indexes blocks.zipIdx (new tipHeight tipHash) with
    ⟨hids, houtputs, htotal, hfees, hhistory, _⟩
  rcases accountBlocks_accounts blocks.zipIdx
    (blocks.zipIdx.foldl indexBlock (new tipHeight tipHash)) with
    ⟨hfees', hhistory', houtputs', hids', htotal', _⟩
  unfold populate
  refine ⟨hids'.trans hids, houtputs'.trans houtputs, ?_, ?_, ?_⟩
  · rw [htotal', htotal]
    exact Nat.zero_add _
  · rw [hfees', hfees, houtputs']
    rfl
  · intro address
    simp only [houtputs', hhistory', hhistory]
    rw [Dict.listAt_mapValues _ rfl, Dict.listAt_pushAll]
    exact List.perm_insertionSort newestFirst _

theorem populate_tipHash (blocks : List Block) (view : ChainView) :
    (view.populate blocks).tipHash = view.tipHash := by
  unfold populate
  rw [(accountBlocks_accounts blocks.zipIdx _).tipHash]
  exact (indexBlocks_indexes blocks.zipIdx view).tipHash

end ChainView

/-!
## Block details
-/

structure EnrichedInput where
  previousTxId : Str
  outputIndex : Int
  publicKey : Str
  signature : Str
  sourceAddress : Option Str
  amount : Option Int
deriving DecidableEq, Repr

structure EnrichedOutput where
  index : Nat
  recipientAddress : Str
  amount : Int
deriving DecidableEq, Repr

structure EnrichedTransaction where
  txid : Str
  status : RecordStatus
  blockHeight : Option Nat
  blockHash : Option Str
  timestamp : Int
  version : Int
  isCoinbase : Bool
  inputs : List EnrichedInput
  outputs : List EnrichedOutput
  fee : Int
  sizeBytes : Nat
deriving DecidableEq, Repr

structure BlockDetail where
  height : Nat
  hash : Str
  version : Int
  previousBlockHash : Str
  merkleRoot : Str
  timestamp : Int
  difficulty : Int
  nonce : Int
  transactionCount : Nat
  sizeBytes : Nat
  minerAddress : Option Str
  totalFees : Int
  totalOutputAmount : Int
  transactions : List EnrichedTransaction

section Details

variable [Crypto]

omit [Crypto] in
def enrichInput (view : ChainView) (input : TxInput) : EnrichedInput :=
  let previous := view.outputsByOutpoint.get? input.outpoint
  { previousTxId := input.previousTxId
    outputIndex := input.outputIndex
    publicKey := input.publicKey
    signature := input.signature
    sourceAddress := previous.map TxOutput.recipientAddress
    amount := previous.map TxOutput.amount }

/-- The fee that is shown: the known one, that of the index, or what the index can
still compute. -/
def enrichedFee (view : ChainView) (transaction : Transaction) (knownFee : Option Int) :
    Int :=
  match knownFee with
  | some fee => fee
  | none =>
      if transaction.inputs.isEmpty = true then 0
      else
        match view.txFees.get? transaction.txid with
        | some fee => fee
        | none => ChainView.clampedFee view.outputsByOutpoint transaction

def enrichedSize (view : ChainView) (transaction : Transaction) (knownSize : Option Nat) :
    Nat :=
  match knownSize with
  | some size => size
  | none =>
      match view.txSizes.get? transaction.txid with
      | some size => size
      | none => encodedSize (Codec.encodeTransaction transaction)

def enrichTransaction (view : ChainView) (transaction : Transaction) (status : RecordStatus)
    (blockHeight : Option Nat) (blockHash : Option Str) (knownFee : Option Int)
    (knownSize : Option Nat) : EnrichedTransaction :=
  { txid := transaction.txid
    status := status
    blockHeight := blockHeight
    blockHash := blockHash
    timestamp := transaction.timestamp
    version := transaction.version
    isCoinbase := transaction.inputs.isEmpty
    inputs := transaction.inputs.map (enrichInput view)
    outputs := transaction.outputs.zipIdx.map (fun item =>
      { index := item.2
        recipientAddress := item.1.recipientAddress
        amount := item.1.amount })
    fee := enrichedFee view transaction knownFee
    sizeBytes := enrichedSize view transaction knownSize }

/-- One turn of the loop over the transactions of a block. -/
def detailTransaction (view : ChainView) (detail : BlockDetail)
    (item : Transaction × Nat) : BlockDetail :=
  let enriched := enrichTransaction view item.1 .confirmed (some detail.height)
    (some detail.hash) none none
  let first := item.2 = 0 ∧ enriched.isCoinbase = true
  { detail with
    transactions := detail.transactions ++ [enriched]
    minerAddress :=
      if first ∧ item.1.outputs ≠ [] then item.1.outputs.head?.map TxOutput.recipientAddress
      else detail.minerAddress
    totalFees := if first then detail.totalFees else detail.totalFees + enriched.fee
    totalOutputAmount := detail.totalOutputAmount + ChainView.outAmount item.1 }

def formatBlockDetail (block : Block) (height : Nat) (view : ChainView) : BlockDetail :=
  block.transactions.zipIdx.foldl (detailTransaction view)
    { height := height
      hash := block.hash
      version := block.version
      previousBlockHash := block.previousBlockHash
      merkleRoot := block.merkleRoot
      timestamp := block.timestamp
      difficulty := block.difficulty
      nonce := block.nonce
      transactionCount := block.transactions.length
      sizeBytes := (view.blockSizes.get? height).getD 0
      minerAddress := none
      totalFees := 0
      totalOutputAmount := 0
      transactions := [] }

end Details

end Api

end PyChain
