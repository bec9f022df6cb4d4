import PyChain.Blockchain.Ledger
import PyChain.Foundation.Grouping

/-!
# What wallets read

The address view, the wallet state of the node command, the wallet history, and the
lookup of a transaction.
The history replays every transaction, confirmed ones first, against the outputs
seen so far; a pool keeps parents before children, so each output it looks for is
already there.
-/

namespace PyChain

open Foundation

inductive RecordStatus where
  | pending
  | confirmed
deriving DecidableEq, Repr

/-- What a transaction is to an address. -/
inductive Direction where
  | mined
  | sent
  | received
deriving DecidableEq, Repr

structure AddressInfo where
  address : Str
  confirmedBalance : Int
  utxos : UTXOSet
  utxoCount : Nat

/-- The address view of the node, with the pending transactions. -/
structure WalletState extends AddressInfo where
  pending : List Transaction

structure WalletRecord where
  txid : Str
  status : RecordStatus
  direction : Direction
  amount : Int
  timestamp : Int
  blockHeight : Option Nat
deriving DecidableEq, Repr

structure FoundTransaction where
  transaction : Transaction
  status : RecordStatus
  height : Option Nat
  blockHash : Option Str

/-- The amounts that some outputs pay to an address. -/
def amountPaidTo (address : Str) (outputs : List TxOutput) : Int :=
  ((outputs.filter (fun output => output.recipientAddress = address)).map
    TxOutput.amount).sum

/-- The amounts that some outputs pay to anyone else. -/
def amountPaidPast (address : Str) (outputs : List TxOutput) : Int :=
  ((outputs.filter (fun output => output.recipientAddress ≠ address)).map
    TxOutput.amount).sum

/-- The output is there and pays the address. -/
def paysAddress (address : Str) (output : Option TxOutput) : Bool :=
  match output with
  | none => false
  | some output => output.recipientAddress = address

section Queries

variable [Crypto]

namespace Blockchain

omit [Crypto] in
def getBlocks (chain : Blockchain) (startHeight limit : Int) : Except PyError (List Block) := do
  ensureUsable chain
  if startHeight < 0 ∨ limit < 1 ∨ 100 < limit then return []
  else if chain.blocks.length ≤ startHeight then return []
  else return (chain.blocks.drop startHeight.toNat).take limit.toNat

omit [Crypto] in
def getLatestBlockInfo (chain : Blockchain) : Except PyError (Option (Block × Int)) := do
  ensureUsable chain
  match chain.blocks.getLast? with
  | none => return none
  | some block => return some (block, (chain.blocks.length : Int) - 1)

omit [Crypto] in
def getAddressInfo (chain : Blockchain) (address : Str) : Except PyError AddressInfo := do
  ensureUsable chain
  let utxos := chain.state.utxoSet.getUtxosForAddress address
  return {
    address := address
    confirmedBalance := chain.state.utxoSet.getBalance address
    utxos := utxos
    utxoCount := utxos.size }

omit [Crypto] in
/-- The `wallet_state` command of the node. -/
def walletState (chain : Blockchain) (address : Str) : Except PyError WalletState := do
  let view <- getAddressInfo chain address
  return { view with pending := chain.mempool.getTransactions }

/-- One transaction of the wallet history: its record, if it concerns the address,
and its outputs as sources of later ones. -/
def inspect (address : Str) (height : Option Nat)
    (found : UTXOSet × List WalletRecord) (transaction : Transaction) :
    UTXOSet × List WalletRecord :=
  let previous := transaction.inputs.map (fun input => found.1.get? input.outpoint)
  let sent := previous.any (paysAddress address)
  let received := amountPaidTo address transaction.outputs
  let records :=
    if sent = true ∨ received ≠ 0 then
      found.2 ++
        [{ txid := transaction.txid
           status := if height = none then .pending else .confirmed
           direction := if sent then .sent else .received
           amount := if sent then amountPaidPast address transaction.outputs else received
           timestamp := transaction.timestamp
           blockHeight := height }]
    else found.2
  (found.1.update (UTXOSet.outputItems transaction), records)

def inspectBlock (address : Str) (found : UTXOSet × List WalletRecord)
    (item : Block × Nat) : UTXOSet × List WalletRecord :=
  item.1.transactions.foldl (inspect address (some item.2)) found

/-- Every record of an address, oldest first. -/
def walletRecords (chain : Blockchain) (address : Str) : List WalletRecord :=
  let confirmed := chain.blocks.zipIdx.foldl (inspectBlock address) (Dict.empty, [])
  (chain.mempool.getTransactions.foldl (inspect address none) confirmed).2

def getWalletHistory (chain : Blockchain) (address : Str) (start limit : Int) :
    Except PyError (List WalletRecord) := do
  ensureUsable chain
  require (0 ≤ start ∧ 1 ≤ limit ∧ limit ≤ 100)
    (PyError.valueError "Invalid wallet history pagination")
  return ((walletRecords chain address).reverse.drop start.toNat).take limit.toNat

/-- The first pages of the wallet history. -/
def walletHistoryPages (chain : Blockchain) (address : Str) (limit : Int) :
    Nat -> Except PyError (List WalletRecord)
  | 0 => .ok []
  | count + 1 => do
      let pages <- walletHistoryPages chain address limit count
      let page <- getWalletHistory chain address (count * limit) limit
      return pages ++ page

/-- The first place of a transaction in numbered blocks. -/
def locate (txid : Str) (items : List (Block × Nat)) : Option FoundTransaction :=
  items.findSome? (fun item =>
    (item.1.transactions.find? (fun transaction => transaction.txid = txid)).map
      (fun transaction =>
        { transaction := transaction
          status := .confirmed
          height := some item.2
          blockHash := some item.1.hash }))

def findTransaction (chain : Blockchain) (txid : Str) :
    Except PyError (Option FoundTransaction) := do
  ensureUsable chain
  match chain.mempool.getTransaction txid with
  | some transaction =>
      return some
        { transaction := transaction, status := .pending, height := none, blockHash := none }
  | none =>
      if txid ∈ chain.state.seenTxids then return locate txid chain.blocks.zipIdx
      else return none

/-!
## Pages
-/

theorem getWalletHistory_eq_ok_iff {chain : Blockchain} (husable : ensureUsable chain = .ok ())
    {address : Str} {start limit : Int} {page : List WalletRecord} :
    getWalletHistory chain address start limit = .ok page <->
      (0 ≤ start ∧ 1 ≤ limit ∧ limit ≤ 100) ∧
        page = ((walletRecords chain address).reverse.drop start.toNat).take limit.toNat := by
  unfold getWalletHistory
  simp only [bind_eq_ok_iff, husable, require_eq_ok_iff]
  constructor
  · rintro ⟨_, _, _, hvalid, hpage⟩
    exact ⟨hvalid, (Except.ok.inj hpage).symm⟩
  · rintro ⟨hvalid, rfl⟩
    exact ⟨(), trivial, (), hvalid, rfl⟩

theorem walletHistoryPages_eq {chain : Blockchain} (husable : ensureUsable chain = .ok ())
    {address : Str} {limit : Int} :
    forall (count : Nat) (records : List WalletRecord),
      walletHistoryPages chain address limit count = .ok records ->
        records = (walletRecords chain address).reverse.take (count * limit.toNat) := by
  intro count
  induction count with
  | zero =>
      intro records h
      cases h
      simp
  | succ count ih =>
      intro records h
      unfold walletHistoryPages at h
      simp only [bind_eq_ok_iff] at h
      rcases h with ⟨pages, hpages, page, hpage, hrecords⟩
      rcases (getWalletHistory_eq_ok_iff husable).mp hpage with ⟨⟨_, hlimit, _⟩, heq⟩
      have hstart : ((count : Int) * limit).toNat = count * limit.toNat := by
        rcases Int.eq_ofNat_of_zero_le (show 0 ≤ limit by omega) with ⟨n, rfl⟩
        rfl
      rw [← Except.ok.inj hrecords, ih pages hpages, heq, hstart, Nat.succ_mul, List.take_add]

theorem walletHistoryPages_ok {chain : Blockchain} (husable : ensureUsable chain = .ok ())
    (address : Str) {limit : Int} (hlow : 1 ≤ limit) (hhigh : limit ≤ 100) (count : Nat) :
    exists records, walletHistoryPages chain address limit count = .ok records := by
  induction count with
  | zero => exact ⟨[], rfl⟩
  | succ count ih =>
      rcases ih with ⟨records, hrecords⟩
      have hstart : 0 ≤ (count : Int) * limit :=
        Int.mul_nonneg (Int.natCast_nonneg count) (by omega)
      have hpage : exists page,
          getWalletHistory chain address (count * limit) limit = .ok page :=
        ⟨_, (getWalletHistory_eq_ok_iff husable).mpr ⟨⟨hstart, hlow, hhigh⟩, rfl⟩⟩
      rcases hpage with ⟨page, hpage⟩
      refine ⟨records ++ page, ?_⟩
      unfold walletHistoryPages
      rw [bind_eq_ok_iff]
      exact ⟨records, hrecords, bind_eq_ok_iff.mpr ⟨page, hpage, rfl⟩⟩

theorem walletHistoryPages_all {chain : Blockchain} (husable : ensureUsable chain = .ok ())
    {address : Str} {limit : Int} {count : Nat} {records : List WalletRecord}
    (hpages : walletHistoryPages chain address limit count = .ok records)
    (hlast : getWalletHistory chain address (count * limit) limit = .ok []) :
    records = (walletRecords chain address).reverse := by
  rcases (getWalletHistory_eq_ok_iff husable).mp hlast with ⟨⟨_, hlimit, _⟩, hempty⟩
  have hstart : ((count : Int) * limit).toNat = count * limit.toNat := by
    rcases Int.eq_ofNat_of_zero_le (show 0 ≤ limit by omega) with ⟨n, rfl⟩
    rfl
  rw [walletHistoryPages_eq husable count records hpages, List.take_eq_self_iff]
  rw [hstart, eq_comm, List.take_eq_nil_iff] at hempty
  rcases hempty with hzero | hdrop
  · omega
  · exact List.drop_eq_nil_iff.mp hdrop

end Blockchain

end Queries

/-!
## Two owners

A chain on which the coin of the first owner is split with a second one.  Two more
payments of the first owner wait in a pool, the second out of the change of the first;
in another block both owners spend together.
-/

namespace Sample

def otherKeyHex : Str :=
  hexString 64 0xc6047f9441ed7d6d3045406e95c07cd85c778e4b8cef3ca7abac09b95c709ee5 ++
    hexString 64 0x1ae168fea63dc339a3c58419466ceaeef7f632653266d0e1236431a950cfe52a

def otherKeyBytes : Bytes :=
  (fromHex otherKeyHex).getD []

def otherKeyHash : Str :=
  hexString 40 0x5d99ee966b42cd8fc7bdd1364b389153a9e78b42

def other : Str :=
  str "PYC_" ++ otherKeyHash ++ hexString 8 0x8858235a

def splitSignature : Str :=
  hexString 64 0x27b93466a310e21b75f6b96c0f30c528171d2375949f4d54b55ef38c58f8cd5d ++
    hexString 64 0xfb794f9ab28507426726f679e03490b99bc4fc518c3647c455f1047e80e330d6

/-- The coin is split; two are the fee. -/
def split : Transaction :=
  { inputs := [⟨coinbaseTxid, 0, publicKeyHex, splitSignature⟩]
    outputs := [⟨20, other⟩, ⟨28, address⟩]
    timestamp := 1788652890
    version := 1 }

def splitTxid : Str :=
  hexString 64 0x677a4ac3d417aa78b18d5c698b1397144bcb948f0d9059f977dc9f68c55c1ff7

def paymentSignature : Str :=
  hexString 64 0xe6367dc7ab70df856b232608e57911c3919b45a2a58967ca09560b2edc581a5c ++
    hexString 64 0x8d32a0701592e694cf10c4fa0230de4e060bdc700d36c4fa8c8aeb38011e9d1f

def payment : Transaction :=
  { inputs := [⟨splitTxid, 1, publicKeyHex, paymentSignature⟩]
    outputs := [⟨10, other⟩, ⟨17, address⟩]
    timestamp := 1788652950
    version := 1 }

def paymentTxid : Str :=
  hexString 64 0x1aa71a0f38d5cb4307d56fd3728d3910d2622063a9933092ea2926ccc680b728

def laterSignature : Str :=
  hexString 64 0xc95ca10884aac151a2e608e2657aff0b5ee38d766bc4374cd257b97e4edd0435 ++
    hexString 64 0xc27d9a64cd22d499a4c813e5f12fb9576243ceefb85f2f293f88dc0caacc62ed

/-- Paid out of the change of the payment before it. -/
def later : Transaction :=
  { inputs := [⟨paymentTxid, 1, publicKeyHex, laterSignature⟩]
    outputs := [⟨5, other⟩, ⟨11, address⟩]
    timestamp := 1788652960
    version := 1 }

def laterTxid : Str :=
  hexString 64 0xe2546ef449d0b980a2aca1a0a20648c35e460af9e4a29bfc4a021b4acd6cd932

def jointSignature : Str :=
  hexString 64 0xc83d598cb34e33c163f3e9ff9adef100eba54bda1eac1ae29164007e66a47b7f ++
    hexString 64 0xd1861a8836280a21d9f52b2d8d06a87f48ce5b678b4aa7507d0ac11c22553754

def jointOtherSignature : Str :=
  hexString 64 0xdf4da8ed9cb8ee870c5514c691b2cb1b5c689ac618dcdd59e2b7fd5ffa4236e5 ++
    hexString 64 0x4c81828e35ada4971673859352afb7df45abbb6fb4d907c535c75109f20b2f66

def joint : Transaction :=
  { inputs := [⟨splitTxid, 1, publicKeyHex, jointSignature⟩,
      ⟨splitTxid, 0, otherKeyHex, jointOtherSignature⟩]
    outputs := [⟨47, other⟩]
    timestamp := 1788652950
    version := 1 }

def jointTxid : Str :=
  hexString 64 0x3389ebfa5d6b6aec52c8c974ece98cd4481d9b0e6120bd38903fe80711c1414b

def splitCoinbase : Transaction :=
  { inputs := []
    outputs := [⟨52, other⟩]
    timestamp := 1788652920
    version := 1 }

def splitCoinbaseTxid : Str :=
  hexString 64 0xf2435027cb71fe5030d261503031a1103cce2516c881eb153372ae711fe1e242

def jointCoinbase : Transaction :=
  { inputs := []
    outputs := [⟨51, other⟩]
    timestamp := 1788652980
    version := 1 }

def jointCoinbaseTxid : Str :=
  hexString 64 0x62be695117ad10a3bc3ec5ac9ccfac18b65d88c145d1eb372fe4ff938c0c75c1

def paidCoinbase : Transaction :=
  { inputs := []
    outputs := [⟨52, other⟩]
    timestamp := 1788652980
    version := 1 }

def paidCoinbaseTxid : Str :=
  hexString 64 0xfdbf3e3902051a185a8c5e4a5ef33e60263983352039260eea175c1992f44cd3

def splitRoot : Str :=
  hexString 64 0x0f29d1115b104c640ddac43e9ff6a41058ec6df466ca13543071971100f3d2c7

def jointRoot : Str :=
  hexString 64 0xe8e0dd3e8d09120d201e1e1905a98470518ac95ee49c65de7a03b162ca1e747f

def paidRoot : Str :=
  hexString 64 0xabe59277f8bf82a1384c4c526c1c1bfb8ac30d3a7381ca5d49cdc896cafd2871

def paidLeft : Str :=
  hexString 64 0xff33261c718db1b0cd144d4ca92673c90ef930028cab176dea129f56b22ccbb5

def paidRight : Str :=
  hexString 64 0x6cc8a6b5cfec0a13ace2d06dbc5c9f6e49a5bd8ed1a800959cf860c44017a906

def splitBlock : Block :=
  { transactions := [splitCoinbase, split]
    previousBlockHash := firstHash
    timestamp := 1788652920
    version := 1
    difficulty := 16
    nonce := 3
    merkleRoot := splitRoot }

def splitHash : Str :=
  hexString 64 0x0de7a79cb6c0da33f2808c1f8e860a1facbe2623a3b22b6e6cc59e985b44d623

def jointBlock : Block :=
  { transactions := [jointCoinbase, joint]
    previousBlockHash := splitHash
    timestamp := 1788652980
    version := 1
    difficulty := 16
    nonce := 41
    merkleRoot := jointRoot }

def jointHash : Str :=
  hexString 64 0x0c09cdae45c6eebbd846f262f0bb5e18eb9f80f387ed41ab3259a03ef4c24a3f

def paidBlock : Block :=
  { transactions := [paidCoinbase, payment, later]
    previousBlockHash := splitHash
    timestamp := 1788652980
    version := 1
    difficulty := 16
    nonce := 19
    merkleRoot := paidRoot }

def paidHash : Str :=
  hexString 64 0x00ffb6b2992bf2b86812abfbf171a249ff595a0307341e2861a378b2a06b46a2

def ownersDigests : List (Bytes × Str) :=
  digests ++
    [(otherKeyBytes,
        hexString 64 0x5d99ee966b42cd8fc7bdd1364b389153a9e78b42b7d4a691470674e817888d4e),
      (encodeUtf8 otherKeyHash,
        hexString 64 0x8858235a1a14f1ce86ff2d3d00562cc04597b214b97b1e3fef7418164615cdbe),
      (split.encoding, splitTxid),
      (payment.encoding, paymentTxid),
      (later.encoding, laterTxid),
      (joint.encoding, jointTxid),
      (splitCoinbase.encoding, splitCoinbaseTxid),
      (jointCoinbase.encoding, jointCoinbaseTxid),
      (paidCoinbase.encoding, paidCoinbaseTxid),
      ((fromHex (splitCoinbaseTxid ++ splitTxid)).getD [], splitRoot),
      ((fromHex (jointCoinbaseTxid ++ jointTxid)).getD [], jointRoot),
      ((fromHex (paidCoinbaseTxid ++ paymentTxid)).getD [], paidLeft),
      ((fromHex (laterTxid ++ laterTxid)).getD [], paidRight),
      ((fromHex (paidLeft ++ paidRight)).getD [], paidRoot),
      (splitBlock.header.toBytes, splitHash),
      (jointBlock.header.toBytes, jointHash),
      (paidBlock.header.toBytes, paidHash)]

/-- The signature a table gives for a message, or zeros. -/
def tableSign (table : List (Except PyError Bytes × Str)) (message : Bytes) : Bytes :=
  match (table.lookup (.ok message)).bind fromHex with
  | some signature => if signature.length = 64 then signature else List.replicate 64 0
  | none => List.replicate 64 0

theorem tableSign_length (table : List (Except PyError Bytes × Str)) (message : Bytes) :
    (tableSign table message).length = 64 := by
  unfold tableSign
  split
  · split
    · assumption
    · exact List.length_replicate
  · exact List.length_replicate

def ownerSign : Bytes -> Bytes :=
  tableSign [(split.signingBytes 0, splitSignature), (payment.signingBytes 0, paymentSignature),
    (later.signingBytes 0, laterSignature), (joint.signingBytes 0, jointSignature)]

def otherSign : Bytes -> Bytes :=
  tableSign [(joint.signingBytes 1, jointOtherSignature)]

@[reducible]
def ownersCrypto : Crypto where
  sha256 := tableSha256 ownersDigests
  sha256_length := tableSha256_length ownersDigests
  verifyingKeyFromString data :=
    if data = publicKeyBytes ∨ data = otherKeyBytes then some ⟨data⟩ else none
  verify key signature message :=
    decide ((key.toString = publicKeyBytes ∧ signature = ownerSign message) ∨
      (key.toString = otherKeyBytes ∧ signature = otherSign message))

def ownersClock : Clock :=
  Clock.at_ 1788652980

def owners : Blockchain :=
  (@Blockchain.ram ownersCrypto).run
    [.addBlock first ownersClock, .addBlock splitBlock ownersClock, .submitTransaction payment,
      .submitTransaction later] start

def jointly : Blockchain :=
  (@Blockchain.ram ownersCrypto).run
    [.addBlock first ownersClock, .addBlock splitBlock ownersClock,
      .addBlock jointBlock ownersClock] start

theorem start_created_owners :
    (@Blockchain.create ownersCrypto Unit none ownersClock none none ()).1 = .ok start := by
  have hgenesis : @createGenesisBlock ownersCrypto = .ok genesis := by
    decide +kernel
  have hinitial : @Blockchain.initial ownersCrypto ownersClock none none = .ok start := by
    unfold Blockchain.initial
    rw [hgenesis]
    rfl
  unfold Blockchain.create
  rw [hinitial]

theorem owners_reachable : @Blockchain.Reachable ownersCrypto owners :=
  ⟨ownersClock, none, none, start, _, start_created_owners, rfl⟩

theorem jointly_reachable : @Blockchain.Reachable ownersCrypto jointly :=
  ⟨ownersClock, none, none, start, _, start_created_owners, rfl⟩

theorem owners_contents :
    owners.blocks = [genesis, first, splitBlock] ∧
      owners.mempool.getTransactions = [payment, later] ∧
      @Blockchain.getWalletHistory ownersCrypto owners address 20 20 = .ok [] ∧
      @Blockchain.getWalletHistory ownersCrypto owners other 20 20 = .ok [] ∧
      ((@Blockchain.walletRecords ownersCrypto owners address).reverse.filter
        (fun record => record.status = .pending)).map
          (fun record => (record.txid, record.direction, record.amount)) =
        [(laterTxid, .sent, 5), (paymentTxid, .sent, 10)] := by
  decide +kernel

theorem jointly_contents :
    jointly.blocks = [genesis, first, splitBlock, jointBlock] ∧
      jointly.state.utxoSet.getBalance address = 0 := by
  decide +kernel

theorem jointly_rebuilt :
    @rebuildChainState ownersCrypto jointly.blocks ownersClock = .ok (some jointly.state) := by
  rcases jointly_contents with ⟨hblocks, _⟩
  apply @Blockchain.reachable_rebuild ownersCrypto _ jointly_reachable ownersClock
    1788652980 rfl
  rw [hblocks]
  decide

end Sample

end PyChain
