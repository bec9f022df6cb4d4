import PyChain.Foundation.MerkleTree
import PyChain.Mining.Coinbase

/-!
# Blocks, Merkle roots and the genesis block

A block stores the root that was computed when it was built; nothing forces the
stored root to stay in step with the transactions, so it is a field like the
others.
-/

namespace PyChain

open Foundation

section Blocks

variable [Crypto]

/-!
## Merkle roots
-/

def combineHashes (leftHash rightHash : Str) : Except PyError Str := do
  let leftBytes <- bytesFromHex leftHash
  let rightBytes <- bytesFromHex rightHash
  return sha256Hex (leftBytes ++ rightBytes)

/-- The loop ends with a single node; the source reads it with `[0]`. -/
def calculateMerkleRootFromTxids (txids : List Str) : Except PyError Str :=
  if txids = [] then .ok (sha256Hex [])
  else do
    match <- MerkleTree.climb combineHashes txids.length txids with
    | none => .error (.indexError "list index out of range")
    | some root => .ok root

def calculateMerkleRoot (transactions : List Transaction) : Except PyError Str :=
  calculateMerkleRootFromTxids (transactions.map Transaction.txid)

theorem combineHashes_sha256Hex (x y : Bytes) :
    combineHashes (sha256Hex x) (sha256Hex y) =
      .ok (sha256Hex (Crypto.sha256 x ++ Crypto.sha256 y)) := by
  unfold combineHashes bytesFromHex
  rw [fromHex_sha256Hex, fromHex_sha256Hex]
  rfl

theorem merkleRoot_of_digests {txids : List Str}
    (h : forall txid, txid ∈ txids -> exists data, txid = sha256Hex data) :
    exists data, calculateMerkleRootFromTxids txids = .ok (sha256Hex data) := by
  unfold calculateMerkleRootFromTxids
  by_cases hnil : txids = []
  · rw [if_pos hnil]
    exact ⟨[], rfl⟩
  · rw [if_neg hnil]
    have hclimb := @MerkleTree.climb_total _ _ combineHashes
      (fun node => exists data, node = sha256Hex data)
      (by
        intro a b ha hb
        rcases ha with ⟨x, hx⟩
        rcases hb with ⟨y, hy⟩
        subst hx
        subst hy
        exact ⟨_, combineHashes_sha256Hex x y, _, rfl⟩)
      txids.length txids hnil (Nat.le_succ _) h
    rcases hclimb with ⟨root, hroot, data, hdata⟩
    exists data
    rw [hroot, hdata]
    rfl

theorem calculateMerkleRoot_total (transactions : List Transaction) :
    exists data, calculateMerkleRoot transactions = .ok (sha256Hex data) := by
  apply merkleRoot_of_digests
  intro txid htxid
  rcases List.mem_map.mp htxid with ⟨transaction, _, heq⟩
  exact ⟨transaction.encoding, heq.symm⟩

/-!
## Headers and blocks
-/

structure BlockHeader where
  version : Int
  previousBlockHash : Str
  merkleRoot : Str
  timestamp : Int
  difficulty : Int
  nonce : Int
deriving DecidableEq, Repr

namespace BlockHeader

omit [Crypto] in
def toDict (header : BlockHeader) : Json :=
  Json.obj
    [(str "version", Json.int header.version),
      (str "previous_block_hash", Json.str header.previousBlockHash),
      (str "merkle_root", Json.str header.merkleRoot),
      (str "timestamp", Json.int header.timestamp),
      (str "difficulty", Json.int header.difficulty),
      (str "nonce", Json.int header.nonce)]

omit [Crypto] in
def toBytes (header : BlockHeader) : Bytes :=
  Json.serialize header.toDict

def hash (header : BlockHeader) : Str :=
  sha256Hex header.toBytes

omit [Crypto] in
theorem toDict_sortKeys (header : BlockHeader) :
    Json.sortKeys header.toDict =
      Json.obj
        [(str "difficulty", Json.int header.difficulty),
          (str "merkle_root", Json.str header.merkleRoot),
          (str "nonce", Json.int header.nonce),
          (str "previous_block_hash", Json.str header.previousBlockHash),
          (str "timestamp", Json.int header.timestamp),
          (str "version", Json.int header.version)] := rfl

omit [Crypto] in
theorem toDict_distinct (header : BlockHeader) : Json.DistinctKeys header.toDict := by
  unfold toDict
  simp only [Json.DistinctKeys, Json.FieldsDistinct, and_true, List.map_cons,
    List.map_nil]
  decide

omit [Crypto] in
theorem toBytes_injective {x y : BlockHeader} (h : x.toBytes = y.toBytes) : x = y := by
  have hsorted :=
    Json.serialize_injective (toDict_distinct x) (toDict_distinct y) h
  rw [toDict_sortKeys, toDict_sortKeys] at hsorted
  cases x
  cases y
  simp only [Json.obj.injEq, List.cons.injEq, Prod.mk.injEq, Json.int.injEq,
    Json.str.injEq, true_and, and_true] at hsorted
  rcases hsorted with ⟨hdifficulty, hroot, hnonce, hprevious, htimestamp, hversion⟩
  simp only [BlockHeader.mk.injEq]
  exact ⟨hversion, hprevious, hroot, htimestamp, hdifficulty, hnonce⟩

end BlockHeader

structure Block where
  transactions : List Transaction
  previousBlockHash : Str
  timestamp : Int
  version : Int
  difficulty : Int
  nonce : Int
  merkleRoot : Str
deriving DecidableEq, Repr

namespace Block

/-- The constructor of the source fills in the Merkle root. -/
def create (transactions : List Transaction) (previousBlockHash : Str)
    (timestamp version difficulty nonce : Int) : Except PyError Block := do
  let merkleRoot <- calculateMerkleRoot transactions
  return {
    transactions := transactions
    previousBlockHash := previousBlockHash
    timestamp := timestamp
    version := version
    difficulty := difficulty
    nonce := nonce
    merkleRoot := merkleRoot }

omit [Crypto] in
def header (block : Block) : BlockHeader :=
  { version := block.version
    previousBlockHash := block.previousBlockHash
    merkleRoot := block.merkleRoot
    timestamp := block.timestamp
    difficulty := block.difficulty
    nonce := block.nonce }

def hash (block : Block) : Str :=
  block.header.hash

omit [Crypto] in
def toDict (block : Block) : Json :=
  Json.obj
    [(str "header", block.header.toDict),
      (str "transactions",
        Json.arr (block.transactions.map (fun transaction => transaction.toDict true)))]

theorem hash_isHash (block : Block) : isHash block.hash = true :=
  sha256Hex_isHash block.header.toBytes

omit [Crypto] in
theorem ext_header {x y : Block} (hheader : x.header = y.header)
    (htransactions : x.transactions = y.transactions) : x = y := by
  cases x
  cases y
  simp only [header, BlockHeader.mk.injEq] at hheader
  rcases hheader with ⟨hversion, hprevious, hroot, htimestamp, hdifficulty, hnonce⟩
  simp only [Block.mk.injEq]
  exact ⟨htransactions, hprevious, htimestamp, hversion, hdifficulty, hnonce, hroot⟩

theorem create_eq_ok_iff (transactions : List Transaction) (previousBlockHash : Str)
    (timestamp version difficulty nonce : Int) (block : Block) :
    create transactions previousBlockHash timestamp version difficulty nonce =
        .ok block <->
      calculateMerkleRoot transactions = .ok block.merkleRoot ∧
        block.transactions = transactions ∧
        block.previousBlockHash = previousBlockHash ∧ block.timestamp = timestamp ∧
        block.version = version ∧ block.difficulty = difficulty ∧
        block.nonce = nonce := by
  unfold create
  rw [bind_eq_ok_iff]
  constructor
  · intro h
    rcases h with ⟨root, hroot, hblock⟩
    cases hblock
    exact ⟨hroot, rfl, rfl, rfl, rfl, rfl, rfl⟩
  · intro h
    rcases h with ⟨hroot, htransactions, hprevious, htimestamp, hversion, hdifficulty,
      hnonce⟩
    refine ⟨block.merkleRoot, hroot, ?_⟩
    subst htransactions
    subst hprevious
    subst htimestamp
    subst hversion
    subst hdifficulty
    subst hnonce
    rfl

end Block

/-!
## The fixed first block
-/

def GENESIS_PREVIOUS_HASH : Str :=
  List.replicate 64 '0'

def GENESIS_TIMESTAMP : Int := 1788652800

def GENESIS_VERSION : Int := 1

def GENESIS_DIFFICULTY : Int := 1

def GENESIS_NONCE : Int := 0

def GENESIS_HASH : Str :=
  str "14c5baf99007aba3bca5d4a32a5dd213" ++ str "4495a6bdaef5586f515d0f838b654e6a"

def createGenesisBlock : Except PyError Block := do
  let block <- Block.create [] GENESIS_PREVIOUS_HASH GENESIS_TIMESTAMP GENESIS_VERSION
    GENESIS_DIFFICULTY GENESIS_NONCE
  require (block.hash = GENESIS_HASH)
    (PyError.runtimeError "Genesis hash differs from the configured network")
  return block

def isGenesisBlock (block : Block) : Bool :=
  if block.transactions ≠ [] then false else block.hash = GENESIS_HASH

theorem isGenesisBlock_iff (block : Block) :
    isGenesisBlock block = true <->
      block.transactions = [] ∧ block.hash = GENESIS_HASH := by
  unfold isGenesisBlock
  by_cases h : block.transactions = []
  · simp [h]
  · simp [h]

theorem createGenesisBlock_eq_ok_iff (block : Block) :
    createGenesisBlock = .ok block <->
      block = { transactions := []
                previousBlockHash := GENESIS_PREVIOUS_HASH
                timestamp := GENESIS_TIMESTAMP
                version := GENESIS_VERSION
                difficulty := GENESIS_DIFFICULTY
                nonce := GENESIS_NONCE
                merkleRoot := sha256Hex [] } ∧ block.hash = GENESIS_HASH := by
  have hroot : calculateMerkleRoot [] = .ok (sha256Hex []) := rfl
  unfold createGenesisBlock
  simp only [bind_eq_ok_iff, require_eq_ok_iff, Block.create_eq_ok_iff, hroot,
    Except.ok.injEq]
  constructor
  · intro h
    rcases h with ⟨created, hcreated, _, hhash, heq⟩
    have heq' : created = block := Except.ok.inj heq
    subst heq'
    rcases hcreated with ⟨hroot', htransactions, hprevious, htimestamp, hversion,
      hdifficulty, hnonce⟩
    constructor
    · cases created
      simp only [Block.mk.injEq]
      exact ⟨htransactions, hprevious, htimestamp, hversion, hdifficulty, hnonce,
        hroot'.symm⟩
    · exact hhash
  · intro h
    rcases h with ⟨hblock, hhash⟩
    refine ⟨block, ?_, (), hhash, rfl⟩
    rw [hblock]
    exact ⟨rfl, rfl, rfl, rfl, rfl, rfl, rfl⟩

theorem createGenesisBlock_isGenesis {block : Block}
    (h : createGenesisBlock = .ok block) : isGenesisBlock block = true := by
  rcases (createGenesisBlock_eq_ok_iff block).mp h with ⟨hblock, hhash⟩
  rw [isGenesisBlock_iff]
  constructor
  · rw [hblock]
  · exact hhash

end Blocks

/-!
## A concrete network

A table of real SHA-256 digests and one real ECDSA signature make the model
runnable on a short chain: the genesis block, a block with its coinbase, and a
block whose second transaction spends that coinbase.  The key is the one with
secret exponent one.
-/

namespace Sample

/-- The hexadecimal digits of a number, padded to a width. -/
def hexString (width n : Nat) : Str :=
  (List.range width).map (fun i => hexDigit (n / 16 ^ (width - 1 - i) % 16))

/-- The digest a table gives, or zeros. -/
def tableSha256 (table : List (Bytes × Str)) (data : Bytes) : Bytes :=
  match (table.lookup data).bind fromHex with
  | some digest => if digest.length = 32 then digest else List.replicate 32 0
  | none => List.replicate 32 0

theorem tableSha256_length (table : List (Bytes × Str)) (data : Bytes) :
    (tableSha256 table data).length = 32 := by
  unfold tableSha256
  split
  · split
    · assumption
    · exact List.length_replicate
  · exact List.length_replicate

def publicKeyHex : Str :=
  hexString 64 0x79be667ef9dcbbac55a06295ce870b07029bfcdb2dce28d959f2815b16f81798 ++
    hexString 64 0x483ada7726a3c4655da4fbfc0e1108a8fd17b448a68554199c47d08ffb10d4b8

def publicKeyBytes : Bytes :=
  (fromHex publicKeyHex).getD []

def publicKeyHash : Str :=
  hexString 40 0x09c0b2d1a486c439a87bcba6b46a7a1a23f3897c

def address : Str :=
  str "PYC_" ++ publicKeyHash ++ hexString 8 0x01eee0e1

def coinbase : Transaction :=
  { inputs := []
    outputs := [⟨50, address⟩]
    timestamp := 1788652860
    version := 1 }

def coinbaseTxid : Str :=
  hexString 64 0x106502d21d82744311a8bc35db4705c1c9f3a7d80770e452479353baee04d586

def signatureHex : Str :=
  hexString 64 0xd46cc2673931bc07d32bcd06fa1110377af247fd8cc6a962d3bbe85fa572414e ++
    hexString 64 0xf9345dcff8fcde21ee6318e31f68f739c2bf0647fe81208a0a53475b48f433d9

/-- Thirty of the fifty coins move; twenty are the fee. -/
def transfer : Transaction :=
  { inputs := [⟨coinbaseTxid, 0, publicKeyHex, signatureHex⟩]
    outputs := [⟨30, address⟩]
    timestamp := 1788652890
    version := 1 }

def transferTxid : Str :=
  hexString 64 0xf58e21d2d16f911f414e7574f8b5d77b116d65449f92d5c634de94806b45c3f0

def secondCoinbase : Transaction :=
  { inputs := []
    outputs := [⟨70, address⟩]
    timestamp := 1788652920
    version := 1 }

def secondCoinbaseTxid : Str :=
  hexString 64 0xb66c3c3b9d9a49f2025a549a5284465cef442b29bf955759597e02debc0f7e97

def emptyRoot : Str :=
  hexString 64 0xe3b0c44298fc1c149afbf4c8996fb92427ae41e4649b934ca495991b7852b855

def secondRoot : Str :=
  hexString 64 0xf44705f26b56007b42627a6b0d104e0ad45cd29a259aba9f4787995807d43a0b

def genesis : Block :=
  { transactions := []
    previousBlockHash := GENESIS_PREVIOUS_HASH
    timestamp := GENESIS_TIMESTAMP
    version := GENESIS_VERSION
    difficulty := GENESIS_DIFFICULTY
    nonce := GENESIS_NONCE
    merkleRoot := emptyRoot }

def first : Block :=
  { transactions := [coinbase]
    previousBlockHash := GENESIS_HASH
    timestamp := 1788652860
    version := 1
    difficulty := 16
    nonce := 27
    merkleRoot := coinbaseTxid }

def firstHash : Str :=
  hexString 64 0x0bdef33bb9d7aa94b47e79d415599805bfa7f0dd796d52f5ca6753f31b2214a6

def second : Block :=
  { transactions := [secondCoinbase, transfer]
    previousBlockHash := firstHash
    timestamp := 1788652920
    version := 1
    difficulty := 16
    nonce := 15
    merkleRoot := secondRoot }

def secondHash : Str :=
  hexString 64 0x084547c5e32d168a1b41c67f017037216d75560200bb60033e0327c05eb3b686

def digests : List (Bytes × Str) :=
  [(publicKeyBytes,
      hexString 64 0x09c0b2d1a486c439a87bcba6b46a7a1a23f3897cc83a94521a96da5c23bc58db),
    (encodeUtf8 publicKeyHash,
      hexString 64 0x01eee0e176afb21b935a6082cfb41201cd991ae8a763fc95348032771ce5340f),
    ([], emptyRoot),
    (genesis.header.toBytes, GENESIS_HASH),
    (coinbase.encoding, coinbaseTxid),
    (first.header.toBytes, firstHash),
    (transfer.encoding, transferTxid),
    (secondCoinbase.encoding, secondCoinbaseTxid),
    ((fromHex (secondCoinbaseTxid ++ transferTxid)).getD [], secondRoot),
    (second.header.toBytes, secondHash)]

@[reducible]
def crypto : Crypto where
  sha256 := tableSha256 digests
  sha256_length := tableSha256_length digests
  verifyingKeyFromString data := if data = publicKeyBytes then some ⟨data⟩ else none
  verify key signature message :=
    decide (key.toString = publicKeyBytes ∧ some signature = fromHex signatureHex ∧
      Except.ok message = transfer.signingBytes 0)

theorem createGenesisBlock_sample : @createGenesisBlock crypto = .ok genesis := by
  decide +kernel

/-!
Four more payments build on the two coins that the second block leaves: a parent and
its child, which pays the best rate of all, a spare one that needs neither of them,
and its heir.  The third block confirms the spare one and spends the coin of the
parent elsewhere.
-/

def parentSignature : Str :=
  hexString 64 0x5665fb5d3b186516f0638e41b2b10c969692255bbcd2b733fb1c47e2b28cae19 ++
    hexString 64 0x861f20dec6de25f99c77fdd956d2a7c2d58b34e0392e2543324f4c633f564bca

def parent : Transaction :=
  { inputs := [⟨transferTxid, 0, publicKeyHex, parentSignature⟩]
    outputs := [⟨10, address⟩, ⟨19, address⟩]
    timestamp := 1788652930
    version := 1 }

def parentTxid : Str :=
  hexString 64 0x591b5f4de79aeb81488de91f0faea5499954686ef09461801b7931e8940ccce2

def childSignature : Str :=
  hexString 64 0x721b6cab11fedfff663fdab2b3fcb159ce1cbf400fa3c3c70f70d91cc57637bb ++
    hexString 64 0xdd5cecac0df23544d7edde22f6438b9605909f2bd4cdcd04997cae14d07a16de

def child : Transaction :=
  { inputs := [⟨parentTxid, 1, publicKeyHex, childSignature⟩]
    outputs := [⟨15, address⟩]
    timestamp := 1788652940
    version := 1 }

def childTxid : Str :=
  hexString 64 0x5f04050bc4a56f5395756a55a8b8d36fe13c98137803e444b8d9aea36b17ecc2

def spareSignature : Str :=
  hexString 64 0xe1378d6b9b7c6d71ffa7758a3f00866fdc698d01e14907cbd99d30aa338af7a6 ++
    hexString 64 0xf9fa9696fcd74165d0757eeb7c5dc943e912c29007fcf24611d81ed1d5886f36

def spare : Transaction :=
  { inputs := [⟨secondCoinbaseTxid, 0, publicKeyHex, spareSignature⟩]
    outputs := [⟨68, address⟩]
    timestamp := 1788652935
    version := 1 }

def spareTxid : Str :=
  hexString 64 0x34eb42d91b6617a43f6740906177f57c7bbb9846194637d5538952cc5b8217b3

def heirSignature : Str :=
  hexString 64 0x85bd90772c5a1d560cc7beedd4658f9932af3f747910c2f31aa676c0522c5283 ++
    hexString 64 0x3fe31578c5102073a17143226bdcb6e571edcecc411e329ba6829a8b95debbc2

def heir : Transaction :=
  { inputs := [⟨spareTxid, 0, publicKeyHex, heirSignature⟩]
    outputs := [⟨66, address⟩]
    timestamp := 1788652950
    version := 1 }

def heirTxid : Str :=
  hexString 64 0xb1f66b59de57e53760b993d6914ac3894caac9ef678f90083b8dd64b2e49eaf4

def clashSignature : Str :=
  hexString 64 0x3e1669e284e386c280cc0765fc32403c7f43564a7c29aca8e18d017b7cef5b99 ++
    hexString 64 0xcf86ec78c51e7817c974e9e8445fbbc207cb3060628083dcc387e4e6f47684e5

def clash : Transaction :=
  { inputs := [⟨transferTxid, 0, publicKeyHex, clashSignature⟩]
    outputs := [⟨27, address⟩]
    timestamp := 1788652945
    version := 1 }

def clashTxid : Str :=
  hexString 64 0x79a52ffe65e0e0e5b3c75bdde423e913d46874dbc3a412cd77ba710810a046a1

def thirdCoinbase : Transaction :=
  { inputs := []
    outputs := [⟨55, address⟩]
    timestamp := 1788652980
    version := 1 }

def thirdCoinbaseTxid : Str :=
  hexString 64 0xa3a5fba9f14fc6bf03ba5b7fbe88d85b47c098e75e518393ecfe96ea686a732b

def thirdLeft : Str :=
  hexString 64 0x3afefd85f591d7c654cd4dc7b4c12b8e9a9c8702687d5b81fd3b297221f32c1f

def thirdRight : Str :=
  hexString 64 0x9b301308fd163e41e9d5ea089aaf8303003ffba57a719911edaddc86864edb44

def thirdRoot : Str :=
  hexString 64 0xc948787caac0d2de38301eb7250115785d7084d6d0c4b4e4a94a0168fe65c74e

def third : Block :=
  { transactions := [thirdCoinbase, spare, clash]
    previousBlockHash := secondHash
    timestamp := 1788652980
    version := 1
    difficulty := 16
    nonce := 7
    merkleRoot := thirdRoot }

def thirdHash : Str :=
  hexString 64 0x0ce36f6a1c57c4f7a010e6d7599b782d42db88353988fc7ec23f599cbc3474d2

def familyDigests : List (Bytes × Str) :=
  digests ++
    [(parent.encoding, parentTxid),
      (child.encoding, childTxid),
      (spare.encoding, spareTxid),
      (heir.encoding, heirTxid),
      (clash.encoding, clashTxid),
      (thirdCoinbase.encoding, thirdCoinbaseTxid),
      ((fromHex (thirdCoinbaseTxid ++ spareTxid)).getD [], thirdLeft),
      ((fromHex (clashTxid ++ clashTxid)).getD [], thirdRight),
      ((fromHex (thirdLeft ++ thirdRight)).getD [], thirdRoot),
      (third.header.toBytes, thirdHash)]

def familySignatures : List (Except PyError Bytes × Str) :=
  [(transfer.signingBytes 0, signatureHex), (parent.signingBytes 0, parentSignature),
    (child.signingBytes 0, childSignature), (spare.signingBytes 0, spareSignature),
    (heir.signingBytes 0, heirSignature), (clash.signingBytes 0, clashSignature)]

@[reducible]
def familyCrypto : Crypto where
  sha256 := tableSha256 familyDigests
  sha256_length := tableSha256_length familyDigests
  verifyingKeyFromString data := if data = publicKeyBytes then some ⟨data⟩ else none
  verify key signature message :=
    decide (key.toString = publicKeyBytes ∧
      some signature = (familySignatures.lookup (.ok message)).bind fromHex)

end Sample

end PyChain
