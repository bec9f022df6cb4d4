import PyChain.Blockchain.Soundness

/-!
# The tip hash commits to the whole chain

SHA-256 cannot be injective on all byte strings, so freedom of collisions is
assumed only for the byte strings that the two chains actually hash: headers,
signed transactions and pairs of Merkle nodes.
-/

namespace PyChain

open Foundation

section Commitment

variable [Crypto]

/-- The pairs of nodes joined for the Merkle root of a block. -/
def merklePairs (block : Block) : List (Str × Str) :=
  MerkleTree.joinedPairs combineHashes block.transactions.length
    (block.transactions.map Transaction.txid)

/-- The byte strings that validation of a chain hashes. -/
inductive HashedBy (blocks : List Block) : Bytes -> Prop where
  | header {block : Block} : block ∈ blocks -> HashedBy blocks block.header.toBytes
  | transaction {block : Block} {transaction : Transaction} :
      block ∈ blocks -> transaction ∈ block.transactions ->
      HashedBy blocks transaction.encoding
  | merklePair {block : Block} {left right : Str} {leftBytes rightBytes : Bytes} :
      block ∈ blocks -> (left, right) ∈ merklePairs block ->
      fromHex left = some leftBytes -> fromHex right = some rightBytes ->
      HashedBy blocks (leftBytes ++ rightBytes)

theorem HashedBy.append_left {blocks more : List Block} {data : Bytes}
    (h : HashedBy blocks data) : HashedBy (blocks ++ more) data := by
  cases h with
  | header hblock =>
      exact HashedBy.header (List.mem_append_left _ hblock)
  | transaction hblock htransaction =>
      exact HashedBy.transaction (List.mem_append_left _ hblock) htransaction
  | merklePair hblock hpair hleft hright =>
      exact HashedBy.merklePair (List.mem_append_left _ hblock) hpair hleft hright

/-!
## Merkle roots commit to transactions
-/

def IsDigest (node : Str) : Prop :=
  exists data, node = sha256Hex data

theorem combineHashes_isDigest {a b c : Str} (ha : IsDigest a) (hb : IsDigest b)
    (h : combineHashes a b = .ok c) : IsDigest c := by
  rcases ha with ⟨x, hx⟩
  rcases hb with ⟨y, hy⟩
  subst hx
  subst hy
  rw [combineHashes_sha256Hex] at h
  exact ⟨_, (Except.ok.inj h).symm⟩

theorem merklePairs_isDigest {block : Block} {pair : Str × Str}
    (h : pair ∈ merklePairs block) : IsDigest pair.1 ∧ IsDigest pair.2 := by
  apply MerkleTree.joinedPairs_forall
    (fun a b c ha hb hjoin => combineHashes_isDigest ha hb hjoin) _ _ _ pair h
  intro txid htxid
  rcases List.mem_map.mp htxid with ⟨transaction, _, heq⟩
  exact ⟨transaction.encoding, heq.symm⟩

/-- A transaction whose bytes cannot be mistaken for a pair of digests. -/
def LongEncoding (transaction : Transaction) : Prop :=
  64 < transaction.encoding.length

theorem merklePair_hashed {blocks : List Block} {block : Block} {a b c : Str}
    (hblock : block ∈ blocks) (hmem : (a, b) ∈ merklePairs block)
    (hjoin : combineHashes a b = .ok c) :
    exists data other, a = sha256Hex data ∧ b = sha256Hex other ∧
      HashedBy blocks (Crypto.sha256 data ++ Crypto.sha256 other) ∧
      c = sha256Hex (Crypto.sha256 data ++ Crypto.sha256 other) := by
  rcases merklePairs_isDigest hmem with ⟨⟨data, hdata⟩, ⟨other, hother⟩⟩
  simp only at hdata hother
  subst hdata
  subst hother
  rw [combineHashes_sha256Hex] at hjoin
  exact ⟨data, other, rfl, rfl, HashedBy.merklePair hblock hmem (fromHex_sha256Hex data)
    (fromHex_sha256Hex other), (Except.ok.inj hjoin).symm⟩

theorem combineHashes_separated {inputs : Bytes -> Prop} (hfree : CollisionFreeOn inputs)
    {x y : Block}
    (hhashed : forall data, HashedBy [x, y] data -> inputs data)
    (hlong : forall transaction,
      transaction ∈ x.transactions ++ y.transactions -> LongEncoding transaction) :
    MerkleTree.Separated combineHashes
      (fun node => exists transaction,
        transaction ∈ x.transactions ++ y.transactions ∧ node = transaction.txid)
      (fun a b => (a, b) ∈ merklePairs x ++ merklePairs y) := by
  have hpair : forall a b c, (a, b) ∈ merklePairs x ++ merklePairs y ->
      combineHashes a b = .ok c ->
      exists data other, a = sha256Hex data ∧ b = sha256Hex other ∧
        inputs (Crypto.sha256 data ++ Crypto.sha256 other) ∧
        c = sha256Hex (Crypto.sha256 data ++ Crypto.sha256 other) := by
    intro a b c hmem hjoin
    have hblock : exists block, block ∈ [x, y] ∧ (a, b) ∈ merklePairs block := by
      rcases List.mem_append.mp hmem with hx | hy
      · exact ⟨x, by simp, hx⟩
      · exact ⟨y, by simp, hy⟩
    rcases hblock with ⟨block, hblock, hin⟩
    rcases merklePair_hashed hblock hin hjoin with ⟨data, other, ha, hb, hin', hc⟩
    exact ⟨data, other, ha, hb, hhashed _ hin', hc⟩
  constructor
  · intro a b c d node hab hcd hjoin hjoin'
    rcases hpair a b node hab hjoin with ⟨da, db, ha, hb, hin, hnode⟩
    rcases hpair c d node hcd hjoin' with ⟨dc, dd, hc, hd, hin', hnode'⟩
    have hbytes := hfree.hex_injective hin hin' (hnode.symm.trans hnode')
    have hlength : (Crypto.sha256 da).length = (Crypto.sha256 dc).length := by
      rw [Crypto.sha256_length, Crypto.sha256_length]
    rcases List.append_inj hbytes hlength with ⟨hleft, hright⟩
    rw [ha, hb, hc, hd]
    unfold sha256Hex
    rw [hleft, hright]
    exact ⟨rfl, rfl⟩
  · intro a b node hleaf hab hjoin
    rcases hleaf with ⟨transaction, htransaction, heq⟩
    rcases hpair a b node hab hjoin with ⟨da, db, _, _, hin, hnode⟩
    have hencoding : inputs transaction.encoding := by
      apply hhashed
      rcases List.mem_append.mp htransaction with hx | hy
      · exact HashedBy.transaction (List.mem_cons_self) hx
      · exact HashedBy.transaction (List.mem_cons_of_mem _ List.mem_cons_self) hy
    have hbytes := hfree.hex_injective hencoding hin (heq.symm.trans hnode)
    have hlength := hlong transaction htransaction
    unfold LongEncoding at hlength
    rw [hbytes, List.length_append, Crypto.sha256_length, Crypto.sha256_length] at hlength
    omega

theorem merkleRoot_climb {block : Block} {root : Str}
    (hne : block.transactions ≠ [])
    (h : calculateMerkleRoot block.transactions = .ok root) :
    MerkleTree.climb combineHashes block.transactions.length
      (block.transactions.map Transaction.txid) = .ok (some root) := by
  unfold calculateMerkleRoot calculateMerkleRootFromTxids at h
  rw [if_neg (by simpa using hne)] at h
  rcases bind_eq_ok_iff.mp h with ⟨answer, hclimb, hroot⟩
  cases answer with
  | none =>
      cases hroot
  | some node =>
      rw [Except.ok.inj hroot, List.length_map] at hclimb
      exact hclimb

theorem txids_atHeight {x y : Block} {transactions : List Transaction}
    (h : forall transaction, transaction ∈ transactions ->
      transaction ∈ x.transactions ++ y.transactions) :
    forall txid, txid ∈ transactions.map Transaction.txid ->
      MerkleTree.AtHeight combineHashes
        (fun node => exists transaction,
          transaction ∈ x.transactions ++ y.transactions ∧ node = transaction.txid)
        (fun a b => (a, b) ∈ merklePairs x ++ merklePairs y) 0 txid := by
  intro txid htxid
  rcases List.mem_map.mp htxid with ⟨transaction, hmem, heq⟩
  exact MerkleTree.AtHeight.leaf ⟨transaction, h transaction hmem, heq.symm⟩

theorem transactions_of_merkleRoot {inputs : Bytes -> Prop}
    (hfree : CollisionFreeOn inputs) {x y : Block}
    (hhashed : forall data, HashedBy [x, y] data -> inputs data)
    (hlong : forall transaction,
      transaction ∈ x.transactions ++ y.transactions -> LongEncoding transaction)
    (hxValid : StructureValid x) (hyValid : StructureValid y)
    (hxNe : x.transactions ≠ []) (hyNe : y.transactions ≠ [])
    (hroot : x.merkleRoot = y.merkleRoot) : x.transactions = y.transactions := by
  have hxRoot := merkleRoot_climb hxNe hxValid.merkleRoot
  have hyRoot := merkleRoot_climb hyNe hyValid.merkleRoot
  rw [hroot] at hxRoot
  have htxids : x.transactions.map Transaction.txid =
      y.transactions.map Transaction.txid := by
    apply MerkleTree.climb_injective (combineHashes_separated hfree hhashed hlong)
      x.transactions.length y.transactions.length 0 _ _ y.merkleRoot hxValid.txids_nodup
      hyValid.txids_nodup (txids_atHeight (fun _ hmem => List.mem_append_left _ hmem))
      (txids_atHeight (fun _ hmem => List.mem_append_right _ hmem)) _ _ hxRoot hyRoot
    · intro pair hpair
      exact List.mem_append_left _ hpair
    · intro pair hpair
      exact List.mem_append_right _ hpair
  apply List.ext_getElem
  · simpa using congrArg List.length htxids
  · intro i hi hi'
    have htxid : x.transactions[i].txid = y.transactions[i].txid := by
      have hget := congrArg (fun txids => txids[i]?) htxids
      simpa [hi, hi'] using hget
    apply Transaction.encoding_injective
    apply hfree.hex_injective _ _ htxid
    · exact hhashed _ (HashedBy.transaction List.mem_cons_self (List.getElem_mem hi))
    · exact hhashed _ (HashedBy.transaction (List.mem_cons_of_mem _ List.mem_cons_self)
        (List.getElem_mem hi'))

/-!
## Headers commit to predecessors
-/

theorem header_of_hash {inputs : Bytes -> Prop} (hfree : CollisionFreeOn inputs)
    {x y : Block} (hx : inputs x.header.toBytes) (hy : inputs y.header.toBytes)
    (h : x.hash = y.hash) : x.header = y.header :=
  BlockHeader.toBytes_injective (hfree.hex_injective hx hy h)

theorem isValidOutput_longEncoding {transaction : Transaction} {output : TxOutput}
    (hmem : output ∈ transaction.outputs) (hvalid : isValidOutput output = true) :
    LongEncoding transaction := by
  have hlength := Transaction.encoding_length hmem
  unfold isValidOutput at hvalid
  simp only [Bool.and_eq_true] at hvalid
  rw [validateAddress_length hvalid.right] at hlength
  unfold LongEncoding
  omega

theorem applied_longEncoding {block : Block} {state next : ChainState}
    (h : applyBlockTransactions block state = some next) {transaction : Transaction}
    (hmem : transaction ∈ block.transactions) : LongEncoding transaction := by
  rcases (applyBlockTransactions_eq_some_iff _ _ _).mp h with
    ⟨coinbase, regular, fees, working, happlied⟩
  rw [happlied.transactions] at hmem
  rcases List.mem_cons.mp hmem with heq | hregular
  · rcases happlied.coinbase_amount with ⟨output, houtputs, hvalid, _⟩
    rw [heq]
    apply isValidOutput_longEncoding _ hvalid
    rw [houtputs]
    exact List.mem_cons_self
  · rcases List.append_of_mem hregular with ⟨before, after, hsplit⟩
    rcases happlied.processes.accepted_at before transaction after hsplit with
      ⟨view, fee, _, _, haccepted, _⟩
    cases houtputs : transaction.outputs with
    | nil =>
        have hshape := haccepted.shape
        simp [hasRegularShape, houtputs] at hshape
    | cons output rest =>
        have hin : output ∈ transaction.outputs := by
          rw [houtputs]
          exact List.mem_cons_self
        exact isValidOutput_longEncoding hin (haccepted.outputs output hin)

theorem applied_ne_nil {block : Block} {state next : ChainState}
    (h : applyBlockTransactions block state = some next) : block.transactions ≠ [] := by
  rcases (applyBlockTransactions_eq_some_iff _ _ _).mp h with
    ⟨coinbase, regular, fees, working, happlied⟩
  rw [happlied.transactions]
  simp

theorem ValidChain.genesis_mem {blocks : List Block} {tip : Block} {state : ChainState}
    (h : ValidChain blocks tip state) :
    exists genesis, genesis ∈ blocks ∧ genesis.hash = GENESIS_HASH := by
  induction h with
  | @genesis block _ hgenesis =>
      exact ⟨block, List.mem_cons_self, ((isGenesisBlock_iff block).mp hgenesis).right⟩
  | extend _ _ _ _ ih =>
      rcases ih with ⟨genesis, hmem, hhash⟩
      exact ⟨genesis, List.mem_append_left _ hmem, hhash⟩

theorem ValidChain.extension_hash {blocks : List Block} {tip block : Block}
    {state : ChainState} (h : ValidChain blocks tip state)
    (hfresh : forall other, other ∈ blocks -> other.hash ≠ block.hash) :
    block.hash ≠ GENESIS_HASH := by
  intro heq
  rcases h.genesis_mem with ⟨genesis, hmem, hhash⟩
  exact hfresh genesis hmem (hhash.trans heq.symm)

theorem block_of_hash {inputs : Bytes -> Prop} (hfree : CollisionFreeOn inputs)
    {x y : Block} (hhashed : forall data, HashedBy [x, y] data -> inputs data)
    {xState xNext yState yNext : ChainState} (hxValid : StructureValid x)
    (hyValid : StructureValid y) (hx : applyBlockTransactions x xState = some xNext)
    (hy : applyBlockTransactions y yState = some yNext) (h : x.hash = y.hash) : x = y := by
  have hheader := header_of_hash hfree
    (hhashed _ (HashedBy.header List.mem_cons_self))
    (hhashed _ (HashedBy.header (List.mem_cons_of_mem _ List.mem_cons_self))) h
  apply Block.ext_header hheader
  apply transactions_of_merkleRoot hfree hhashed _ hxValid hyValid (applied_ne_nil hx)
    (applied_ne_nil hy)
  · exact congrArg BlockHeader.merkleRoot hheader
  · intro transaction hmem
    rcases List.mem_append.mp hmem with hin | hin
    · exact applied_longEncoding hx hin
    · exact applied_longEncoding hy hin

theorem hashedBy_pair {inputs : Bytes -> Prop} {xs ys : List Block} {x y : Block}
    (hx : forall data, HashedBy (xs ++ [x]) data -> inputs data)
    (hy : forall data, HashedBy (ys ++ [y]) data -> inputs data) :
    forall data, HashedBy [x, y] data -> inputs data := by
  have hblock : forall block, block ∈ [x, y] ->
      block ∈ xs ++ [x] ∨ block ∈ ys ++ [y] := by
    intro block hmem
    rcases List.mem_cons.mp hmem with heq | hrest
    · rw [heq]
      exact Or.inl (List.mem_append_right _ List.mem_cons_self)
    · rw [List.mem_singleton.mp hrest]
      exact Or.inr (List.mem_append_right _ List.mem_cons_self)
  intro data hdata
  cases hdata with
  | header hmem =>
      rcases hblock _ hmem with hin | hin
      · exact hx _ (HashedBy.header hin)
      · exact hy _ (HashedBy.header hin)
  | transaction hmem htransaction =>
      rcases hblock _ hmem with hin | hin
      · exact hx _ (HashedBy.transaction hin htransaction)
      · exact hy _ (HashedBy.transaction hin htransaction)
  | merklePair hmem hpair hleft hright =>
      rcases hblock _ hmem with hin | hin
      · exact hx _ (HashedBy.merklePair hin hpair hleft hright)
      · exact hy _ (HashedBy.merklePair hin hpair hleft hright)

theorem ValidChain.tip_injective {inputs : Bytes -> Prop}
    (hfree : CollisionFreeOn inputs) {blocks : List Block} {tip : Block}
    {state : ChainState} (h : ValidChain blocks tip state) :
    forall (blocks' : List Block) (tip' : Block) (state' : ChainState),
      ValidChain blocks' tip' state' ->
      (forall data, HashedBy blocks data -> inputs data) ->
      (forall data, HashedBy blocks' data -> inputs data) ->
      tip.hash = tip'.hash -> blocks = blocks' := by
  induction h with
  | @genesis block _ hgenesis =>
      intro blocks' tip' state' h' hhashed hhashed' htip
      rcases (isGenesisBlock_iff block).mp hgenesis with ⟨htransactions, hhash⟩
      cases h' with
      | genesis _ hgenesis' =>
          rcases (isGenesisBlock_iff tip').mp hgenesis' with ⟨htransactions', _⟩
          have hheader := header_of_hash hfree
            (hhashed _ (HashedBy.header List.mem_cons_self))
            (hhashed' _ (HashedBy.header List.mem_cons_self)) htip
          rw [Block.ext_header hheader (htransactions.trans htransactions'.symm)]
      | extend hchain' _ _ hfresh' =>
          exact absurd (htip.symm.trans hhash) (hchain'.extension_hash hfresh')
  | @extend blocks tip block state next hchain hlinked happly hfresh ih =>
      intro blocks' tip' state' h' hhashed hhashed' htip
      cases h' with
      | genesis _ hgenesis' =>
          have hhash := ((isGenesisBlock_iff tip').mp hgenesis').right
          exact absurd (htip.trans hhash) (hchain.extension_hash hfresh)
      | @extend blocks' previous' _ old' _ hchain' hlinked' happly' hfresh' =>
          have hblock : block = tip' :=
            block_of_hash hfree (hashedBy_pair hhashed hhashed')
              ((validateBlockStructure_iff block).mp hlinked.structure_)
              ((validateBlockStructure_iff tip').mp hlinked'.structure_) happly happly' htip
          have hprevious : tip.hash = previous'.hash := by
            rw [← hlinked.previousHash, ← hlinked'.previousHash, hblock]
          have hblocks := ih blocks' previous' old' hchain'
            (fun data hdata => hhashed data hdata.append_left)
            (fun data hdata => hhashed' data hdata.append_left) hprevious
          rw [hblocks, hblock]

/-- Two accepted chains whose last blocks have equal hashes are equal block by
block, and so are their rebuilt states. -/
theorem rebuild_tip_commitment {blocks blocks' : List Block} {clock clock' : Clock}
    {state state' : ChainState} {tip tip' : Block}
    (hfree : CollisionFreeOn (fun data => HashedBy blocks data ∨ HashedBy blocks' data))
    (h : rebuildChainState blocks clock = .ok (some state))
    (h' : rebuildChainState blocks' clock' = .ok (some state'))
    (hlast : blocks.getLast? = some tip) (hlast' : blocks'.getLast? = some tip')
    (htip : tip.hash = tip'.hash) : blocks = blocks' ∧ state = state' := by
  rcases (rebuildChainState_eq_ok_some_iff _ _ _).mp h with ⟨_, last, _, hvalid, _⟩
  rcases (rebuildChainState_eq_ok_some_iff _ _ _).mp h' with ⟨_, last', _, hvalid', _⟩
  have htipEq : last = tip := by
    have hget := hvalid.getLast?
    rw [hlast] at hget
    exact (Option.some.inj hget).symm
  have htipEq' : last' = tip' := by
    have hget := hvalid'.getLast?
    rw [hlast'] at hget
    exact (Option.some.inj hget).symm
  subst htipEq
  subst htipEq'
  have hblocks := hvalid.tip_injective hfree blocks' last' state' hvalid'
    (fun data hdata => Or.inl hdata) (fun data hdata => Or.inr hdata) htip
  subst hblocks
  exact ⟨rfl, (hvalid.deterministic hvalid').right⟩

/-!
## The hash of a block commits to its body
-/

/-- Some output, and only outputs with valid addresses. -/
def PaysAddresses (transaction : Transaction) : Prop :=
  transaction.outputs ≠ [] ∧
    forall output, output ∈ transaction.outputs ->
      validateAddress output.recipientAddress = true

/-- The byte strings hashed for two blocks, with the one hashed for an empty body. -/
def HashedFor (x y : Block) (data : Bytes) : Prop :=
  HashedBy [x, y] data ∨ data = []

theorem PaysAddresses.longEncoding {transaction : Transaction} (h : PaysAddresses transaction) :
    LongEncoding transaction := by
  cases houtputs : transaction.outputs with
  | nil => exact absurd houtputs h.left
  | cons output rest =>
      have hin : output ∈ transaction.outputs := by
        rw [houtputs]
        exact List.mem_cons_self
      have hlength := Transaction.encoding_length hin
      rw [validateAddress_length (h.right output hin)] at hlength
      unfold LongEncoding
      omega

theorem merkleRoot_ne_empty {inputs : Bytes -> Prop} (hfree : CollisionFreeOn inputs)
    (hempty : inputs []) {block : Block}
    (hhashed : forall data, HashedBy [block] data -> inputs data)
    (hlong : forall transaction, transaction ∈ block.transactions ->
      LongEncoding transaction)
    (hne : block.transactions ≠ []) :
    calculateMerkleRoot block.transactions ≠ .ok (sha256Hex []) := by
  intro hroot
  have hroot' := MerkleTree.climb_atHeight _ 0 _ _
    (txids_atHeight (fun _ hmem => List.mem_append_left block.transactions hmem))
    (fun pair hpair => List.mem_append_left (merklePairs block) hpair)
    (merkleRoot_climb hne hroot)
  generalize 0 + Nat.clog 2 (block.transactions.map Transaction.txid).length = height
    at hroot'
  cases hroot' with
  | leaf hleaf =>
      rcases hleaf with ⟨transaction, hmem, heq⟩
      have hin : transaction ∈ block.transactions := by
        rcases List.mem_append.mp hmem with h | h <;> exact h
      have hbytes := hfree.hex_injective hempty
        (hhashed _ (HashedBy.transaction List.mem_cons_self hin)) heq
      have hlength := hlong transaction hin
      unfold LongEncoding at hlength
      rw [← hbytes] at hlength
      simp at hlength
  | join _ _ hjoined hjoin =>
      have hin := List.mem_append.mp hjoined
      rw [or_self] at hin
      rcases merklePair_hashed List.mem_cons_self hin hjoin with
        ⟨data, other, _, _, hpair, heq⟩
      have hbytes := congrArg List.length (hfree.hex_injective hempty (hhashed _ hpair) heq)
      rw [List.length_append, Crypto.sha256_length, Crypto.sha256_length] at hbytes
      simp at hbytes

theorem hashedFor_left {x y : Block} {data : Bytes} (h : HashedBy [x] data) :
    HashedFor x y data :=
  Or.inl (h.append_left)

theorem hashedFor_comm {x y : Block} {data : Bytes} (h : HashedFor x y data) :
    HashedFor y x data := by
  have hswap : forall block, block ∈ [x, y] -> block ∈ [y, x] := by
    intro block hblock
    simpa [or_comm] using hblock
  rcases h with hdata | hdata
  · cases hdata with
    | header hblock => exact Or.inl (HashedBy.header (hswap _ hblock))
    | transaction hblock hmem => exact Or.inl (HashedBy.transaction (hswap _ hblock) hmem)
    | merklePair hblock hpair hleft hright =>
        exact Or.inl (HashedBy.merklePair (hswap _ hblock) hpair hleft hright)
  · exact Or.inr hdata

/-- Under freedom of collisions a body with transactions and an empty one never
share a root. -/
theorem empty_iff_of_merkleRoot {x y : Block} (hfree : CollisionFreeOn (HashedFor x y))
    (hx : forall transaction, transaction ∈ x.transactions -> PaysAddresses transaction)
    (hy : forall transaction, transaction ∈ y.transactions -> PaysAddresses transaction)
    {root : Str} (hxRoot : calculateMerkleRoot x.transactions = .ok root)
    (hyRoot : calculateMerkleRoot y.transactions = .ok root) :
    x.transactions = [] <-> y.transactions = [] := by
  have hnil : calculateMerkleRoot [] = .ok (sha256Hex []) := rfl
  constructor
  · intro hxNil
    by_contra hne
    rw [hxNil, hnil] at hxRoot
    rw [← hxRoot] at hyRoot
    exact merkleRoot_ne_empty hfree (Or.inr rfl)
      (fun _ hdata => hashedFor_comm (hashedFor_left hdata))
      (fun transaction hmem => (hy transaction hmem).longEncoding) hne hyRoot
  · intro hyNil
    by_contra hne
    rw [hyNil, hnil] at hyRoot
    rw [← hyRoot] at hxRoot
    exact merkleRoot_ne_empty hfree (Or.inr rfl) (fun _ hdata => hashedFor_left hdata)
      (fun transaction hmem => (hx transaction hmem).longEncoding) hne hxRoot

/-- Blocks that pass the structural check are determined by their hash, and their
bodies by their root.  A list that repeats transactions at the end fails the
check, and no list of another depth has the root of a valid body. -/
theorem block_hash_commitment {x y : Block} (hfree : CollisionFreeOn (HashedFor x y))
    (hxPays : forall transaction, transaction ∈ x.transactions ->
      PaysAddresses transaction)
    (hyPays : forall transaction, transaction ∈ y.transactions ->
      PaysAddresses transaction)
    (hxValid : validateBlockStructure x = true) :
    (validateBlockStructure y = true -> x.hash = y.hash -> x = y) ∧
      (validateBlockStructure y = true -> x.merkleRoot = y.merkleRoot ->
        x.transactions = y.transactions) ∧
      (forall repeated, repeated ≠ [] -> repeated <:+ x.transactions ->
        y.transactions = x.transactions ++ repeated -> validateBlockStructure y = false) ∧
      (calculateMerkleRoot y.transactions = .ok x.merkleRoot ->
        (x.transactions = [] <-> y.transactions = []) ∧
          Nat.clog 2 x.transactions.length = Nat.clog 2 y.transactions.length) := by
  have hx := (validateBlockStructure_iff x).mp hxValid
  have hlong : forall transaction, transaction ∈ x.transactions ++ y.transactions ->
      LongEncoding transaction := by
    intro transaction hmem
    rcases List.mem_append.mp hmem with hin | hin
    · exact (hxPays transaction hin).longEncoding
    · exact (hyPays transaction hin).longEncoding
  have hbody : validateBlockStructure y = true -> x.merkleRoot = y.merkleRoot ->
      x.transactions = y.transactions := by
    intro hyValid hroot
    have hy := (validateBlockStructure_iff y).mp hyValid
    have hempty := empty_iff_of_merkleRoot hfree hxPays hyPays
      (hroot ▸ hx.merkleRoot) hy.merkleRoot
    by_cases hnil : x.transactions = []
    · rw [hnil, hempty.mp hnil]
    · exact transactions_of_merkleRoot hfree (fun _ hdata => Or.inl hdata) hlong hx hy hnil
        (fun hyNil => hnil (hempty.mpr hyNil)) hroot
  refine ⟨?_, hbody, ?_, ?_⟩
  · intro hyValid hhash
    have hheader := header_of_hash hfree (Or.inl (HashedBy.header List.mem_cons_self))
      (Or.inl (HashedBy.header (List.mem_cons_of_mem _ List.mem_cons_self))) hhash
    exact Block.ext_header hheader (hbody hyValid (congrArg BlockHeader.merkleRoot hheader))
  · intro repeated hne hsuffix htransactions
    by_contra hvalid
    have hy := (validateBlockStructure_iff y).mp (by simpa using hvalid)
    cases hrepeated : repeated with
    | nil => exact hne hrepeated
    | cons first rest =>
        have hin : first ∈ x.transactions := hsuffix.subset (by simp [hrepeated])
        have hnodup := hy.txids_nodup
        rw [htransactions, List.map_append, List.nodup_append] at hnodup
        exact hnodup.right.right first.txid (List.mem_map.mpr ⟨first, hin, rfl⟩) first.txid
          (List.mem_map.mpr ⟨first, by simp [hrepeated], rfl⟩) rfl
  · intro hroot
    have hempty := empty_iff_of_merkleRoot hfree hxPays hyPays hx.merkleRoot hroot
    refine ⟨hempty, ?_⟩
    by_cases hnil : x.transactions = []
    · rw [hnil, hempty.mp hnil]
    · have hyNil : y.transactions ≠ [] := fun hyNil => hnil (hempty.mpr hyNil)
      have hdepth := MerkleTree.climb_depth
        (combineHashes_separated hfree (fun _ hdata => Or.inl hdata) hlong)
        (txids_atHeight (fun _ hmem => List.mem_append_left _ hmem))
        (txids_atHeight (fun _ hmem => List.mem_append_right _ hmem))
        (fun pair hpair => List.mem_append_left (merklePairs y) hpair)
        (fun pair hpair => List.mem_append_right (merklePairs x) hpair)
        (merkleRoot_climb hnil hx.merkleRoot) (merkleRoot_climb hyNil hroot)
      simpa using hdepth

end Commitment

/-!
## The sample network
-/

namespace Sample

/-- The outputs after the first block. -/
def confirmed : UTXOSet :=
  { items := [((coinbaseTxid, 0), ⟨50, address⟩)]
    nodupKeys := List.nodup_singleton _ }

def firstState : ChainState :=
  { utxoSet := confirmed, seenTxids := {coinbaseTxid} }

theorem first_rebuilt :
    @rebuildChainState crypto [genesis, first] clock = .ok (some firstState) := by
  decide +kernel

/-- The byte strings hashed for the chain of one block. -/
def hashedInputs : List Bytes :=
  [genesis.header.toBytes, first.header.toBytes, coinbase.encoding]

theorem hashedBy_first {data : Bytes} (h : @HashedBy crypto [genesis, first] data) :
    data ∈ hashedInputs := by
  cases h with
  | @header block hblock =>
      rcases List.mem_cons.mp hblock with heq | hrest
      · rw [heq]
        simp [hashedInputs]
      · rw [List.mem_singleton.mp hrest]
        simp [hashedInputs]
  | @transaction block transaction hblock htransaction =>
      rcases List.mem_cons.mp hblock with heq | hrest
      · rw [heq] at htransaction
        cases htransaction
      · rw [List.mem_singleton.mp hrest] at htransaction
        rw [List.mem_singleton.mp htransaction]
        simp [hashedInputs]
  | @merklePair block left right leftBytes rightBytes hblock hpair _ _ =>
      rcases List.mem_cons.mp hblock with heq | hrest
      · rw [heq] at hpair
        cases hpair
      · rw [List.mem_singleton.mp hrest] at hpair
        cases hpair

theorem hashedInputs_collisionFree :
    @CollisionFreeOn crypto (fun data => data ∈ hashedInputs) := by
  have hall : forall x, x ∈ hashedInputs -> forall y, y ∈ hashedInputs ->
      crypto.sha256 x = crypto.sha256 y -> x = y := by
    decide +kernel
  intro x y hx hy heq
  exact hall x hx y hy heq

def body : Block :=
  { transactions := [secondCoinbase, transfer, coinbase]
    previousBlockHash := firstHash
    timestamp := 1788652920
    version := 1
    difficulty := 16
    nonce := 0
    merkleRoot :=
      hexString 64 0xf33eccc9f3c9efa2548af3e1002f9506ac0082fa33f60a02a5e3499bf05938a9 }

/-- The same block with its last transaction repeated. -/
def repeated : Block :=
  { body with transactions := [secondCoinbase, transfer, coinbase, coinbase] }

def coinbasePair : Str :=
  hexString 64 0x4c31d4b9d75509793df7a58f499dcbf5f47be62b72f78684e8125b0a8e528121

def bodyDigests : List (Bytes × Str) :=
  digests ++
    [((fromHex (coinbaseTxid ++ coinbaseTxid)).getD [], coinbasePair),
      ((fromHex (secondRoot ++ coinbasePair)).getD [], body.merkleRoot),
      (body.header.toBytes,
        hexString 64 0xdaa7526048cb73e0b742fd5ff08f502bdd2d80fd1d47608a3a724354c6ec586e)]

/-- The sample network with the digests of the larger body. -/
@[reducible]
def bodyCrypto : Crypto :=
  { crypto with
    sha256 := tableSha256 bodyDigests
    sha256_length := tableSha256_length bodyDigests }

def bodyInputs : List Bytes :=
  [[], body.header.toBytes, secondCoinbase.encoding, transfer.encoding, coinbase.encoding,
    (fromHex (secondCoinbaseTxid ++ transferTxid)).getD [],
    (fromHex (coinbaseTxid ++ coinbaseTxid)).getD [],
    (fromHex (secondRoot ++ coinbasePair)).getD []]

theorem body_computed :
    (forall block, block ∈ [body, repeated] ->
      block.header.toBytes ∈ bodyInputs ∧
        (forall transaction, transaction ∈ block.transactions ->
          transaction.encoding ∈ bodyInputs) ∧
        forall pair, pair ∈ @merklePairs bodyCrypto block ->
          (fromHex pair.1).getD [] ++ (fromHex pair.2).getD [] ∈ bodyInputs) ∧
      (forall x, x ∈ bodyInputs -> forall y, y ∈ bodyInputs ->
        bodyCrypto.sha256 x = bodyCrypto.sha256 y -> x = y) ∧
      @validateBlockStructure bodyCrypto body = true ∧
      @calculateMerkleRoot bodyCrypto repeated.transactions = .ok body.merkleRoot := by
  decide +kernel

theorem hashedFor_body {data : Bytes} (h : @HashedFor bodyCrypto body repeated data) :
    data ∈ bodyInputs := by
  rcases body_computed with ⟨hlisted, _⟩
  rcases h with hdata | hdata
  · cases hdata with
    | @header block hblock =>
        exact (hlisted block hblock).left
    | @transaction block transaction hblock htransaction =>
        exact (hlisted block hblock).right.left transaction htransaction
    | @merklePair block left right leftBytes rightBytes hblock hpair hleft hright =>
        have hmem := (hlisted block hblock).right.right (left, right) hpair
        simp only [hleft, hright, Option.getD_some] at hmem
        exact hmem
  · rw [hdata]
    exact List.mem_cons_self

theorem body_collisionFree :
    @CollisionFreeOn bodyCrypto (@HashedFor bodyCrypto body repeated) := by
  rcases body_computed with ⟨_, hdistinct, _⟩
  intro x y hx hy heq
  exact hdistinct x (hashedFor_body hx) y (hashedFor_body hy) heq

theorem body_pays : forall transaction, transaction ∈ repeated.transactions ->
    @PaysAddresses bodyCrypto transaction := by
  unfold PaysAddresses
  decide +kernel

theorem body_valid : @validateBlockStructure bodyCrypto body = true := by
  rcases body_computed with ⟨_, _, hvalid, _⟩
  exact hvalid

end Sample

/-- Repeating the last of three transactions gives the root of the valid body. -/
theorem block_hash_commitment_repeated :
    @CollisionFreeOn Sample.bodyCrypto
        (@HashedFor Sample.bodyCrypto Sample.body Sample.repeated) ∧
      @validateBlockStructure Sample.bodyCrypto Sample.body = true ∧
      (forall transaction, transaction ∈ Sample.repeated.transactions ->
        @PaysAddresses Sample.bodyCrypto transaction) ∧
      Sample.repeated.transactions = Sample.body.transactions ++ [Sample.coinbase] ∧
      [Sample.coinbase] <:+ Sample.body.transactions ∧
      @calculateMerkleRoot Sample.bodyCrypto Sample.repeated.transactions =
        .ok Sample.body.merkleRoot := by
  rcases Sample.body_computed with ⟨_, _, _, hroot⟩
  exact ⟨Sample.body_collisionFree, Sample.body_valid, Sample.body_pays, rfl,
    ⟨[Sample.secondCoinbase, Sample.transfer], rfl⟩, hroot⟩

theorem block_hash_commitment_sample :
    @validateBlockStructure Sample.bodyCrypto Sample.repeated = false :=
  (@block_hash_commitment Sample.bodyCrypto Sample.body Sample.repeated
    Sample.body_collisionFree
    (fun transaction hmem => Sample.body_pays transaction (List.mem_append_left _ hmem))
    Sample.body_pays Sample.body_valid).right.right.left [Sample.coinbase] (by simp)
    ⟨[Sample.secondCoinbase, Sample.transfer], rfl⟩ rfl

theorem rebuild_tip_commitment_sample :
    @rebuildChainState Sample.crypto [Sample.genesis, Sample.first] Sample.clock =
        .ok (some Sample.firstState) ∧
      [Sample.genesis, Sample.first] = [Sample.genesis, Sample.first] ∧
      Sample.firstState = Sample.firstState :=
  ⟨Sample.first_rebuilt,
    @rebuild_tip_commitment Sample.crypto [Sample.genesis, Sample.first]
      [Sample.genesis, Sample.first] Sample.clock Sample.clock _ _ Sample.first Sample.first
      (fun x y hx hy heq => Sample.hashedInputs_collisionFree x y
        (hx.elim Sample.hashedBy_first Sample.hashedBy_first)
        (hy.elim Sample.hashedBy_first Sample.hashedBy_first) heq)
      Sample.first_rebuilt Sample.first_rebuilt rfl rfl rfl⟩

end PyChain
