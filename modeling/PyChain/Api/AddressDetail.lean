import PyChain.Api.AddressHistory
import PyChain.Api.ViewCache
import PyChain.Blockchain.PendingLedger

/-!
# Address details and pending transactions

The address details look up what a pending transaction spends among the confirmed
outputs; the wallet history also knows the outputs of the pool.  They report the same
pending transactions exactly when nothing that spends a pending output of the address
does so without spending a confirmed one of it too.
-/

namespace PyChain

open Foundation

namespace Api

/-!
## The request
-/

/-- The white space of `str.strip`. -/
def isSpace (c : Char) : Bool :=
  (9 ≤ c.toNat && c.toNat ≤ 13) || (28 ≤ c.toNat && c.toNat ≤ 32) || c.toNat = 0x85 ||
    c.toNat = 0xA0 || c.toNat = 0x1680 || (0x2000 ≤ c.toNat && c.toNat ≤ 0x200A) ||
    c.toNat = 0x2028 || c.toNat = 0x2029 || c.toNat = 0x202F || c.toNat = 0x205F ||
    c.toNat = 0x3000

def strip (text : Str) : Str :=
  ((text.dropWhile isSpace).reverse.dropWhile isSpace).reverse

structure ExplorerUTXOItem where
  txid : Str
  outputIndex : Int
  amount : Int
  recipientAddress : Str

structure AddressDetail where
  address : Str
  confirmedBalance : Int
  utxoCount : Nat
  utxos : List ExplorerUTXOItem
  totalTransactions : Nat
  transactions : List HistoryRecord
  limit : Int
  offset : Int

def invalidAddress (address : Str) : ApiError :=
  { status := 400
    code := "INVALID_ADDRESS"
    message := str "'" ++ address ++ str "' is not a valid PYC address" }

def invalidPagination (message : String) : ApiError :=
  { status := 400
    code := "INVALID_PAGINATION"
    message := str message }

section Detail

variable [Crypto]

omit [Crypto] in
def isSender (view : ChainView) (address : Str) (transaction : Transaction) : Bool :=
  transaction.inputs.any
    (fun input => paysAddress address (view.outputsByOutpoint.get? input.outpoint))

/-- The record of a pending entry, if it concerns the address. -/
def pendingRecord (view : ChainView) (address : Str) (entry : MempoolEntry) :
    List HistoryRecord :=
  if isSender view address entry.transaction = true then
    [{ txid := entry.transaction.txid
       blockHeight := none
       timestamp := entry.transaction.timestamp
       status := .pending
       direction := .sent
       amount := amountPaidPast address entry.transaction.outputs
       fee := entry.fee }]
  else if 0 < amountPaidTo address entry.transaction.outputs then
    [{ txid := entry.transaction.txid
       blockHeight := none
       timestamp := entry.transaction.timestamp
       status := .pending
       direction := .received
       amount := amountPaidTo address entry.transaction.outputs
       fee := entry.fee }]
  else []

/-- What a request has collected before it cuts out its page. -/
structure Collected where
  address : Str
  info : AddressInfo
  pending : List HistoryRecord
  confirmed : List HistoryRecord
  service : ExplorerService

/-- The argument `reads` is the chain that each read sees: of the first view, the address,
the latest block, the second view, the address again, and the pending entries. -/
def collectHistory (service : ExplorerService) (reads : Nat -> Nat -> Blockchain)
    (rawAddress : Str) (limit offset : Int) : Except RequestError Collected := do
  let address := strip rawAddress
  if validateAddress address = false then throw (.api (invalidAddress address))
  else if limit < 1 ∨ 100 < limit then
    throw (.api (invalidPagination "limit must be between 1 and 100"))
  else if offset < 0 then throw (.api (invalidPagination "offset must be >= 0"))
  else do
    let first <- getChainView service (reads 0) false
    let firstInfo <- ask ((reads 1 0).getAddressInfo address)
    let latest <- ask (reads 2 0).getLatestBlockInfo
    let latestTip := match latest with
      | none => []
      | some (block, _) => block.hash
    let read <- if latestTip ≠ [] ∧ latestTip ≠ first.1.tipHash then do
        let second <- getChainView first.2 (reads 3) true
        let secondInfo <- ask ((reads 4 0).getAddressInfo address)
        pure (second, secondInfo)
      else pure (first, firstInfo)
    return {
      address := address
      info := read.2
      pending := (reads 5 0).mempool.entries.values.flatMap (pendingRecord read.1.1 address)
      confirmed := read.1.1.addressHistory.listAt address
      service := read.1.2 }

def getAddressDetail (service : ExplorerService) (reads : Nat -> Nat -> Blockchain)
    (rawAddress : Str) (limit offset : Int) :
    Except RequestError (AddressDetail × ExplorerService) := do
  let collected <- collectHistory service reads rawAddress limit offset
  let history := collected.pending ++ collected.confirmed
  return (
    { address := collected.address
      confirmedBalance := collected.info.confirmedBalance
      utxoCount := collected.info.utxoCount
      utxos := collected.info.utxos.items.map (fun item =>
        { txid := item.1.1
          outputIndex := item.1.2
          amount := item.2.amount
          recipientAddress := item.2.recipientAddress })
      totalTransactions := history.length
      transactions := (history.drop offset.toNat).take limit.toNat
      limit := limit
      offset := offset },
    collected.service)

/-!
## A request on a chain that stays the same
-/

omit [Crypto] in
theorem strip_of_ends {text : Str} {c d : Char} (hhead : text.head? = some c)
    (hlast : text.getLast? = some d) (hc : isSpace c = false) (hd : isSpace d = false) :
    strip text = text := by
  have hfront : text.dropWhile isSpace = text := by
    cases text with
    | nil => rfl
    | cons x rest =>
        rw [Option.some.inj hhead]
        exact List.dropWhile_cons_of_neg (by simp [hc])
  have hback : text.reverse.dropWhile isSpace = text.reverse := by
    cases hreverse : text.reverse with
    | nil => rfl
    | cons x rest =>
        have hx : x = d := by
          rw [← List.head?_reverse, hreverse] at hlast
          exact Option.some.inj hlast
        rw [hx]
        exact List.dropWhile_cons_of_neg (by simp [hd])
  unfold strip
  rw [hfront, hback, List.reverse_reverse]

omit [Crypto] in
theorem isSpace_of_isLowerHex {c : Char} (h : isLowerHex c = true) : isSpace c = false := by
  unfold isLowerHex at h
  unfold isSpace
  simp only [Bool.or_eq_true, Bool.and_eq_true, decide_eq_true_eq] at h
  simp only [Bool.or_eq_false_iff, Bool.and_eq_false_iff, decide_eq_false_iff_not]
  omega

theorem strip_of_validateAddress {address : Str} (h : validateAddress address = true) :
    strip address = address := by
  have hlength := validateAddress_length h
  unfold validateAddress at h
  split at h
  · rename_i hfront
    simp only at h
    split at h
    · have hhead : address.head? = some 'P' := by
        cases address with
        | nil => cases hfront
        | cons c rest => exact congrArg some (List.cons.inj hfront).left
      have hsum : address.drop 44 = addressChecksum ((address.drop 4).take 40) := by
        rw [← of_decide_eq_true h, List.drop_drop]
      have hend : (address.drop 44).getLast? = address.getLast? := by
        rw [List.getLast?_drop, if_neg (by omega)]
      cases hlast : address.getLast? with
      | none =>
          rw [List.getLast?_eq_none_iff] at hlast
          rw [hlast] at hhead
          cases hhead
      | some d =>
          have hmem : d ∈ addressChecksum ((address.drop 4).take 40) := by
            rw [← hsum]
            exact List.mem_of_getLast? (hend.trans hlast)
          have hhash := sha256Hex_isHash (encodeUtf8 ((address.drop 4).take 40))
          unfold isHash at hhash
          rw [Bool.and_eq_true, List.all_eq_true] at hhash
          exact strip_of_ends hhead hlast (by decide)
            (isSpace_of_isLowerHex (hhash.right d (List.mem_of_mem_take hmem)))
    · cases h
  · cases h

theorem collectHistory_still {chain : Blockchain} {service : ExplorerService}
    (h : Serves chain service) {address : Str} (haddress : validateAddress address = true)
    {limit offset : Int} (hlimit : 1 ≤ limit ∧ limit ≤ 100) (hoffset : 0 ≤ offset) :
    exists tip collected, collectHistory service (fun _ _ => chain) address limit offset =
        .ok collected ∧
      collected.pending = chain.mempool.entries.values.flatMap
        (pendingRecord (ChainView.of chain.blocks tip) address) := by
  rcases getChainView_still h false with ⟨tip, after, hlatest, hview⟩
  rcases Blockchain.reachable_sound h.reachable with ⟨_, husable⟩
  have hinfo : exists info, chain.getAddressInfo address = .ok info := by
    unfold Blockchain.getAddressInfo
    rw [husable]
    exact ⟨_, rfl⟩
  rcases hinfo with ⟨info, hinfo⟩
  have htip : ¬ (tip.hash ≠ [] ∧ tip.hash ≠ (ChainView.of chain.blocks tip).tipHash) := by
    rintro ⟨_, hne⟩
    apply hne
    unfold ChainView.of
    rw [ChainView.populate_tipHash]
    rfl
  refine ⟨tip,
    { address := address
      info := info
      pending := chain.mempool.entries.values.flatMap
        (pendingRecord (ChainView.of chain.blocks tip) address)
      confirmed := (ChainView.of chain.blocks tip).addressHistory.listAt address
      service := after }, ?_, rfl⟩
  unfold collectHistory
  simp only [strip_of_validateAddress haddress, haddress, Bool.true_eq_false, if_false]
  rw [if_neg (by omega), if_neg (by omega), hview]
  simp only [bind_eq_ok_iff]
  refine ⟨_, rfl, info, ask_eq_ok_iff.mpr hinfo, _, ask_eq_ok_iff.mpr hlatest, ?_⟩
  simp only
  rw [if_neg htip]
  rfl

/-!
## Pending records on both sides
-/

/-- What both histories tell of a pending transaction. -/
def HistoryRecord.triple (record : HistoryRecord) : Str × (Direction × Int) :=
  (record.txid, (record.direction, record.amount))

def walletTriple (record : WalletRecord) : Str × (Direction × Int) :=
  (record.txid, (record.direction, record.amount))

/-- The transaction spends a confirmed output of the address. -/
def SpendsConfirmed (blocks : List Block) (address : Str) (transaction : Transaction) :
    Prop :=
  exists input output, input ∈ transaction.inputs ∧ MadeAt blocks input.outpoint output ∧
    output.recipientAddress = address

/-- The transaction spends an output of the address that a pending one makes. -/
def SpendsPending (pool : List Transaction) (address : Str) (transaction : Transaction) :
    Prop :=
  exists input parent output, input ∈ transaction.inputs ∧ parent ∈ pool ∧
    (input.outpoint, output) ∈ UTXOSet.outputItems parent ∧
    output.recipientAddress = address

omit [Crypto] in
theorem paysAddress_eq_true_iff {address : Str} {found : Option TxOutput} :
    paysAddress address found = true <->
      exists output, found = some output ∧ output.recipientAddress = address := by
  cases found with
  | none => simp [paysAddress]
  | some output => simp [paysAddress]

theorem isSender_iff {blocks : List Block} {state : ChainState} {view : ChainView}
    (h : ChainLedger blocks state) (hview : ChainView.Populated blocks view)
    (address : Str) (transaction : Transaction) :
    isSender view address transaction = true <->
      SpendsConfirmed blocks address transaction := by
  unfold isSender SpendsConfirmed
  simp only [List.any_eq_true, paysAddress_eq_true_iff, madeAt_iff h hview]
  constructor
  · rintro ⟨input, hinput, output, houtput, hpays⟩
    exact ⟨input, output, hinput, houtput, hpays⟩
  · rintro ⟨input, output, hinput, houtput, hpays⟩
    exact ⟨input, hinput, output, houtput, hpays⟩

theorem walletSent_iff {chain : Blockchain} (h : Blockchain.PendingLedger chain)
    (address : Str) (transaction : Transaction) :
    (transaction.inputs.map (fun input => (Blockchain.sourcesOf
        (chain.blocks.flatMap Block.transactions ++ chain.mempool.getTransactions)).get?
          input.outpoint)).any (paysAddress address) = true <->
      SpendsConfirmed chain.blocks address transaction ∨
        SpendsPending chain.mempool.getTransactions address transaction := by
  have hmade : forall outpoint output,
      (outpoint, output) ∈ OutputLedger.createdBy
          (postings (chainHistory chain.blocks ++ chain.mempool.getTransactions)) <->
        MadeAt chain.blocks outpoint output ∨
          exists parent, parent ∈ chain.mempool.getTransactions ∧
            (outpoint, output) ∈ UTXOSet.outputItems parent := by
    intro outpoint output
    rw [mem_createdBy_iff]
    unfold MadeAt
    constructor
    · rintro ⟨maker, hmaker, hitem⟩
      rcases List.mem_append.mp hmaker with hconfirmed | hpending
      · rcases (mem_chainHistory _ _).mp hconfirmed with ⟨block, hblock, hin⟩
        exact Or.inl ⟨block, maker, hblock, hin, hitem⟩
      · exact Or.inr ⟨maker, hpending, hitem⟩
    · rintro (⟨block, maker, hblock, hin, hitem⟩ | ⟨maker, hpending, hitem⟩)
      · exact ⟨maker, List.mem_append_left _
          ((mem_chainHistory _ _).mpr ⟨block, hblock, hin⟩), hitem⟩
      · exact ⟨maker, List.mem_append_right _ hpending, hitem⟩
  unfold SpendsConfirmed SpendsPending
  simp only [List.any_map, List.any_eq_true, Function.comp_apply, paysAddress_eq_true_iff,
    h.sources_get?_iff (List.append_nil _).symm, hmade]
  constructor
  · rintro ⟨input, hinput, output, hconfirmed | ⟨parent, hparent, hitem⟩, hpays⟩
    · exact Or.inl ⟨input, output, hinput, hconfirmed, hpays⟩
    · exact Or.inr ⟨input, parent, output, hinput, hparent, hitem, hpays⟩
  · rintro (⟨input, output, hinput, hconfirmed, hpays⟩ |
      ⟨input, parent, output, hinput, hparent, hitem, hpays⟩)
    · exact ⟨input, hinput, output, Or.inl hconfirmed, hpays⟩
    · exact ⟨input, hinput, output, Or.inr ⟨parent, hparent, hitem⟩, hpays⟩

omit [Crypto] in
theorem amountPaidTo_nonneg (address : Str) {outputs : List TxOutput}
    (hpositive : forall output, output ∈ outputs -> 0 < output.amount) :
    0 ≤ amountPaidTo address outputs := by
  unfold amountPaidTo
  apply List.sum_nonneg
  intro amount hamount
  rcases List.mem_map.mp hamount with ⟨output, houtput, rfl⟩
  exact Int.le_of_lt (hpositive output (List.mem_filter.mp houtput).left)

theorem pendingRecord_txid {view : ChainView} {address : Str} (entry : MempoolEntry)
    (triple : Str × (Direction × Int))
    (h : triple ∈ (pendingRecord view address entry).map HistoryRecord.triple) :
    triple.1 = entry.transaction.txid := by
  rcases List.mem_map.mp h with ⟨record, hrecord, rfl⟩
  unfold pendingRecord at hrecord
  split at hrecord
  · rw [List.mem_singleton.mp hrecord]
    rfl
  · split at hrecord
    · rw [List.mem_singleton.mp hrecord]
      rfl
    · cases hrecord

theorem recordOf_txid {address : Str} {sources : UTXOSet} (entry : MempoolEntry)
    (triple : Str × (Direction × Int))
    (h : triple ∈ (Blockchain.recordOf address none sources entry.transaction).map
      walletTriple) : triple.1 = entry.transaction.txid := by
  rcases List.mem_map.mp h with ⟨record, hrecord, rfl⟩
  unfold Blockchain.recordOf at hrecord
  simp only at hrecord
  split at hrecord
  · rw [List.mem_singleton.mp hrecord]
    rfl
  · cases hrecord

/-- The two records of a pending transaction agree unless only the wallet history sees
that the address is a sender. -/
theorem pendingRecord_perm_iff {view : ChainView}
    {address : Str} {sources : UTXOSet} {entry : MempoolEntry} {confirmed pending : Prop}
    (hpositive : forall output, output ∈ entry.transaction.outputs -> 0 < output.amount)
    (hsender : isSender view address entry.transaction = true <-> confirmed)
    (hsent : (entry.transaction.inputs.map (fun input => sources.get? input.outpoint)).any
      (paysAddress address) = true <-> confirmed ∨ pending) :
    ((pendingRecord view address entry).map HistoryRecord.triple).Perm
        ((Blockchain.recordOf address none sources entry.transaction).map walletTriple) <->
      (pending -> confirmed) := by
  have hnonneg := amountPaidTo_nonneg address hpositive
  unfold pendingRecord Blockchain.recordOf
  simp only
  by_cases hconfirmed : confirmed
  · have hwallet := hsent.mpr (Or.inl hconfirmed)
    rw [if_pos (hsender.mpr hconfirmed), hwallet, if_pos (Or.inl rfl)]
    exact ⟨fun _ _ => hconfirmed, fun _ => List.Perm.refl _⟩
  · rw [if_neg (fun h => hconfirmed (hsender.mp h))]
    by_cases hpending : pending
    · have hwallet := hsent.mpr (Or.inr hpending)
      rw [hwallet, if_pos (Or.inl rfl)]
      constructor
      · intro hperm
        split at hperm
        · have heq := List.perm_singleton.mp hperm
          simp [HistoryRecord.triple, walletTriple] at heq
        · simp at hperm
      · intro himplies
        exact absurd (himplies hpending) hconfirmed
    · have hwallet : (entry.transaction.inputs.map
          (fun input => sources.get? input.outpoint)).any (paysAddress address) = false := by
        rw [Bool.eq_false_iff]
        intro htrue
        rcases hsent.mp htrue with h | h
        · exact hconfirmed h
        · exact hpending h
      rw [hwallet]
      refine ⟨fun _ h => absurd h hpending, fun _ => ?_⟩
      by_cases hreceived : 0 < amountPaidTo address entry.transaction.outputs
      · rw [if_pos hreceived, if_pos (Or.inr (by omega))]
        exact List.Perm.refl _
      · rw [if_neg hreceived, if_neg (by simp; omega)]
        exact List.Perm.refl _

/-- The pending records of the address details and of the wallet history agree exactly
when each transaction that spends a pending output of the address also spends a confirmed
one of it. -/
theorem pending_histories_agree_iff {chain : Blockchain} {service : ExplorerService}
    (h : Serves chain service) {address : Str} (haddress : validateAddress address = true)
    {limit offset : Int} (hlimit : 1 ≤ limit ∧ limit ≤ 100) (hoffset : 0 ≤ offset) :
    exists collected,
      collectHistory service (fun _ _ => chain) address limit offset = .ok collected ∧
        forall (pageSize : Int) (count : Nat) (records : List WalletRecord),
          chain.walletHistoryPages address pageSize count = .ok records ->
          chain.getWalletHistory address (count * pageSize) pageSize = .ok [] ->
          ((collected.pending.map HistoryRecord.triple).Perm
              ((records.filter (fun record => record.status = .pending)).map walletTriple) <->
            forall transaction, transaction ∈ chain.mempool.getTransactions ->
              SpendsPending chain.mempool.getTransactions address transaction ->
                SpendsConfirmed chain.blocks address transaction) := by
  rcases collectHistory_still h haddress hlimit hoffset with
    ⟨tip, collected, hcollected, hpending⟩
  refine ⟨collected, hcollected, ?_⟩
  intro pageSize count records hpages hlast
  rcases Blockchain.reachable_sound h.reachable with ⟨hsound, husable⟩
  have hledger := Blockchain.pendingLedger hsound
  have hview : ChainView.Populated chain.blocks (ChainView.of chain.blocks tip) :=
    ChainView.populate_populated _ _ _
  have hnodup : (chain.mempool.entries.values.map
      (fun entry => entry.transaction.txid)).Nodup := by
    have htxids := hledger.processes.txids_new.left
    unfold Mempool.getTransactions at htxids
    rw [List.map_map] at htxids
    exact htxids
  have hsender := isSender_iff hledger.confirmed hview address
  have hsent := walletSent_iff hledger address
  have hpositive : forall entry, entry ∈ chain.mempool.entries.values ->
      forall output, output ∈ entry.transaction.outputs -> 0 < output.amount := by
    intro entry hentry output houtput
    have hvalid := hledger.processes.outputs_valid (List.mem_map_of_mem hentry) houtput
    unfold isValidOutput at hvalid
    simp only [Bool.and_eq_true, decide_eq_true_eq] at hvalid
    exact hvalid.left
  rw [Blockchain.walletHistoryPages_all husable hpages hlast, List.filter_reverse,
    List.map_reverse, List.perm_reverse, hpending, hledger.walletRecords_pending]
  generalize Blockchain.sourcesOf (chain.blocks.flatMap Block.transactions ++
    chain.mempool.getTransactions) = sources at hsent ⊢
  have hwallet : chain.mempool.getTransactions.flatMap
        (Blockchain.recordOf address none sources) =
      chain.mempool.entries.values.flatMap
        (fun entry => Blockchain.recordOf address none sources entry.transaction) := by
    unfold Mempool.getTransactions
    rw [List.flatMap_map]
  rw [hwallet, List.map_flatMap, List.map_flatMap,
    Dict.flatMap_perm_iff pendingRecord_txid recordOf_txid hnodup]
  constructor
  · intro hall transaction htransaction
    rcases List.mem_map.mp htransaction with ⟨entry, hentry, rfl⟩
    exact (pendingRecord_perm_iff (hpositive entry hentry) (hsender entry.transaction)
      (hsent entry.transaction)).mp (hall entry hentry)
  · intro hall entry hentry
    exact (pendingRecord_perm_iff (hpositive entry hentry) (hsender entry.transaction)
      (hsent entry.transaction)).mpr (hall entry.transaction (List.mem_map_of_mem hentry))

end Detail

theorem owners_served : @Serves Sample.ownersCrypto Sample.owners ⟨none⟩ :=
  @Serves.start Sample.ownersCrypto _ Sample.owners_reachable

/-- The change of a pending payment is spent again: for the address details it is an
amount received, for the wallet history an amount sent. -/
theorem pending_histories_owners :
    exists service collected records,
      @Serves Sample.ownersCrypto Sample.owners service ∧
        @collectHistory Sample.ownersCrypto service (fun _ _ => Sample.owners)
          Sample.address 20 0 = .ok collected ∧
        @Blockchain.walletHistoryPages Sample.ownersCrypto Sample.owners Sample.address 20 1 =
          .ok records ∧
        @Blockchain.getWalletHistory Sample.ownersCrypto Sample.owners Sample.address 20 20 =
          .ok [] ∧
        collected.pending.map HistoryRecord.triple =
          [(Sample.paymentTxid, (.sent, 10)), (Sample.laterTxid, (.received, 11))] ∧
        (records.filter (fun record => record.status = .pending)).map walletTriple =
          [(Sample.laterTxid, (.sent, 5)), (Sample.paymentTxid, (.sent, 10))] := by
  have hdetail : (match @collectHistory Sample.ownersCrypto ⟨none⟩ (fun _ _ => Sample.owners)
      Sample.address 20 0 with
      | .ok collected => some (collected.pending.map HistoryRecord.triple)
      | .error _ => none) =
        some [(Sample.paymentTxid, (.sent, 10)), (Sample.laterTxid, (.received, 11))] := by
    decide +kernel
  rcases Sample.owners_contents.right.right with ⟨hlast, _, hhistory⟩
  have husable := (@Blockchain.reachable_sound Sample.ownersCrypto Sample.owners
    Sample.owners_reachable).right
  cases hcollected : @collectHistory Sample.ownersCrypto ⟨none⟩ (fun _ _ => Sample.owners)
      Sample.address 20 0 with
  | error e =>
      rw [hcollected] at hdetail
      cases hdetail
  | ok collected =>
      cases hrecords : @Blockchain.walletHistoryPages Sample.ownersCrypto Sample.owners
          Sample.address 20 1 with
      | error e =>
          have hpages := @Blockchain.walletHistoryPages_ok Sample.ownersCrypto Sample.owners
            husable Sample.address 20 (by decide) (by decide) 1
          rw [hrecords] at hpages
          rcases hpages with ⟨records, hrecords'⟩
          cases hrecords'
      | ok records =>
          have hall := @Blockchain.walletHistoryPages_all Sample.ownersCrypto Sample.owners
            husable Sample.address 20 1 records hrecords hlast
          rw [hcollected] at hdetail
          rw [← hall] at hhistory
          exact ⟨⟨none⟩, collected, records, owners_served, hcollected, rfl, hlast,
            Option.some.inj hdetail, hhistory⟩

/-- Nothing that spends a pending output of the second owner is pending, so both sides
tell the same of it. -/
theorem pending_histories_agree_iff_sample :
    exists collected, @collectHistory Sample.ownersCrypto ⟨none⟩ (fun _ _ => Sample.owners)
        Sample.other 20 0 = .ok collected ∧
      forall records, @Blockchain.walletHistoryPages Sample.ownersCrypto Sample.owners
          Sample.other 20 1 = .ok records ->
        ((collected.pending.map HistoryRecord.triple).Perm
            ((records.filter (fun record => record.status = .pending)).map walletTriple) <->
          forall transaction, transaction ∈ Sample.owners.mempool.getTransactions ->
            @SpendsPending Sample.ownersCrypto Sample.owners.mempool.getTransactions
                Sample.other transaction ->
              @SpendsConfirmed Sample.ownersCrypto Sample.owners.blocks Sample.other
                transaction) := by
  have haddress : @validateAddress Sample.ownersCrypto Sample.other = true := by
    decide +kernel
  have hlast := Sample.owners_contents.right.right.right.left
  rcases @pending_histories_agree_iff Sample.ownersCrypto _ _ owners_served _ haddress 20 0
    (by decide) (by decide) with ⟨collected, hcollected, hagree⟩
  exact ⟨collected, hcollected, fun records hpages => hagree 20 1 records hpages hlast⟩

end Api

end PyChain
