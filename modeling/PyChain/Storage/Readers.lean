import PyChain.Storage.ChainStore

/-!
# What the writers and readers of rows accept

Each writer produces the row its object is represented by, and each reader
accepts exactly such rows.
-/

namespace PyChain

open Foundation

namespace ChainStore

theorem fetchAll_eq_ok_iff {row : Type} {columns : row -> List SqlValue}
    {rows out : List row} :
    Database.fetchAll columns rows = .ok out <->
      out = rows ∧ forall r, r ∈ rows -> forall value, value ∈ columns r ->
        value.isInvalid = false := by
  unfold Database.fetchAll
  split
  · rename_i h
    rcases List.any_eq_true.mp h with ⟨r, hr, hcolumns⟩
    rcases List.any_eq_true.mp hcolumns with ⟨value, hvalue, hinvalid⟩
    simp only [reduceCtorEq, false_iff, not_and]
    intro _ hall
    rw [hall r hr value hvalue] at hinvalid
    cases hinvalid
  · rename_i h
    constructor
    · intro heq
      refine ⟨(Except.ok.inj heq).symm, ?_⟩
      intro r hr value hvalue
      cases hinvalid : value.isInvalid with
      | false => rfl
      | true =>
          exfalso
          apply h
          exact List.any_eq_true.mpr ⟨r, hr, List.any_eq_true.mpr ⟨value, hvalue, hinvalid⟩⟩
    · intro heq
      rw [heq.left]

theorem payload_eq_ok_iff {value : SqlValue} {data : Bytes} :
    payload value = .ok data <-> value = .blob data := by
  cases value <;> simp [payload]

variable [Crypto]

/-!
## Blocks
-/

theorem encodeBlockRow_eq_ok_iff {height : Int} {block : Block} {row : BlockRow} :
    encodeBlockRow height block = .ok row <->
      row = blockRow height block ∧ (0 ≤ height ∧ height ≤ MAX_SQLITE_INTEGER) ∧
        Codec.StorableBlock block := by
  unfold encodeBlockRow blockRow
  simp only [bind_eq_ok_iff, require_eq_ok_iff, Codec.encodeBlock_eq_ok_iff]
  constructor
  · intro h
    rcases h with ⟨_, hheight, data, ⟨hdata, hstorable⟩, heq⟩
    cases heq
    rw [hdata]
    exact ⟨rfl, hheight, hstorable⟩
  · intro h
    rcases h with ⟨hrow, hheight, hstorable⟩
    exact ⟨(), hheight, _, ⟨rfl, hstorable⟩, congrArg Except.ok hrow.symm⟩

theorem readBlockRow_eq_ok_iff (expected : Int) (row : BlockRow) (block : Block) :
    readBlockRow expected row = .ok block <->
      row = blockRow expected block ∧ Codec.StorableBlock block := by
  unfold readBlockRow blockRow
  simp only [bind_eq_ok_iff, require_eq_ok_iff, payload_eq_ok_iff,
    Codec.decodeBlock_eq_ok_iff]
  constructor
  · intro h
    rcases h with ⟨_, hheight, data, hpayload, other, ⟨hdata, hstorable⟩, _,
      ⟨hhash, hprevious⟩, heq⟩
    have hother : other = block := Except.ok.inj heq
    subst hother
    cases row
    simp only at hheight hpayload hhash hprevious
    rw [hheight, hpayload, hhash, hprevious, hdata]
    exact ⟨rfl, hstorable⟩
  · intro h
    rcases h with ⟨hrow, hstorable⟩
    subst hrow
    exact ⟨(), rfl, _, rfl, block, ⟨rfl, hstorable⟩, (), ⟨rfl, rfl⟩, rfl⟩

theorem blockRow_fetchable {height : Int} {block : Block} {value : SqlValue}
    (h : value ∈ (blockRow height block).columns) : value.isInvalid = false := by
  simp only [BlockRow.columns, blockRow, List.mem_cons, List.not_mem_nil, or_false] at h
  rcases h with h | h | h | h <;> rw [h] <;> rfl

theorem readBlockRows_eq_ok_iff (db : Database) (blocks : List Block) :
    readBlockRows db = .ok blocks <->
      orderBy BlockRow.height db.blocks = numbered blockRow 0 blocks ∧ blocks ≠ [] ∧
        forall block, block ∈ blocks -> Codec.StorableBlock block := by
  unfold readBlockRows Database.selectBlocks
  simp only [bind_eq_ok_iff, require_eq_ok_iff, fetchAll_eq_ok_iff,
    mapNumbered_eq_ok_iff readBlockRow_eq_ok_iff]
  constructor
  · intro h
    rcases h with ⟨rows, ⟨hrows, _⟩, _, hne, hnumbered, hall⟩
    rw [← hrows]
    refine ⟨hnumbered, ?_, hall⟩
    intro hnil
    rw [hnil] at hnumbered
    exact hne hnumbered
  · intro h
    rcases h with ⟨hnumbered, hne, hall⟩
    refine ⟨_, ⟨rfl, ?_⟩, (), ?_, hnumbered, hall⟩
    · intro row hrow value hvalue
      rw [hnumbered] at hrow
      rcases mem_numbered hrow with ⟨i, block, _, _, _, heq⟩
      rw [heq] at hvalue
      exact blockRow_fetchable hvalue
    · rw [hnumbered]
      intro hnil
      have hlength := numbered_length blockRow blocks 0
      rw [hnil] at hlength
      exact hne (List.eq_nil_of_length_eq_zero hlength.symm)

/-!
## Chain state
-/

/-- An output that fits the table of cached outputs. -/
structure CachedOutput (seenTxids : Finset Str) (item : OutPoint × TxOutput) : Prop where
  recorded : item.1.1 ∈ seenTxids
  outputIndex : 0 ≤ item.1.2
  output : isValidOutput item.2 = true

theorem encodeUtxoRow_eq_ok_iff {seenTxids : Finset Str} {item : OutPoint × TxOutput}
    {row : UtxoRow} :
    encodeUtxoRow seenTxids item = .ok row <->
      row = utxoRow item ∧ CachedOutput seenTxids item ∧
        item.1.2 ≤ MAX_SQLITE_INTEGER := by
  unfold encodeUtxoRow utxoRow
  simp only [bind_eq_ok_iff, require_eq_ok_iff, Codec.encodeAmount_eq_ok_iff]
  constructor
  · intro h
    rcases h with ⟨_, ⟨hseen, hlow, hhigh⟩, _, haddress, amount, ⟨hpos, hamount⟩, heq⟩
    cases heq
    rw [hamount]
    refine ⟨rfl, ⟨hseen, hlow, ?_⟩, hhigh⟩
    have hlt : 0 < item.2.amount := by
      omega
    simp [isValidOutput, hlt, haddress]
  · intro h
    rcases h with ⟨hrow, ⟨hseen, hlow, hvalid⟩, hhigh⟩
    simp only [isValidOutput, Bool.and_eq_true, decide_eq_true_eq] at hvalid
    exact ⟨(), ⟨hseen, hlow, hhigh⟩, (), hvalid.right, _, ⟨by omega, rfl⟩,
      congrArg Except.ok hrow.symm⟩

theorem encodeChainstateRows_eq_ok_iff {state : ChainState}
    {rows : List SqlValue × List UtxoRow} :
    encodeChainstateRows state = .ok rows <->
      rows = (seenRows state.seenTxids,
        (state.utxoSet.items.insertionSort outpointLe).map utxoRow) ∧
        (forall txid, txid ∈ state.seenTxids -> isHash txid = true) ∧
        forall item, item ∈ state.utxoSet.items ->
          CachedOutput state.seenTxids item ∧ item.1.2 ≤ MAX_SQLITE_INTEGER := by
  unfold encodeChainstateRows
  simp only [bind_eq_ok_iff, require_eq_ok_iff,
    mapM_build_eq_ok_iff (fun _ _ => encodeUtxoRow_eq_ok_iff), List.mem_insertionSort]
  constructor
  · intro h
    rcases h with ⟨_, hseen, utxos, ⟨hutxos, hall⟩, heq⟩
    rw [← Except.ok.inj heq, hutxos]
    exact ⟨rfl, hseen, hall⟩
  · intro h
    rcases h with ⟨hrows, hseen, hall⟩
    exact ⟨(), hseen, _, ⟨rfl, hall⟩, congrArg Except.ok hrows.symm⟩

omit [Crypto] in
theorem readSeenRow_eq_ok_iff {seen out : Finset Str} {row : SqlValue} :
    readSeenRow seen row = .ok out <->
      exists txid, row = .text txid ∧ isHash txid = true ∧ txid ∉ seen ∧
        out = insert txid seen := by
  cases row with
  | text txid =>
      unfold readSeenRow
      simp only [SqlValue.text.injEq]
      split
      · rename_i h
        simp only [reduceCtorEq, false_iff]
        rintro ⟨other, rfl, hhash, hnew, _⟩
        rcases h with h | h
        · rw [hhash] at h
          cases h
        · exact hnew h
      · rename_i h
        rw [not_or] at h
        constructor
        · intro heq
          exact ⟨txid, rfl, by simpa using h.left, h.right, (Except.ok.inj heq).symm⟩
        · rintro ⟨other, rfl, _, _, hout⟩
          rw [hout]
  | null => simp [readSeenRow]
  | integer _ => simp [readSeenRow]
  | real _ => simp [readSeenRow]
  | invalidText _ => simp [readSeenRow]
  | blob _ => simp [readSeenRow]

omit [Crypto] in
theorem readSeenRows_eq_ok_iff (rows : List SqlValue) :
    forall (seen out : Finset Str),
      rows.foldlM readSeenRow seen = .ok out <->
        exists txids : List Str, rows = txids.map SqlValue.text ∧
          (forall txid, txid ∈ txids -> isHash txid = true) ∧ txids.Nodup ∧
          (forall txid, txid ∈ txids -> txid ∉ seen) ∧ out = seen ∪ txids.toFinset := by
  induction rows with
  | nil =>
      intro seen out
      constructor
      · intro h
        refine ⟨[], rfl, ?_, List.nodup_nil, ?_, ?_⟩
        · intro txid hmem
          cases hmem
        · intro txid hmem
          cases hmem
        · rw [← Except.ok.inj h]
          simp
      · intro h
        rcases h with ⟨txids, hrows, _, _, _, hout⟩
        have hnil : txids = [] := List.map_eq_nil_iff.mp hrows.symm
        rw [hout, hnil]
        simp only [List.toFinset_nil, Finset.union_empty]
        rfl
  | cons row rest ih =>
      intro seen out
      rw [foldlM_cons_eq_ok_iff]
      simp only [readSeenRow_eq_ok_iff, ih]
      constructor
      · intro h
        rcases h with ⟨_, ⟨txid, hrow, hhash, hnew, rfl⟩, txids, hrest, hall, hnodup, hfresh,
          hout⟩
        refine ⟨txid :: txids, by rw [hrow, hrest, List.map_cons],
          List.forall_mem_cons.mpr ⟨hhash, hall⟩, ?_, ?_, ?_⟩
        · rw [List.nodup_cons]
          refine ⟨?_, hnodup⟩
          intro hmem
          exact hfresh txid hmem (Finset.mem_insert_self _ _)
        · rw [List.forall_mem_cons]
          refine ⟨hnew, ?_⟩
          intro other hother hmem
          exact hfresh other hother (Finset.mem_insert_of_mem hmem)
        · rw [hout, List.toFinset_cons]
          ext other
          simp only [Finset.mem_union, Finset.mem_insert, List.mem_toFinset]
          tauto
      · intro h
        rcases h with ⟨txids, hrows, hall, hnodup, hfresh, hout⟩
        cases txids with
        | nil => cases hrows
        | cons txid others =>
            rw [List.map_cons] at hrows
            rcases List.cons.inj hrows with ⟨hrow, hrest⟩
            rcases List.forall_mem_cons.mp hall with ⟨hhash, hotherHashes⟩
            rcases List.forall_mem_cons.mp hfresh with ⟨hnew, hothersFresh⟩
            rw [List.nodup_cons] at hnodup
            refine ⟨_, ⟨txid, hrow, hhash, hnew, rfl⟩, others, hrest, hotherHashes,
              hnodup.right, ?_, ?_⟩
            · intro other hother hmem
              rcases Finset.mem_insert.mp hmem with heq | hold
              · rw [heq] at hother
                exact hnodup.left hother
              · exact hothersFresh other hother hold
            · rw [hout, List.toFinset_cons]
              ext other
              simp only [Finset.mem_union, Finset.mem_insert, List.mem_toFinset]
              tauto

omit [Crypto] in
theorem decodeAmountColumn_eq_ok_iff {value : SqlValue} {amount : Int} :
    decodeAmountColumn value = .ok amount <->
      1 ≤ amount ∧ value = .text (Nat.toDigits 10 amount.toNat) := by
  cases value with
  | text data =>
      simp only [decodeAmountColumn, Codec.decodeAmount_eq_ok_iff, SqlValue.text.injEq]
  | null => simp [decodeAmountColumn]
  | integer _ => simp [decodeAmountColumn]
  | real _ => simp [decodeAmountColumn]
  | invalidText _ => simp [decodeAmountColumn]
  | blob _ => simp [decodeAmountColumn]

theorem readUtxoRow_eq_ok_iff {seen : Finset Str} {utxos out : UTXOSet} {row : UtxoRow} :
    readUtxoRow seen utxos row = .ok out <->
      exists item, row = utxoRow item ∧ CachedOutput seen item ∧ item.1 ∉ utxos.keys ∧
        out = utxos.set item.1 item.2 := by
  constructor
  · intro h
    unfold readUtxoRow at h
    split at h
    · rename_i txid outputIndex htxid hindex
      split at h
      · cases h
      rename_i houtpoint
      split at h
      · rename_i address haddress
        split at h
        · cases h
        rename_i hvalid
        split at h
        · cases h
        rename_i hnew
        rcases bind_eq_ok_iff.mp h with ⟨amount, hamount, hadd⟩
        rcases decodeAmountColumn_eq_ok_iff.mp hamount with ⟨hpos, hcolumn⟩
        refine ⟨((txid, outputIndex), ⟨amount, address⟩), ?_, ?_, ?_, ?_⟩
        · cases row
          simp only at htxid hindex haddress hcolumn
          rw [htxid, hindex, haddress, hcolumn]
          rfl
        · rw [not_or, not_not] at houtpoint
          refine ⟨houtpoint.left, Int.not_lt.mp houtpoint.right, ?_⟩
          have hlt : 0 < amount := by
            omega
          simp [isValidOutput, hlt, hvalid]
        · rw [← Dict.contains_iff]
          exact hnew
        · unfold UTXOSet.add at hadd
          unfold UTXOSet.exists_ at hnew
          rw [if_neg hnew] at hadd
          exact (Except.ok.inj hadd).symm
      · cases h
    · cases h
  · intro h
    rcases h with ⟨⟨⟨txid, outputIndex⟩, ⟨amount, address⟩⟩, hrow, hcached, hnew, hout⟩
    have houtput := hcached.output
    simp only [isValidOutput, Bool.and_eq_true, decide_eq_true_eq] at houtput
    have hindex := hcached.outputIndex
    simp only at hindex
    have hoverwrite : ¬ utxos.contains (txid, outputIndex) = true := by
      rw [Dict.contains_iff]
      exact hnew
    subst hrow
    unfold readUtxoRow utxoRow
    simp only
    rw [if_neg (by rw [not_or, not_not]; exact ⟨hcached.recorded, by omega⟩),
      if_neg (by simp [houtput.right]), if_neg (by unfold UTXOSet.exists_; exact hoverwrite)]
    apply bind_eq_ok_iff.mpr
    refine ⟨amount, decodeAmountColumn_eq_ok_iff.mpr ⟨by omega, rfl⟩, ?_⟩
    unfold UTXOSet.add
    rw [if_neg hoverwrite, hout]

theorem readUtxoRows_eq_ok_iff {seen : Finset Str} (rows : List UtxoRow) :
    forall (utxos out : UTXOSet),
      rows.foldlM (readUtxoRow seen) utxos = .ok out <->
        exists items, rows = items.map utxoRow ∧
          (forall item, item ∈ items -> CachedOutput seen item) ∧
          out.items = utxos.items ++ items := by
  induction rows with
  | nil =>
      intro utxos out
      constructor
      · intro h
        refine ⟨[], rfl, ?_, ?_⟩
        · intro item hitem
          cases hitem
        · rw [← Except.ok.inj h, List.append_nil]
      · intro h
        rcases h with ⟨items, hrows, _, hout⟩
        have hnil : items = [] := List.map_eq_nil_iff.mp hrows.symm
        rw [hnil, List.append_nil] at hout
        exact congrArg Except.ok (Dict.ext_items hout.symm)
  | cons row rest ih =>
      intro utxos out
      rw [foldlM_cons_eq_ok_iff]
      simp only [readUtxoRow_eq_ok_iff, ih]
      constructor
      · intro h
        rcases h with ⟨_, ⟨item, hrow, hcached, hnew, rfl⟩, items, hrest, hall, hout⟩
        refine ⟨item :: items, by rw [hrow, hrest, List.map_cons],
          List.forall_mem_cons.mpr ⟨hcached, hall⟩, ?_⟩
        rw [hout, Dict.items_set_of_not_mem _ hnew, List.append_assoc]
        rfl
      · intro h
        rcases h with ⟨items, hrows, hall, hout⟩
        cases items with
        | nil => cases hrows
        | cons item others =>
            rw [List.map_cons] at hrows
            rcases List.cons.inj hrows with ⟨hrow, hrest⟩
            rcases List.forall_mem_cons.mp hall with ⟨hcached, hothers⟩
            have hnew : item.1 ∉ utxos.keys := by
              have hnodup := out.nodupKeys
              rw [hout, List.map_append, List.nodup_append] at hnodup
              intro hmem
              exact hnodup.right.right item.1 hmem item.1 (by simp) rfl
            refine ⟨_, ⟨item, hrow, hcached, hnew, rfl⟩, others, hrest, hothers, ?_⟩
            rw [hout, Dict.items_set_of_not_mem _ hnew, List.append_assoc]
            rfl

omit [Crypto] in
theorem utxoRow_fetchable {item : OutPoint × TxOutput} {value : SqlValue}
    (h : value ∈ (utxoRow item).columns) : value.isInvalid = false := by
  simp only [UtxoRow.columns, utxoRow, List.mem_cons, List.not_mem_nil, or_false] at h
  rcases h with h | h | h | h <;> rw [h] <;> rfl

/-- The cached rows hold exactly a state: its identifiers and its outputs, each
once and in any order. -/
structure CachesState (db : Database) (state : ChainState) : Prop where
  seen : exists txids : List Str, db.seenTransactions = txids.map SqlValue.text ∧
    txids.Nodup ∧ txids.toFinset = state.seenTxids
  utxos : exists items : List (OutPoint × TxOutput),
    db.utxos = items.map utxoRow ∧ items.Perm state.utxoSet.items
  hashes : forall txid, txid ∈ state.seenTxids -> isHash txid = true
  outputs : forall item, item ∈ state.utxoSet.items -> CachedOutput state.seenTxids item

theorem readChainstateRows_iff (db : Database) (state : ChainState) :
    (exists cached, readChainstateRows db = .ok cached ∧
        cached.seenTxids = state.seenTxids ∧
        cached.utxoSet.sameMap state.utxoSet = true) <->
      CachesState db state := by
  unfold readChainstateRows Database.selectSeenTransactions Database.selectUtxos
  simp only [bind_eq_ok_iff, fetchAll_eq_ok_iff, readSeenRows_eq_ok_iff,
    readUtxoRows_eq_ok_iff]
  constructor
  · intro h
    rcases h with ⟨cached, ⟨rows, ⟨hrows, _⟩, seen, ⟨txids, htxids, hhashes, hnodup, _, hseen⟩,
      utxoRows, ⟨hutxoRows, _⟩, utxos, ⟨items, hitems, hcached, hutxos⟩, heq⟩, hsame, hmap⟩
    cases heq
    simp only at hsame hmap
    have hseen' : txids.toFinset = state.seenTxids := by
      rw [← hsame, hseen]
      simp
    have hutxos' : utxos.items = items := hutxos
    have hperm : items.Perm state.utxoSet.items := by
      rw [← hutxos']
      exact Dict.perm_of_get?_eq ((Dict.sameMap_iff _ _).mp hmap)
    subst hrows
    subst hutxoRows
    refine ⟨⟨txids, htxids, hnodup, hseen'⟩, ⟨items, hitems, hperm⟩, ?_, ?_⟩
    · intro txid hmem
      rw [← hseen', List.mem_toFinset] at hmem
      exact hhashes txid hmem
    · intro item hitem
      rw [← hsame]
      exact hcached item (hperm.mem_iff.mpr hitem)
  · intro h
    rcases h.seen with ⟨txids, htxids, hnodup, hseen⟩
    rcases h.utxos with ⟨items, hitems, hperm⟩
    have hkeys : (items.map Prod.fst).Nodup :=
      (hperm.map Prod.fst).nodup_iff.mpr state.utxoSet.nodupKeys
    have hmap : (Dict.mk items hkeys).sameMap state.utxoSet = true := by
      rw [Dict.sameMap_iff]
      apply Dict.get?_congr_of_mem_items
      intro k v
      exact hperm.mem_iff
    refine ⟨⟨Dict.mk items hkeys, txids.toFinset⟩, ⟨_, ⟨rfl, ?_⟩, txids.toFinset,
      ⟨txids, htxids, ?_, hnodup, ?_, ?_⟩, _, ⟨rfl, ?_⟩, Dict.mk items hkeys,
      ⟨items, hitems, ?_, rfl⟩, rfl⟩, hseen, hmap⟩
    · intro row hrow value hvalue
      rw [htxids] at hrow
      rcases List.mem_map.mp hrow with ⟨txid, _, heq⟩
      rw [List.mem_singleton.mp hvalue, ← heq]
      rfl
    · intro txid hmem
      apply h.hashes
      rw [← hseen, List.mem_toFinset]
      exact hmem
    · intro txid _ hmem
      simp at hmem
    · simp
    · intro row hrow value hvalue
      rw [hitems] at hrow
      rcases List.mem_map.mp hrow with ⟨item, _, heq⟩
      rw [← heq] at hvalue
      exact utxoRow_fetchable hvalue
    · intro item hitem
      rw [hseen]
      exact h.outputs item (hperm.mem_iff.mp hitem)

/-!
## The pool
-/

theorem encodeMempoolRow_eq_ok_iff (position : Int) (transaction : Transaction)
    (row : MempoolRow) :
    encodeMempoolRow position transaction = .ok row <->
      row = mempoolRow position transaction ∧ Codec.Storable transaction := by
  unfold encodeMempoolRow mempoolRow
  simp only [bind_eq_ok_iff, Codec.encodeTransaction_eq_ok_iff]
  constructor
  · intro h
    rcases h with ⟨data, ⟨hdata, hstorable⟩, heq⟩
    rw [← Except.ok.inj heq, hdata]
    exact ⟨rfl, hstorable⟩
  · intro h
    exact ⟨_, ⟨rfl, h.right⟩, congrArg Except.ok h.left.symm⟩

theorem encodeMempoolRows_eq_ok_iff {mempool : Mempool} {rows : List MempoolRow} :
    encodeMempoolRows mempool = .ok rows <->
      rows = numbered mempoolRow 0 mempool.getTransactions ∧
        (forall transaction, transaction ∈ mempool.getTransactions ->
          Codec.Storable transaction) ∧
        (mempool.getTransactions.length : Int) ≤ mempool.limits.maxTransactions ∧
        (((mempool.getTransactions.map (fun t => t.encoding.length)).sum : Nat) : Int) ≤
          mempool.limits.maxBytes := by
  have hlengths := numbered_length mempoolRow mempool.getTransactions 0
  have hbytes : (numbered mempoolRow 0 mempool.getTransactions).map dataLength =
      mempool.getTransactions.map (fun t => t.encoding.length) := by
    apply numbered_map
    intro position transaction
    rfl
  unfold encodeMempoolRows
  simp only [bind_eq_ok_iff, require_eq_ok_iff,
    mapNumbered_build_eq_ok_iff encodeMempoolRow_eq_ok_iff]
  constructor
  · intro h
    rcases h with ⟨other, ⟨hother, hstorable⟩, _, hlimits, heq⟩
    subst hother
    rw [hlengths, hbytes] at hlimits
    exact ⟨(Except.ok.inj heq).symm, hstorable, hlimits⟩
  · intro h
    rcases h with ⟨hrows, hstorable, hlimits⟩
    refine ⟨_, ⟨rfl, hstorable⟩, (), ?_, congrArg Except.ok hrows.symm⟩
    rw [hlengths, hbytes]
    exact hlimits

theorem readMempoolRow_eq_ok_iff {loop out : Int × Mempool} {row : MempoolRow} :
    readMempoolRow loop row = .ok out <->
      exists transaction, row = mempoolRow loop.1 transaction ∧
        Codec.Storable transaction ∧
        loop.2.addTransaction transaction = (true, out.2) ∧ out.1 = loop.1 + 1 := by
  unfold readMempoolRow mempoolRow
  simp only [bind_eq_ok_iff, require_eq_ok_iff, payload_eq_ok_iff,
    Codec.decodeTransaction_eq_ok_iff]
  constructor
  · intro h
    rcases h with ⟨_, hposition, data, hpayload, transaction, ⟨hdata, hstorable⟩, _,
      ⟨htxid, _⟩, _, hadded, heq⟩
    have hout : (loop.1 + 1, (loop.2.addTransaction transaction).2) = out :=
      Except.ok.inj heq
    refine ⟨transaction, ?_, hstorable, ?_, ?_⟩
    · cases row
      simp only at hposition hpayload htxid
      rw [hposition, hpayload, htxid, hdata]
    · rw [← hout, ← hadded]
    · rw [← hout]
  · intro h
    rcases h with ⟨transaction, hrow, hstorable, hadded, hposition⟩
    subst hrow
    refine ⟨(), rfl, _, rfl, transaction, ⟨rfl, hstorable⟩, (),
      ⟨rfl, sha256Hex_isHash _⟩, (), by rw [hadded], ?_⟩
    rw [hadded, ← hposition]
    rfl

theorem readMempoolLoop_eq_ok_iff (rows : List MempoolRow) :
    forall (loop out : Int × Mempool),
      rows.foldlM readMempoolRow loop = .ok out <->
        exists transactions, rows = numbered mempoolRow loop.1 transactions ∧
          (forall transaction, transaction ∈ transactions ->
            Codec.Storable transaction) ∧
          Mempool.AdmitsAll loop.2 transactions out.2 ∧
          out.1 = loop.1 + transactions.length := by
  induction rows with
  | nil =>
      intro loop out
      constructor
      · intro h
        have heq : loop = out := Except.ok.inj h
        subst heq
        refine ⟨[], rfl, ?_, Mempool.AdmitsAll.nil _, ?_⟩
        · intro transaction hmem
          cases hmem
        · simp
      · intro h
        rcases h with ⟨transactions, hrows, _, hadmits, hposition⟩
        cases transactions with
        | cons transaction rest => cases hrows
        | nil =>
            have heq : loop = out :=
              Prod.ext (by simpa using hposition.symm) hadmits.nil_inv.symm
            rw [heq]
            rfl
  | cons row rest ih =>
      intro loop out
      rw [foldlM_cons_eq_ok_iff]
      simp only [readMempoolRow_eq_ok_iff, ih]
      constructor
      · intro h
        rcases h with ⟨middle, ⟨transaction, hrow, hstorable, hadded, hposition⟩, others,
          hrest, hothers, hadmits, hfinal⟩
        refine ⟨transaction :: others, ?_, List.forall_mem_cons.mpr ⟨hstorable, hothers⟩,
          Mempool.AdmitsAll.cons hadded hadmits, ?_⟩
        · rw [numbered, hrow, hrest, hposition]
        · rw [hfinal, hposition, List.length_cons]
          omega
      · intro h
        rcases h with ⟨transactions, hrows, hall, hadmits, hfinal⟩
        cases transactions with
        | nil => cases hrows
        | cons transaction others =>
            rcases hadmits.cons_inv with ⟨middle, hadded, hadmits⟩
            rw [numbered] at hrows
            rcases List.cons.inj hrows with ⟨hrow, hrest⟩
            rcases List.forall_mem_cons.mp hall with ⟨hstorable, hothers⟩
            refine ⟨(loop.1 + 1, middle), ⟨transaction, hrow, hstorable, hadded, rfl⟩, others,
              hrest, hothers, hadmits, ?_⟩
            rw [hfinal, List.length_cons]
            simp only
            omega

theorem mempoolRow_fetchable {position : Int} {transaction : Transaction}
    {value : SqlValue} (h : value ∈ (mempoolRow position transaction).columns) :
    value.isInvalid = false := by
  simp only [MempoolRow.columns, mempoolRow, List.mem_cons, List.not_mem_nil, or_false] at h
  rcases h with h | h | h <;> rw [h] <;> rfl

omit [Crypto] in
theorem create_eq_fresh {utxoSet : UTXOSet} {seenTxids : Finset Str}
    (limits : MempoolLimits) :
    Mempool.create (some utxoSet) (some seenTxids) limits.maxTransactions limits.maxBytes =
      .ok (Mempool.fresh limits utxoSet seenTxids) := by
  unfold Mempool.create checkLimits
  rw [dif_pos limits.maxTransactions_pos, dif_pos limits.maxBytes_pos]
  rfl

omit [Crypto] in
theorem create_limits {utxoSet : UTXOSet} {seenTxids : Finset Str}
    {maxTransactions maxBytes : Int} {pool : Mempool}
    (h : Mempool.create (some utxoSet) (some seenTxids) maxTransactions maxBytes =
      .ok pool) :
    exists limits : MempoolLimits, limits.maxTransactions = maxTransactions ∧
      limits.maxBytes = maxBytes ∧ pool = Mempool.fresh limits utxoSet seenTxids := by
  unfold Mempool.create checkLimits at h
  rcases bind_eq_ok_iff.mp h with ⟨limits, hlimits, hpool⟩
  split at hlimits
  · split at hlimits
    · have heq := Except.ok.inj hlimits
      subst heq
      exact ⟨_, rfl, rfl, (Except.ok.inj hpool).symm⟩
    · cases hlimits
  · cases hlimits

/-- The stored pool is any coherent pool over the state, with its limits and
its digest in the metadata. -/
theorem readMempoolRows_eq_ok_iff (db : Database) (state : ChainState)
    (metadata : Metadata) (pool : Mempool) :
    readMempoolRows db state metadata = .ok pool <->
      (orderBy MempoolRow.position db.mempool =
          numbered mempoolRow 0 pool.getTransactions ∧
        forall transaction, transaction ∈ pool.getTransactions ->
          Codec.Storable transaction) ∧
      (pool.Coherent ∧ pool.confirmedUtxos = state.utxoSet ∧
        pool.seenTxids = state.seenTxids) ∧
      (pool.limits.maxTransactions = metadata.maxTransactions ∧
        pool.limits.maxBytes = metadata.maxBytes) ∧
      txidsDigest (pool.getTransactions.map Transaction.txid) = metadata.mempoolDigest := by
  unfold readMempoolRows Database.selectMempool
  simp only [bind_eq_ok_iff, require_eq_ok_iff, fetchAll_eq_ok_iff,
    readMempoolLoop_eq_ok_iff]
  constructor
  · intro h
    rcases h with ⟨start, hstart, rows, ⟨hrows, _⟩, out,
      ⟨transactions, hnumbered, hstorable, hadmits, _⟩, _, hdigest, heq⟩
    have hpool : out.2 = pool := Except.ok.inj heq
    rcases create_limits hstart with ⟨limits, hcount, hbytes, hfresh⟩
    rcases hadmits.spec with ⟨hcoherent, hbase, htransactions⟩
    rw [hpool] at hcoherent hbase htransactions hdigest
    simp only [hfresh] at hcoherent hbase htransactions
    have htransactions' : pool.getTransactions = transactions := htransactions
    rw [htransactions']
    rw [htransactions'] at hdigest
    subst hrows
    refine ⟨⟨hnumbered, hstorable⟩, ⟨hcoherent (Mempool.fresh_coherent _ _ _),
      hbase.confirmedUtxos, hbase.seenTxids⟩, ⟨?_, ?_⟩, hdigest⟩
    · rw [hbase.limits]
      exact hcount
    · rw [hbase.limits]
      exact hbytes
  · intro h
    rcases h with ⟨⟨hrows, hstorable⟩, ⟨hcoherent, hutxos, hseen⟩, ⟨hcount, hbytes⟩, hdigest⟩
    have hadmits := hcoherent.admitsAll
    rw [hutxos, hseen] at hadmits
    refine ⟨Mempool.fresh pool.limits state.utxoSet state.seenTxids, ?_, _, ⟨rfl, ?_⟩,
      ((pool.getTransactions.length : Int), pool),
      ⟨pool.getTransactions, hrows, hstorable, hadmits, by simp⟩, (), hdigest, rfl⟩
    · rw [← hcount, ← hbytes]
      exact create_eq_fresh pool.limits
    · intro row hrow value hvalue
      rw [hrows] at hrow
      rcases mem_numbered hrow with ⟨i, transaction, _, _, _, heq⟩
      rw [heq] at hvalue
      exact mempoolRow_fetchable hvalue

/-!
## Metadata
-/

omit [Crypto] in
/-- The row that holds a metadata record. -/
def metadataColumns (metadata : Metadata) : MetadataRow :=
  { id := 1
    schemaVersion := .integer SCHEMA_VERSION
    genesisHash := .text GENESIS_HASH
    tipHash := .text metadata.tipHash
    height := .integer metadata.height
    revision := .integer metadata.revision
    mempoolDigest := .text metadata.mempoolDigest
    mempoolMaxTransactions := .text (Nat.toDigits 10 metadata.maxTransactions.toNat)
    mempoolMaxBytes := .text (Nat.toDigits 10 metadata.maxBytes.toNat) }

/-- What a metadata record must satisfy to be read back. -/
structure ReadableMetadata (metadata : Metadata) : Prop where
  tipHash : isHash metadata.tipHash = true
  mempoolDigest : isHash metadata.mempoolDigest = true
  height : 0 ≤ metadata.height
  revision : metadata.height ≤ metadata.revision
  maxTransactions : 1 ≤ metadata.maxTransactions
  maxBytes : 1 ≤ metadata.maxBytes

omit [Crypto] in
theorem metadataRow_eq_ok_iff {height revision maxTransactions maxBytes : Int}
    {tipHash mempoolDigest : Str} {row : MetadataRow} :
    metadataRow height tipHash revision maxTransactions maxBytes mempoolDigest = .ok row <->
      row = metadataColumns
        ⟨height, tipHash, revision, maxTransactions, maxBytes, mempoolDigest⟩ ∧
        ((0 ≤ height ∧ height ≤ MAX_SQLITE_INTEGER) ∧
          0 ≤ revision ∧ revision ≤ MAX_SQLITE_INTEGER) ∧
        (isHash tipHash = true ∧ isHash mempoolDigest = true) ∧
        1 ≤ maxTransactions ∧ 1 ≤ maxBytes := by
  unfold metadataRow metadataColumns
  simp only [bind_eq_ok_iff, require_eq_ok_iff, Codec.encodeAmount_eq_ok_iff]
  constructor
  · intro h
    rcases h with ⟨_, hbounds, _, hhashes, _, ⟨hcount, rfl⟩, _, ⟨hbytes, rfl⟩, heq⟩
    exact ⟨(Except.ok.inj heq).symm, hbounds, hhashes, hcount, hbytes⟩
  · intro h
    rcases h with ⟨hrow, hbounds, hhashes, hcount, hbytes⟩
    exact ⟨(), hbounds, (), hhashes, _, ⟨hcount, rfl⟩, _, ⟨hbytes, rfl⟩,
      congrArg Except.ok hrow.symm⟩

omit [Crypto] in
theorem column_eq_ok_iff {alpha : Type} {value : Option alpha} {message : String}
    {a : alpha} : column value message = .ok a <-> value = some a := by
  cases value with
  | none => simp [column]
  | some b => simp [column]

omit [Crypto] in
theorem integerColumn_eq_some_iff {value : SqlValue} {n : Int} :
    integerColumn value = some n <-> value = .integer n := by
  cases value <;> simp [integerColumn]

omit [Crypto] in
theorem hashColumn_eq_some_iff {value : SqlValue} {text : Str} :
    hashColumn value = some text <-> value = .text text ∧ isHash text = true := by
  cases value with
  | text other =>
      simp only [hashColumn, SqlValue.text.injEq]
      split
      · rename_i h
        simp only [Option.some.injEq]
        constructor
        · intro heq
          rw [← heq]
          exact ⟨rfl, h⟩
        · intro heq
          exact heq.left
      · rename_i h
        simp only [reduceCtorEq, false_iff, not_and]
        intro heq
        rw [heq] at h
        exact h
  | null => simp [hashColumn]
  | integer _ => simp [hashColumn]
  | real _ => simp [hashColumn]
  | invalidText _ => simp [hashColumn]
  | blob _ => simp [hashColumn]

omit [Crypto] in
theorem singleton_eq_some_iff {rows : List MetadataRow} {row : MetadataRow} :
    (if rows.length = 1 then rows.head? else none) = some row <-> rows = [row] := by
  cases rows with
  | nil => simp
  | cons first rest =>
      cases rest with
      | nil => simp
      | cons second others => simp

omit [Crypto] in
theorem readMetadata_eq_ok_iff (db : Database) (metadata : Metadata) :
    readMetadata db = .ok metadata <->
      db.metadata = [metadataColumns metadata] ∧ ReadableMetadata metadata := by
  unfold readMetadata Database.selectMetadata
  simp only [bind_eq_ok_iff, require_eq_ok_iff, fetchAll_eq_ok_iff, column_eq_ok_iff,
    integerColumn_eq_some_iff, hashColumn_eq_some_iff, singleton_eq_some_iff,
    decodeAmountColumn_eq_ok_iff]
  constructor
  · intro h
    rcases h with ⟨rows, ⟨hrows, _⟩, row, hrow, version, hversion, _, _, _, hsupported, _,
      ⟨hid, hgenesis⟩, tipHash, ⟨htip, htipHash⟩, digest, ⟨hdigest, hdigestHash⟩, height,
      hheight, revision, hrevision, _, ⟨hnonneg, hle⟩, count, ⟨hcountPos, hcount⟩, bytes,
      ⟨hbytesPos, hbytes⟩, heq⟩
    cases heq
    refine ⟨?_, htipHash, hdigestHash, hnonneg, hle, hcountPos, hbytesPos⟩
    rw [← hrows, hrow]
    cases row
    simp only at hversion hid hgenesis htip hdigest hheight hrevision hcount hbytes
    rw [hversion, hsupported, hid, hgenesis, htip, hdigest, hheight, hrevision, hcount,
      hbytes]
    rfl
  · intro h
    rcases h with ⟨hrows, hreadable⟩
    refine ⟨_, ⟨rfl, ?_⟩, _, hrows, SCHEMA_VERSION, rfl, (), by decide, (), rfl, (),
      ⟨rfl, rfl⟩, _, ⟨rfl, hreadable.tipHash⟩, _, ⟨rfl, hreadable.mempoolDigest⟩, _, rfl, _,
      rfl, (), ⟨hreadable.height, hreadable.revision⟩, _, ⟨hreadable.maxTransactions, rfl⟩, _,
      ⟨hreadable.maxBytes, rfl⟩, rfl⟩
    intro row hrow value hvalue
    rw [hrows, List.mem_singleton] at hrow
    rw [hrow] at hvalue
    simp only [MetadataRow.columns, metadataColumns, List.mem_cons, List.not_mem_nil,
      or_false] at hvalue
    rcases hvalue with h | h | h | h | h | h | h | h | h <;> rw [h] <;> rfl

end ChainStore

end PyChain
