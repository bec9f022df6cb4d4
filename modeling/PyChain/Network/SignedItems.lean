import PyChain.Network.WireCodec

/-!
# Signed items travel unchanged

Packing encodes and spells in base64; unpacking checks sizes, spelling and
nesting before it decodes.  An item that packs is unpacked to itself under the
same limit, and what is unpacked can be encoded.
-/

namespace PyChain

open Foundation

namespace Network

/-!
## Nesting of encodings
-/

mutual

theorem nesting_sortKeys_le : forall value : Json, nesting (Json.sortKeys value) ≤ nesting value
  | .null => by
      rw [Json.sortKeys]
  | .bool _ => by
      rw [Json.sortKeys]
  | .int _ => by
      rw [Json.sortKeys]
  | .str _ => by
      rw [Json.sortKeys]
  | .arr items => by
      have hitems := itemsNesting_sortItems_le items
      rw [Json.sortKeys, nesting, nesting]
      omega
  | .obj fields => by
      have hfields := nesting_sortFields_le fields
      have hsorted : fieldsNesting ((Json.sortFields fields).insertionSort Json.fieldLe) ≤
          fieldsNesting fields := by
        apply fieldsNesting_le
        intro field hfield
        exact hfields field ((List.perm_insertionSort Json.fieldLe _).mem_iff.mp hfield)
      rw [Json.sortKeys, nesting, nesting]
      omega

theorem itemsNesting_sortItems_le : forall items : List Json,
    itemsNesting (Json.sortItems items) ≤ itemsNesting items
  | [] => by
      rw [Json.sortItems]
  | item :: items => by
      have hitem := nesting_sortKeys_le item
      have hitems := itemsNesting_sortItems_le items
      rw [Json.sortItems, itemsNesting, itemsNesting]
      omega

theorem nesting_sortFields_le : forall (fields : List (Str × Json)) (field : Str × Json),
    field ∈ Json.sortFields fields -> nesting field.2 ≤ fieldsNesting fields
  | [], field, hfield => by
      rw [Json.sortFields] at hfield
      cases hfield
  | (key, value) :: fields, field, hfield => by
      rw [Json.sortFields] at hfield
      rw [fieldsNesting]
      rcases List.mem_cons.mp hfield with hhead | htail
      · have hvalue := nesting_sortKeys_le value
        rw [hhead]
        change nesting (Json.sortKeys value) ≤ _
        omega
      · have hfields := nesting_sortFields_le fields field htail
        omega

end

theorem nesting_transaction (transaction : Transaction) :
    nesting (transaction.toDict true) ≤ 3 := by
  have hinputs : itemsNesting
      (transaction.inputs.map (fun input => input.toDict true)) ≤ 1 := by
    apply itemsNesting_le
    intro item hitem
    rcases List.mem_map.mp hitem with ⟨input, _, rfl⟩
    simp [TxInput.toDict, nesting, fieldsNesting]
  have houtputs : itemsNesting (transaction.outputs.map TxOutput.toDict) ≤ 1 := by
    apply itemsNesting_le
    intro item hitem
    rcases List.mem_map.mp hitem with ⟨output, _, rfl⟩
    simp [TxOutput.toDict, nesting, fieldsNesting]
  unfold Transaction.toDict
  simp only [nesting, fieldsNesting]
  omega

theorem nesting_block [Crypto] (block : Block) : nesting block.toDict ≤ 5 := by
  have htransactions : itemsNesting
      (block.transactions.map (fun transaction => transaction.toDict true)) ≤ 3 := by
    apply itemsNesting_le
    intro item hitem
    rcases List.mem_map.mp hitem with ⟨transaction, _, rfl⟩
    exact nesting_transaction transaction
  unfold Block.toDict BlockHeader.toDict
  simp only [nesting, fieldsNesting]
  omega

theorem checkDepth_of_nesting {value : Json} (h : nesting value ≤ MAX_JSON_DEPTH) :
    checkDepth (Json.serialize value) = .ok () :=
  checkDepth_serialize ((nesting_sortKeys_le value).trans h)

/-!
## Packing and unpacking
-/

theorem signedItem_eq_ok_iff {alpha : Type} {x : Except PyError alpha} {a : alpha} :
    signedItem x = .ok a <-> x = .ok a := by
  cases x with
  | ok b => exact Iff.rfl
  | error e =>
      constructor
      · intro h
        unfold signedItem at h
        split at h
        · rename_i heq
          cases heq
        · cases h
        · cases h
      · intro h
        cases h

section Items

variable {alpha : Type} {encoder : alpha -> Except PyError Bytes}
  {decoder : Bytes -> Except PyError alpha}

theorem pack_eq_ok_iff {value : alpha} {maxItemBytes : Nat} {text : Str} :
    pack value encoder maxItemBytes = .ok text <->
      0 < maxItemBytes ∧ exists data, encoder value = .ok data ∧
        data.length ≤ maxItemBytes ∧ text = Base64.encode data := by
  unfold pack
  simp only [bind_eq_ok_iff, limit_eq_ok_iff, signedItem_eq_ok_iff, require_eq_ok_iff]
  constructor
  · rintro ⟨_, hpos, data, hdata, _, hlength, htext⟩
    exact ⟨hpos, data, hdata, hlength, (Except.ok.inj htext).symm⟩
  · rintro ⟨hpos, data, hdata, hlength, rfl⟩
    exact ⟨(), hpos, data, hdata, (), hlength, rfl⟩

theorem unpack_eq_ok_iff {text : Str} {maxItemBytes : Nat} {value : alpha} :
    unpack text decoder maxItemBytes = .ok value <->
      0 < maxItemBytes ∧ text ≠ [] ∧ text.length ≤ 4 * ((maxItemBytes + 2) / 3) ∧
        exists data, Base64.decode text = some data ∧ data.length ≤ maxItemBytes ∧
          Base64.encode data = text ∧ checkDepth data = .ok () ∧ decoder data = .ok value := by
  unfold unpack
  cases hdecode : Base64.decode text with
  | none =>
      simp only [bind_eq_ok_iff]
      constructor
      · rintro ⟨_, _, _, _, _, _, h⟩
        cases h
      · rintro ⟨_, _, _, data, h, _⟩
        cases h
  | some data =>
      simp only [bind_eq_ok_iff, limit_eq_ok_iff, signedItem_eq_ok_iff, require_eq_ok_iff]
      constructor
      · rintro ⟨_, hpos, _, hne, _, hlength, _, hdata, _, hspelling, _, hdepth, hvalue⟩
        exact ⟨hpos, hne, hlength, data, rfl, hdata, hspelling, hdepth, hvalue⟩
      · rintro ⟨hpos, hne, hlength, other, hother, hdata, hspelling, hdepth, hvalue⟩
        cases hother
        exact ⟨(), hpos, (), hne, (), hlength, (), hdata, (), hspelling, (), hdepth, hvalue⟩

theorem isItem_of_pack {value : alpha} {maxItemBytes : Nat} {text : Str}
    (hne : encoder value ≠ .ok []) (h : pack value encoder maxItemBytes = .ok text) :
    isItem text = true := by
  rcases pack_eq_ok_iff.mp h with ⟨_, data, hdata, _, rfl⟩
  have hnil : data ≠ [] := by
    intro hnil
    rw [hnil] at hdata
    exact hne hdata
  unfold isItem
  rw [Bool.and_eq_true]
  refine ⟨by simpa using Base64.encode_ne_nil hnil, ?_⟩
  rw [List.all_eq_true]
  intro c hc
  exact decide_eq_true (Base64.encode_ascii data c hc)

theorem unpack_pack {value : alpha} {maxItemBytes : Nat} {text : Str}
    (hcodec : forall data, encoder value = .ok data ->
      decoder data = .ok value ∧ checkDepth data = .ok () ∧ data ≠ [])
    (h : pack value encoder maxItemBytes = .ok text) :
    unpack text decoder maxItemBytes = .ok value := by
  rcases pack_eq_ok_iff.mp h with ⟨hpos, data, hdata, hlength, rfl⟩
  rcases hcodec data hdata with ⟨hdecode, hdepth, hnil⟩
  refine unpack_eq_ok_iff.mpr ⟨hpos, Base64.encode_ne_nil hnil, ?_, data,
    Base64.decode_encode data, hlength, rfl, hdepth, hdecode⟩
  rw [Base64.encode_length]
  omega

theorem pack_exceeds {value : alpha} {maxItemBytes : Nat} {data : Bytes}
    (hpos : 0 < maxItemBytes) (hdata : encoder value = .ok data)
    (hlength : maxItemBytes < data.length) :
    pack value encoder maxItemBytes =
      .error (policyLimitError "signed item exceeds byte limit") := by
  have hlimit : limit maxItemBytes "max_item_bytes" = .ok () := limit_eq_ok_iff.mpr hpos
  have hitem : signedItem (encoder value) = .ok data := signedItem_eq_ok_iff.mpr hdata
  have hrefused : require (data.length ≤ maxItemBytes)
      (policyLimitError "signed item exceeds byte limit") =
        .error (policyLimitError "signed item exceeds byte limit") :=
    require_eq_error_iff.mpr ⟨by omega, rfl⟩
  unfold pack
  simp only [hlimit, hitem, hrefused, bind, Except.bind]

/-- What is packed and what is unpacked correspond, up to the exact size limit. -/
structure RoundTrips (encoder : alpha -> Except PyError Bytes)
    (packItem : alpha -> Nat -> Except PyError Str)
    (unpackItem : Str -> Nat -> Except PyError alpha) : Prop where
  fits : forall (value : alpha) (data : Bytes) (maxItemBytes : Nat), 0 < maxItemBytes ->
    encoder value = .ok data -> data.length ≤ maxItemBytes ->
    exists text, packItem value maxItemBytes = .ok text ∧
      unpackItem text maxItemBytes = .ok value
  exceeds : forall (value : alpha) (data : Bytes) (maxItemBytes : Nat), 0 < maxItemBytes ->
    encoder value = .ok data -> maxItemBytes < data.length ->
    packItem value maxItemBytes =
      .error (policyLimitError "signed item exceeds byte limit")
  canonical : forall (text : Str) (maxItemBytes : Nat) (value : alpha),
    unpackItem text maxItemBytes = .ok value ->
    packItem value maxItemBytes = .ok text ∧
      exists data, Base64.decode text = some data ∧ data.length ≤ maxItemBytes

theorem roundTrips_of_codec
    (hdecodes : forall value data, encoder value = .ok data ->
      decoder data = .ok value ∧ checkDepth data = .ok () ∧ data ≠ [])
    (hencodes : forall data value, decoder data = .ok value -> encoder value = .ok data) :
    RoundTrips encoder (fun value maxItemBytes => pack value encoder maxItemBytes)
      (fun text maxItemBytes => unpack text decoder maxItemBytes) where
  fits := by
    intro value data maxItemBytes hpos hdata hlength
    have hpack : pack value encoder maxItemBytes = .ok (Base64.encode data) :=
      pack_eq_ok_iff.mpr ⟨hpos, data, hdata, hlength, rfl⟩
    exact ⟨_, hpack, unpack_pack (hdecodes value) hpack⟩
  exceeds := by
    intro value data maxItemBytes hpos hdata hlength
    exact pack_exceeds hpos hdata hlength
  canonical := by
    intro text maxItemBytes value h
    rcases unpack_eq_ok_iff.mp h with
      ⟨hpos, _, _, data, hdecode, hlength, hspelling, _, hvalue⟩
    exact ⟨pack_eq_ok_iff.mpr ⟨hpos, data, hencodes data value hvalue, hlength,
      hspelling.symm⟩, data, hdecode, hlength⟩

end Items

/-!
## Transactions and blocks
-/

section Ledger

variable [Crypto] {maxItemBytes : Nat} {text : Str}

theorem packTransaction_eq_ok_iff {transaction : Transaction} :
    packTransaction transaction maxItemBytes = .ok text <->
      0 < maxItemBytes ∧ Codec.Storable transaction ∧
        transaction.encoding.length ≤ maxItemBytes ∧
        text = Base64.encode transaction.encoding := by
  unfold packTransaction
  rw [pack_eq_ok_iff]
  constructor
  · rintro ⟨hpos, data, hdata, hlength, htext⟩
    rcases Codec.encodeTransaction_eq_ok_iff.mp hdata with ⟨rfl, hstorable⟩
    exact ⟨hpos, hstorable, hlength, htext⟩
  · rintro ⟨hpos, hstorable, hlength, htext⟩
    exact ⟨hpos, _, Codec.encodeTransaction_eq_ok_iff.mpr ⟨rfl, hstorable⟩, hlength, htext⟩

theorem packBlock_eq_ok_iff {block : Block} :
    packBlock block maxItemBytes = .ok text <->
      0 < maxItemBytes ∧ Codec.StorableBlock block ∧
        (Json.serialize block.toDict).length ≤ maxItemBytes ∧
        text = Base64.encode (Json.serialize block.toDict) := by
  unfold packBlock
  rw [pack_eq_ok_iff]
  constructor
  · rintro ⟨hpos, data, hdata, hlength, htext⟩
    rcases Codec.encodeBlock_eq_ok_iff.mp hdata with ⟨rfl, hstorable⟩
    exact ⟨hpos, hstorable, hlength, htext⟩
  · rintro ⟨hpos, hstorable, hlength, htext⟩
    exact ⟨hpos, _, Codec.encodeBlock_eq_ok_iff.mpr ⟨rfl, hstorable⟩, hlength, htext⟩

theorem transaction_decodes {transaction : Transaction} {data : Bytes}
    (h : Codec.encodeTransaction transaction = .ok data) :
    Codec.decodeTransaction data = .ok transaction ∧ checkDepth data = .ok () ∧
      data ≠ [] := by
  rcases Codec.encodeTransaction_eq_ok_iff.mp h with ⟨rfl, hstorable⟩
  refine ⟨Codec.decodeTransaction_eq_ok_iff.mpr ⟨rfl, hstorable⟩, ?_, Json.serialize_ne_nil _⟩
  exact checkDepth_of_nesting ((nesting_transaction transaction).trans (by decide))

theorem block_decodes {block : Block} {data : Bytes}
    (h : Codec.encodeBlock block = .ok data) :
    Codec.decodeBlock data = .ok block ∧ checkDepth data = .ok () ∧ data ≠ [] := by
  rcases Codec.encodeBlock_eq_ok_iff.mp h with ⟨rfl, hstorable⟩
  refine ⟨Codec.decodeBlock_eq_ok_iff.mpr ⟨rfl, hstorable⟩, ?_, Json.serialize_ne_nil _⟩
  exact checkDepth_of_nesting ((nesting_block block).trans (by decide))

theorem unpackTransaction_packTransaction {transaction : Transaction}
    (h : packTransaction transaction maxItemBytes = .ok text) :
    unpackTransaction text maxItemBytes = .ok transaction :=
  unpack_pack (fun _ hdata => transaction_decodes hdata) h

theorem unpackBlock_packBlock {block : Block}
    (h : packBlock block maxItemBytes = .ok text) :
    unpackBlock text maxItemBytes = .ok block :=
  unpack_pack (fun _ hdata => block_decodes hdata) h

theorem unpackTransaction_storable {transaction : Transaction}
    (h : unpackTransaction text maxItemBytes = .ok transaction) :
    Codec.Storable transaction := by
  rcases unpack_eq_ok_iff.mp h with ⟨_, _, _, data, _, _, _, _, hdecode⟩
  exact (Codec.decodeTransaction_eq_ok_iff.mp hdecode).right

theorem unpackBlock_storable {block : Block}
    (h : unpackBlock text maxItemBytes = .ok block) : Codec.StorableBlock block := by
  rcases unpack_eq_ok_iff.mp h with ⟨_, _, _, data, _, _, _, _, hdecode⟩
  exact (Codec.decodeBlock_eq_ok_iff.mp hdecode).right

/-- Transactions and blocks round trip at every limit, are refused just past it, and
have one packed form. -/
theorem signed_items_roundTrip :
    RoundTrips Codec.encodeTransaction packTransaction unpackTransaction ∧
      RoundTrips Codec.encodeBlock packBlock unpackBlock := by
  constructor
  · refine roundTrips_of_codec (fun _ _ h => transaction_decodes h) ?_
    intro data transaction h
    rcases Codec.decodeTransaction_eq_ok_iff.mp h with ⟨rfl, hstorable⟩
    exact Codec.encodeTransaction_eq_ok_iff.mpr ⟨rfl, hstorable⟩
  · refine roundTrips_of_codec (fun _ _ h => block_decodes h) ?_
    intro data block h
    rcases Codec.decodeBlock_eq_ok_iff.mp h with ⟨rfl, hstorable⟩
    exact Codec.encodeBlock_eq_ok_iff.mpr ⟨rfl, hstorable⟩

end Ledger

end Network

end PyChain
