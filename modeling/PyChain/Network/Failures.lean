import PyChain.Network.Protocol
import PyChain.Storage.Loading

/-!
# What the protocol raises

Whatever bytes arrive, a decoder raises a protocol error or finds that a limit is
exceeded.  A reader of a field cannot fail to find it, because the set of fields
is checked first.
-/

namespace PyChain

open Foundation

namespace Network

def ProtocolFailure : PyError -> Prop
  | .networkError .protocol _ => True
  | _ => False

def Refusal : PyError -> Prop
  | .networkError .protocol _ => True
  | .networkError .policyLimit _ => True
  | _ => False

theorem ProtocolFailure.refusal {e : PyError} (h : ProtocolFailure e) : Refusal e := by
  cases e with
  | networkError kind message =>
      cases kind with
      | protocol => exact trivial
      | _ => exact h.elim
  | _ => exact h.elim

/-!
## Fields
-/

/-- The fields of a record include a key. -/
def Has (fields : List (Str × Json)) (key : Str) : Prop :=
  key ∈ fields.map Prod.fst

theorem has_of_keys {fields : List (Str × Json)} {keys : List Str} {key : Str}
    (h : (fields.map Prod.fst).toFinset = keys.toFinset) (hkey : key ∈ keys) :
    Has fields key := by
  have hmem : key ∈ (fields.map Prod.fst).toFinset := by
    rw [h]
    exact List.mem_toFinset.mpr hkey
  exact List.mem_toFinset.mp hmem

theorem raises_present {kind : PyError -> Prop} {fields : List (Str × Json)} {key : Str}
    (h : Has fields key) : Raises kind (Codec.field fields key) := by
  unfold Codec.field
  cases hlookup : Dict.lookupKey fields key with
  | some value => exact raises_ok value
  | none =>
      have hsome : (Dict.lookupKey fields key).isSome = true :=
        (Dict.lookup_isSome_iff fields key).mpr h
      rw [hlookup] at hsome
      cases hsome

theorem raises_integerField {fields : List (Str × Json)} {name : String} {low high : Nat}
    (h : Has fields (str name)) : Raises ProtocolFailure (integer fields name low high) := by
  unfold integer
  refine raises_bind (raises_present h) fun value _ => ?_
  cases value with
  | int n => exact raises_bind (raises_require trivial) fun _ _ => raises_ok _
  | _ => exact raises_error trivial

theorem raises_hex {value : Json} {name : String} {pattern : Str -> Bool} :
    Raises ProtocolFailure (hex value name pattern) := by
  unfold hex
  cases value with
  | str text => exact raises_bind (raises_require trivial) fun _ _ => raises_ok _
  | _ => exact raises_error trivial

theorem raises_hashField {fields : List (Str × Json)} {name : String}
    (h : Has fields (str name)) : Raises ProtocolFailure (hashField fields name) :=
  raises_bind (raises_present h) fun _ _ => raises_hex

theorem raises_tokenField {fields : List (Str × Json)} {name : String}
    (h : Has fields (str name)) : Raises ProtocolFailure (tokenField fields name) :=
  raises_bind (raises_present h) fun _ _ => raises_hex

theorem raises_boolean {fields : List (Str × Json)} {name : String}
    (h : Has fields (str name)) : Raises ProtocolFailure (boolean fields name) := by
  unfold boolean
  refine raises_bind (raises_present h) fun value _ => ?_
  cases value with
  | bool _ => exact raises_ok _
  | _ => exact raises_error trivial

theorem raises_item (value : Json) : Raises ProtocolFailure (item value) := by
  unfold item
  cases value with
  | str text => exact raises_bind (raises_require trivial) fun _ _ => raises_ok _
  | _ => exact raises_error trivial

theorem raises_items {fields : List (Str × Json)} {name message : String} {maximum : Nat}
    (h : Has fields (str name)) :
    Raises ProtocolFailure (items fields name maximum message) := by
  unfold items
  refine raises_bind (raises_present h) fun value _ => ?_
  cases value with
  | arr values =>
      exact raises_bind (raises_require trivial) fun _ _ => raises_mapM raises_item _
  | _ => exact raises_error trivial

theorem raises_readEndpoint (value : Json) : Raises ProtocolFailure (readEndpoint value) := by
  unfold readEndpoint
  cases value with
  | obj fields =>
      refine raises_bind (raises_require trivial) fun _ hkeys => ?_
      have heq := require_eq_ok_iff.mp hkeys
      have hhost : Has fields (str "host") :=
        has_of_keys (by simpa using heq : _ = ([str "host", str "port"] : List Str).toFinset) (by decide)
      have hport : Has fields (str "port") :=
        has_of_keys (by simpa using heq : _ = ([str "host", str "port"] : List Str).toFinset) (by decide)
      refine raises_bind (raises_present hhost) fun host _ => ?_
      cases host with
      | str text =>
          simp only
          split
          · exact raises_error trivial
          · refine raises_bind (raises_present hport) fun port _ => ?_
            cases port with
            | int n => exact raises_bind (raises_require trivial) fun _ _ => raises_ok _
            | _ => exact raises_error trivial
      | _ => exact raises_error trivial
  | _ => exact raises_error trivial

/-!
## Payloads
-/

section Payloads

variable {fields : List (Str × Json)}

theorem raises_readVersion (h : forall key, key ∈ MessageType.version.schema -> Has fields key) :
    Raises ProtocolFailure (readVersion fields) := by
  unfold readVersion
  refine raises_bind (raises_integerField (h _ (by decide))) fun _ _ => ?_
  refine raises_bind (raises_hashField (h _ (by decide))) fun _ _ => ?_
  refine raises_bind (raises_hashField (h _ (by decide))) fun _ _ => ?_
  refine raises_bind (raises_tokenField (h _ (by decide))) fun _ _ => ?_
  refine raises_bind (raises_tokenField (h _ (by decide))) fun _ _ => ?_
  refine raises_bind (raises_present (h _ (by decide))) fun value _ => ?_
  cases value with
  | str text =>
      exact raises_bind (raises_require trivial) fun _ _ =>
        raises_bind (raises_integerField (h _ (by decide))) fun _ _ => raises_ok _
  | _ => exact raises_error trivial

theorem raises_readStatus (h : forall key, key ∈ MessageType.status.schema -> Has fields key) :
    Raises ProtocolFailure (readStatus fields) :=
  raises_bind (raises_integerField (h _ (by decide))) fun _ _ =>
    raises_bind (raises_hashField (h _ (by decide))) fun _ _ => raises_ok _

theorem raises_readGetBlocks
    (h : forall key, key ∈ MessageType.getBlocks.schema -> Has fields key) :
    Raises ProtocolFailure (readGetBlocks fields) :=
  raises_bind (raises_integerField (h _ (by decide))) fun _ _ =>
    raises_bind (raises_hashField (h _ (by decide))) fun _ _ =>
    raises_bind (raises_integerField (h _ (by decide))) fun _ _ => raises_ok _

theorem raises_readBlocks (h : forall key, key ∈ MessageType.blocks.schema -> Has fields key) :
    Raises ProtocolFailure (readBlocks fields) :=
  raises_bind (raises_integerField (h _ (by decide))) fun _ _ =>
    raises_bind (raises_integerField (h _ (by decide))) fun _ _ =>
    raises_bind (raises_hashField (h _ (by decide))) fun _ _ =>
    raises_bind (raises_hashField (h _ (by decide))) fun _ _ =>
    raises_bind (raises_boolean (h _ (by decide))) fun _ _ =>
    raises_bind (raises_items (h _ (by decide))) fun _ _ => raises_ok _

theorem raises_readGetMempool
    (h : forall key, key ∈ MessageType.getMempool.schema -> Has fields key) :
    Raises ProtocolFailure (readGetMempool fields) := by
  unfold readGetMempool
  refine raises_bind (raises_integerField (h _ (by decide))) fun _ _ => ?_
  refine raises_bind (raises_hashField (h _ (by decide))) fun _ _ => ?_
  refine raises_bind (raises_integerField (h _ (by decide))) fun _ _ => ?_
  refine raises_bind (raises_present (h _ (by decide))) fun value _ => ?_
  cases value with
  | null => exact raises_bind (raises_require trivial) fun _ _ => raises_ok _
  | _ => exact raises_bind raises_hex fun _ _ => raises_ok _

theorem raises_readMempool (h : forall key, key ∈ MessageType.mempool.schema -> Has fields key) :
    Raises ProtocolFailure (readMempool fields) :=
  raises_bind (raises_integerField (h _ (by decide))) fun _ _ =>
    raises_bind (raises_integerField (h _ (by decide))) fun _ _ =>
    raises_bind (raises_hashField (h _ (by decide))) fun _ _ =>
    raises_bind (raises_boolean (h _ (by decide))) fun _ _ =>
    raises_bind (raises_tokenField (h _ (by decide))) fun _ _ =>
    raises_bind (raises_items (h _ (by decide))) fun _ _ =>
    raises_bind (raises_require trivial) fun _ _ =>
    raises_bind (raises_require trivial) fun _ _ => raises_ok _

theorem raises_readPeers (h : forall key, key ∈ MessageType.peers.schema -> Has fields key) :
    Raises ProtocolFailure (readPeers fields) := by
  unfold readPeers
  refine raises_bind (raises_present (h _ (by decide))) fun value _ => ?_
  cases value with
  | arr values =>
      exact raises_bind (raises_require trivial) fun _ _ => raises_mapM raises_readEndpoint _
  | _ => exact raises_error trivial

theorem raises_readItem {name : String} (h : Has fields (str name)) :
    Raises ProtocolFailure (readItem fields name) :=
  raises_bind (raises_present h) fun _ _ => raises_item _

theorem raises_readError (h : forall key, key ∈ MessageType.error.schema -> Has fields key) :
    Raises ProtocolFailure (readError fields) := by
  unfold readError
  refine raises_bind (raises_present (h _ (by decide))) fun value _ => ?_
  cases value with
  | str text =>
      simp only
      split
      · exact raises_error trivial
      · refine raises_bind (raises_present (h _ (by decide))) fun message _ => ?_
        cases message with
        | str _ => exact raises_bind (raises_require trivial) fun _ _ => raises_ok _
        | _ => exact raises_error trivial
  | _ => exact raises_error trivial

theorem raises_readPayload {kind : MessageType}
    (h : forall key, key ∈ kind.schema -> Has fields key) :
    Raises ProtocolFailure (readPayload kind fields) := by
  cases kind with
  | version => exact raises_map (raises_readVersion h)
  | verack => exact raises_ok _
  | getStatus => exact raises_ok _
  | status => exact raises_map (raises_readStatus h)
  | getPeers => exact raises_ok _
  | peers => exact raises_map (raises_readPeers h)
  | newTransaction => exact raises_map (raises_readItem (h _ (by decide)))
  | newBlock => exact raises_map (raises_readItem (h _ (by decide)))
  | getBlocks => exact raises_map (raises_readGetBlocks h)
  | blocks => exact raises_map (raises_readBlocks h)
  | getMempool => exact raises_map (raises_readGetMempool h)
  | mempool => exact raises_map (raises_readMempool h)
  | ping => exact raises_map (raises_tokenField (h _ (by decide)))
  | pong => exact raises_map (raises_tokenField (h _ (by decide)))
  | error => exact raises_map (raises_readError h)

end Payloads

/-!
## Messages
-/

theorem raises_readType (value : Json) : Raises ProtocolFailure (readType value) := by
  unfold readType
  cases value with
  | str text =>
      simp only
      split
      · exact raises_ok _
      · exact raises_error trivial
  | _ => exact raises_error trivial

theorem raises_readRequestId (kind : MessageType) (value : Json) :
    Raises ProtocolFailure (readRequestId kind value) := by
  unfold readRequestId
  cases value with
  | null =>
      simp only
      split
      · exact raises_error trivial
      · exact raises_ok _
  | _ =>
      simp only
      split
      · exact raises_map raises_hex
      · exact raises_error trivial

theorem raises_validateMessage (message : Message) :
    Raises ProtocolFailure (validateMessage message) := by
  unfold validateMessage
  cases message.version with
  | int version =>
      refine raises_bind (raises_require trivial) fun _ _ => ?_
      refine raises_bind (raises_readType _) fun kind _ => ?_
      cases message.payload with
      | obj fields =>
          refine raises_bind (raises_require trivial) fun _ hkeys => ?_
          have hhas : forall key, key ∈ kind.schema -> Has fields key :=
            fun key hkey => has_of_keys (require_eq_ok_iff.mp hkeys) hkey
          exact raises_bind (raises_readRequestId _ _) fun _ _ =>
            raises_bind (raises_readPayload hhas) fun _ _ => raises_ok _
      | _ => exact raises_error trivial
  | _ => exact raises_error trivial

theorem raises_encodeMessage (message : Message) {maxFrameBytes : Nat}
    (hpos : 0 < maxFrameBytes) :
    Raises Refusal (encodeMessage message maxFrameBytes) := by
  unfold encodeMessage limit
  rw [require, if_pos hpos]
  refine raises_bind (raises_ok _) fun _ _ => ?_
  refine raises_bind ((raises_validateMessage _).weaken fun _ => ProtocolFailure.refusal)
    fun _ _ => ?_
  exact raises_bind (raises_require trivial) fun _ _ => raises_ok _

theorem raises_checkDepth (data : Bytes) : Raises ProtocolFailure (checkDepth data) := by
  have hstep : forall (scan : DepthScan) (byte : UInt8),
      Raises ProtocolFailure (scan.step byte) := by
    intro scan byte
    unfold DepthScan.step
    repeat' split
    all_goals first | exact raises_ok _ | exact raises_error trivial
  exact raises_bind (raises_foldlM hstep _ _) fun _ _ => raises_require trivial

theorem raises_loadEnvelope (body : Bytes) : Raises ProtocolFailure (loadEnvelope body) := by
  unfold loadEnvelope
  repeat' split
  all_goals first | exact raises_ok _ | exact raises_error trivial

theorem raises_readEnvelope (value : Json) : Raises ProtocolFailure (readEnvelope value) := by
  unfold readEnvelope
  cases value with
  | obj fields =>
      refine raises_bind (raises_require trivial) fun _ hkeys => ?_
      have hhas : forall key, key ∈ ENVELOPE_KEYS -> Has fields key :=
        fun key hkey => has_of_keys (require_eq_ok_iff.mp hkeys) hkey
      exact raises_bind (raises_present (hhas _ (by decide))) fun _ _ =>
        raises_bind (raises_present (hhas _ (by decide))) fun _ _ =>
        raises_bind (raises_present (hhas _ (by decide))) fun _ _ =>
        raises_bind (raises_present (hhas _ (by decide))) fun _ _ => raises_ok _
  | _ => exact raises_error trivial

/-- The reader checks the size of a body before it decodes it, so decoding raises
protocol errors only. -/
theorem raises_decodeMessage {body : Bytes} {maxFrameBytes : Nat} (hpos : 0 < maxFrameBytes)
    (hsize : body.length ≤ maxFrameBytes) :
    Raises ProtocolFailure (decodeMessage body maxFrameBytes) := by
  unfold decodeMessage limit
  rw [require, if_pos hpos]
  refine raises_bind (raises_ok _) fun _ _ => ?_
  refine raises_bind (raises_require trivial) fun _ _ => ?_
  rw [require, if_pos hsize]
  exact raises_bind (raises_ok _) fun _ _ =>
    raises_bind (raises_checkDepth _) fun _ _ =>
    raises_bind (raises_loadEnvelope _) fun _ _ =>
    raises_bind (raises_readEnvelope _) fun _ _ =>
    raises_bind (raises_validateMessage _) fun _ _ =>
    raises_bind (raises_require trivial) fun _ _ => raises_ok _

theorem raises_decodeReceived {body : Bytes} {maxFrameBytes : Nat} (hpos : 0 < maxFrameBytes)
    (hsize : body.length ≤ maxFrameBytes) :
    Raises ProtocolFailure (decodeReceived body maxFrameBytes) := by
  rcases decodeReceived_eq body maxFrameBytes with ⟨other, hlength, hdecode⟩
  rw [hdecode]
  exact raises_decodeMessage hpos (hlength.symm ▸ hsize)

/-!
## Signed items
-/

theorem raises_signedItem {alpha : Type} {x : Except PyError alpha} (h : Raises Corruption x) :
    Raises ProtocolFailure (signedItem x) := by
  cases x with
  | ok a => exact raises_ok a
  | error e =>
      have he := h e rfl
      cases e with
      | storageError kind message =>
          cases kind with
          | corruption => exact raises_error trivial
          | _ => exact he.elim
      | _ => exact he.elim

theorem raises_pack {alpha : Type} {value : alpha} {encoder : alpha -> Except PyError Bytes}
    {maxItemBytes : Nat} (hpos : 0 < maxItemBytes) (h : Raises Corruption (encoder value)) :
    Raises Refusal (pack value encoder maxItemBytes) := by
  unfold pack limit
  rw [require, if_pos hpos]
  refine raises_bind (raises_ok _) fun _ _ => ?_
  refine raises_bind ((raises_signedItem h).weaken fun _ => ProtocolFailure.refusal)
    fun _ _ => ?_
  exact raises_bind (raises_require trivial) fun _ _ => raises_ok _

theorem raises_unpack {alpha : Type} {value : Str} {decoder : Bytes -> Except PyError alpha}
    {maxItemBytes : Nat} (hpos : 0 < maxItemBytes)
    (h : forall data, Raises Corruption (decoder data)) :
    Raises Refusal (unpack value decoder maxItemBytes) := by
  unfold unpack limit
  rw [require, if_pos hpos]
  refine raises_bind (raises_ok _) fun _ _ => ?_
  refine raises_bind (raises_require trivial) fun _ _ => ?_
  refine raises_bind (raises_require trivial) fun _ _ => ?_
  cases Base64.decode value with
  | none => exact raises_error trivial
  | some data =>
      exact raises_bind (raises_require trivial) fun _ _ =>
        raises_bind (raises_require trivial) fun _ _ =>
        raises_bind ((raises_checkDepth _).weaken fun _ => ProtocolFailure.refusal) fun _ _ =>
        (raises_signedItem (h data)).weaken fun _ => ProtocolFailure.refusal

end Network

end PyChain
