import PyChain.Network.NestingScan
import PyChain.Network.Peer

/-!
# The wire codec

The nesting scan passes every canonical text of bounded nesting, so the frame
codec and the item codec are inverse to each other on everything they accept.
-/

namespace PyChain

open Foundation

namespace Network

/-!
## The nesting of canonical text
-/

mutual

/-- How many containers are open at once in the text of a value. -/
def nesting : Json -> Nat
  | .null => 0
  | .bool _ => 0
  | .int _ => 0
  | .str _ => 0
  | .arr items => itemsNesting items + 1
  | .obj fields => fieldsNesting fields + 1

def itemsNesting : List Json -> Nat
  | [] => 0
  | item :: items => max (nesting item) (itemsNesting items)

def fieldsNesting : List (Str × Json) -> Nat
  | [] => 0
  | (_, value) :: fields => max (nesting value) (fieldsNesting fields)

end

section Canonical

open Json.Grammar

theorem element_of {n : Nat} {text : Str} (h : Value n text) :
    Element n text := by
  have helement := Element.mk blank_nil h blank_nil
  rw [List.nil_append, List.append_nil] at helement
  exact helement

theorem member_of {n : Nat} {text : Str} (key : Str) (h : Value n text) :
    Member n (Json.renderString key ++ ':' :: text) := by
  have hmember := Member.mk blank_nil (chars_escape key)
    blank_nil (element_of h)
  rw [List.nil_append, List.nil_append] at hmember
  exact hmember

mutual

theorem render_value : forall value : Json,
    Value (nesting value) (Json.render value)
  | .null => by
      rw [Json.render]
      exact Value.null
  | .bool true => by
      rw [Json.render]
      exact Value.bool true
  | .bool false => by
      rw [Json.render]
      exact Value.bool false
  | .int n => by
      rw [Json.render]
      exact Value.number (number_renderInt n)
  | .str text => by
      rw [Json.render]
      exact Value.string (chars_escape text)
  | .arr [] => by
      rw [Json.render]
      exact Value.emptyArray blank_nil
  | .arr (item :: items) => by
      rcases render_elements items (element_of (render_value item)) with
        ⟨elements, helements, hsplit⟩
      rw [Json.render, nesting, itemsNesting, hsplit]
      exact Value.array helements
  | .obj [] => by
      rw [Json.render]
      exact Value.emptyObject blank_nil
  | .obj ((key, value) :: fields) => by
      rcases render_members fields (member_of key (render_value value)) with
        ⟨members, hmembers, hsplit⟩
      rw [List.append_assoc, List.cons_append] at hsplit
      rw [Json.render, nesting, fieldsNesting, hsplit]
      exact Value.object hmembers

theorem render_elements : forall (items : List Json) {n : Nat} {first : Str},
    Element n first -> exists elements,
      Elements (max n (itemsNesting items)) elements ∧
        first ++ Json.renderItems items = elements ++ [']']
  | [], n, first, hfirst => by
      refine ⟨first, ?_, ?_⟩
      · rw [itemsNesting, Nat.max_zero]
        exact Elements.single hfirst
      · rw [Json.renderItems]
  | item :: items, n, first, hfirst => by
      rcases render_elements items (element_of (render_value item)) with
        ⟨elements, helements, hsplit⟩
      refine ⟨first ++ ',' :: elements, ?_, ?_⟩
      · rw [itemsNesting]
        exact Elements.more hfirst helements
      · rw [Json.renderItems, hsplit, List.append_assoc, List.cons_append]

theorem render_members : forall (fields : List (Str × Json)) {n : Nat} {first : Str},
    Member n first -> exists members,
      Members (max n (fieldsNesting fields)) members ∧
        first ++ Json.renderFields fields = members ++ ['}']
  | [], n, first, hfirst => by
      refine ⟨first, ?_, ?_⟩
      · rw [fieldsNesting, Nat.max_zero]
        exact Members.single hfirst
      · rw [Json.renderFields]
  | (key, value) :: fields, n, first, hfirst => by
      rcases render_members fields (member_of key (render_value value)) with
        ⟨members, hmembers, hsplit⟩
      rw [List.append_assoc, List.cons_append] at hsplit
      refine ⟨first ++ ',' :: members, ?_, ?_⟩
      · rw [fieldsNesting]
        exact Members.more hfirst hmembers
      · rw [Json.renderFields, hsplit, List.append_assoc, List.cons_append]

end

end Canonical

theorem checkDepth_serialize_iff (value : Json) :
    checkDepth (Json.serialize value) = .ok () <->
      nesting (Json.sortKeys value) ≤ MAX_JSON_DEPTH :=
  checkDepth_text ⟨_, element_of (render_value (Json.sortKeys value)), rfl⟩

theorem checkDepth_serialize {value : Json}
    (h : nesting (Json.sortKeys value) ≤ MAX_JSON_DEPTH) :
    checkDepth (Json.serialize value) = .ok () :=
  (checkDepth_serialize_iff value).mpr h

/-!
## Envelopes
-/

def Packet.body (packet : Packet) : Bytes :=
  Json.serialize (envelope packet.toMessage)

theorem envelope_sortKeys (message : Message) :
    Json.sortKeys (envelope message) =
      .obj
        [(str "payload", Json.sortKeys message.payload),
          (str "request_id", Json.sortKeys message.requestId),
          (str "type", Json.sortKeys message.type),
          (str "version", Json.sortKeys message.version)] := rfl

theorem Message.Same.serialize {message other : Message} (h : message.Same other) :
    Json.serialize (envelope message) = Json.serialize (envelope other) := by
  unfold Json.serialize Json.dumps
  rw [envelope_sortKeys, envelope_sortKeys, h.type, h.payload, h.requestId, h.version]

theorem fields_distinct (payload : Payload) : Json.DistinctKeys (.obj payload.fields) := by
  rw [Json.DistinctKeys]
  refine ⟨fields_nodup payload, ?_⟩
  have htexts : forall texts : List Str, Json.ItemsDistinct (texts.map Json.str) := by
    intro texts
    rw [Json.itemsDistinct_iff]
    intro item hitem
    rcases List.mem_map.mp hitem with ⟨text, _, rfl⟩
    rw [Json.DistinctKeys]
    trivial
  have hendpoints : forall endpoints : List Endpoint,
      Json.ItemsDistinct (endpoints.map endpointDict) := by
    intro endpoints
    rw [Json.itemsDistinct_iff]
    intro item hitem
    rcases List.mem_map.mp hitem with ⟨endpoint, _, rfl⟩
    unfold endpointDict
    simp only [Json.DistinctKeys, Json.FieldsDistinct, and_true, List.map_cons, List.map_nil]
    decide
  have hoptional : forall text, Json.DistinctKeys (optionalText text) := by
    intro text
    cases text with
    | none =>
        rw [optionalText, Json.DistinctKeys]
        trivial
    | some text =>
        rw [optionalText, Json.DistinctKeys]
        trivial
  cases payload <;>
    simp only [Payload.fields, Json.FieldsDistinct, Json.DistinctKeys, htexts, hendpoints,
      hoptional, and_true]

theorem envelope_distinct (packet : Packet) :
    Json.DistinctKeys (envelope packet.toMessage) := by
  have hpayload := fields_distinct packet.payload
  unfold envelope Packet.toMessage
  simp only [Json.DistinctKeys, Json.FieldsDistinct, and_true, List.map_cons,
    List.map_nil] at hpayload ⊢
  refine ⟨by decide, hpayload, ?_⟩
  cases packet.requestId with
  | none =>
      rw [optionalText, Json.DistinctKeys]
      trivial
  | some token =>
      rw [optionalText, Json.DistinctKeys]
      trivial

theorem envelope_canonical (packet : Packet) :
    Json.sortKeys (envelope packet.toMessage) = envelope packet.toMessage := by
  rw [envelope_sortKeys, sortKeys_toMessage_payload]
  unfold envelope Packet.toMessage
  simp only [Json.sortKeys, sortKeys_optionalText]

theorem itemsNesting_le {items : List Json} {bound : Nat}
    (h : forall item, item ∈ items -> nesting item ≤ bound) : itemsNesting items ≤ bound := by
  induction items with
  | nil =>
      rw [itemsNesting]
      exact Nat.zero_le bound
  | cons item rest ih =>
      rw [List.forall_mem_cons] at h
      rw [itemsNesting]
      have hrest := ih h.right
      have hitem := h.left
      omega

theorem fieldsNesting_le {fields : List (Str × Json)} {bound : Nat}
    (h : forall field, field ∈ fields -> nesting field.2 ≤ bound) :
    fieldsNesting fields ≤ bound := by
  induction fields with
  | nil =>
      rw [fieldsNesting]
      exact Nat.zero_le bound
  | cons field rest ih =>
      rw [List.forall_mem_cons] at h
      cases field with
      | mk key value =>
          rw [fieldsNesting]
          have hrest := ih h.right
          have hvalue : nesting value ≤ bound := h.left
          omega

theorem nesting_envelope (packet : Packet) : nesting (envelope packet.toMessage) ≤ 4 := by
  have htexts : forall texts : List Str, itemsNesting (texts.map Json.str) ≤ 1 := by
    intro texts
    apply itemsNesting_le
    intro item hitem
    rcases List.mem_map.mp hitem with ⟨text, _, rfl⟩
    rw [nesting]
    omega
  have hendpoints : forall endpoints : List Endpoint,
      itemsNesting (endpoints.map endpointDict) ≤ 1 := by
    intro endpoints
    apply itemsNesting_le
    intro item hitem
    rcases List.mem_map.mp hitem with ⟨endpoint, _, rfl⟩
    unfold endpointDict
    simp only [nesting, fieldsNesting]
    omega
  have hoptional : forall text, nesting (optionalText text) = 0 := by
    intro text
    cases text with
    | none => rw [optionalText, nesting]
    | some text => rw [optionalText, nesting]
  have hfields : fieldsNesting packet.payload.fields ≤ 2 := by
    apply fieldsNesting_le
    cases packet.payload <;>
      simp only [Payload.fields, List.forall_mem_cons, List.not_mem_nil, false_implies,
        implies_true, and_true, nesting, hoptional, Nat.zero_le, htexts, hendpoints,
        Nat.reduceLeDiff]
  unfold envelope Packet.toMessage
  simp only [nesting, fieldsNesting, hoptional]
  omega

theorem body_ne_nil (packet : Packet) : packet.body ≠ [] :=
  Json.serialize_ne_nil _

theorem limit_eq_ok_iff {value : Nat} {name : String} {answer : Unit} :
    limit value name = .ok answer <-> 0 < value := by
  unfold limit
  exact require_eq_ok_iff

theorem encodeMessage_eq_ok_iff {message : Message} {maxFrameBytes : Nat} {frame : Bytes} :
    encodeMessage message maxFrameBytes = .ok frame <->
      0 < maxFrameBytes ∧ (exists packet, validateMessage message = .ok packet) ∧
        (Json.serialize (envelope message)).length ≤ min maxFrameBytes (2 ^ 32 - 1) ∧
        frame = lengthPrefix (Json.serialize (envelope message)).length ++
          Json.serialize (envelope message) := by
  unfold encodeMessage
  simp only [bind_eq_ok_iff, limit_eq_ok_iff, require_eq_ok_iff]
  constructor
  · intro h
    rcases h with ⟨_, hpos, packet, hpacket, _, hlength, heq⟩
    exact ⟨hpos, ⟨packet, hpacket⟩, hlength, (Except.ok.inj heq).symm⟩
  · intro h
    rcases h with ⟨hpos, ⟨packet, hpacket⟩, hlength, heq⟩
    exact ⟨(), hpos, packet, hpacket, (), hlength, congrArg Except.ok heq.symm⟩

theorem loadEnvelope_eq_ok_iff {body : Bytes} {value : Json} :
    loadEnvelope body = .ok value <->
      exists text, decodeUtf8 body = some text ∧ Json.loads text = .ok value := by
  unfold loadEnvelope
  cases decodeUtf8 body with
  | none => simp
  | some text =>
      simp only [Option.some.injEq, exists_eq_left']
      cases Json.loads text with
      | ok value => simp
      | error e => cases e <;> simp

theorem messageFields_eq_ok_iff {fields : List (Str × Json)} {message : Message} :
    messageFields fields = .ok message <->
      Codec.field fields (str "version") = .ok message.version ∧
        Codec.field fields (str "type") = .ok message.type ∧
        Codec.field fields (str "request_id") = .ok message.requestId ∧
        Codec.field fields (str "payload") = .ok message.payload := by
  unfold messageFields
  simp only [bind_eq_ok_iff]
  constructor
  · intro h
    rcases h with ⟨_, hversion, _, htype, _, hid, _, hpayload, heq⟩
    cases heq
    exact ⟨hversion, htype, hid, hpayload⟩
  · intro h
    rcases h with ⟨hversion, htype, hid, hpayload⟩
    exact ⟨_, hversion, _, htype, _, hid, _, hpayload, rfl⟩

theorem readEnvelope_sound {value : Json} {message : Message}
    (h : readEnvelope value = .ok message) (hdistinct : Json.DistinctKeys value) :
    Json.sortKeys value = Json.sortKeys (envelope message) ∧
      Json.DistinctKeys message.payload := by
  cases value with
  | obj fields =>
      unfold readEnvelope at h
      simp only [bind_eq_ok_iff, require_eq_ok_iff, messageFields_eq_ok_iff] at h
      rcases h with ⟨_, hkeys, hversion, htype, hid, hpayload⟩
      rw [Json.DistinctKeys, Json.fieldsDistinct_iff] at hdistinct
      have hmem : forall {key : Str} {value : Json}, Codec.field fields key = .ok value ->
          (key, value) ∈ fields := by
        intro key value hfield
        exact Dict.mem_of_lookup_eq_some (field_eq_ok_iff.mp hfield)
      refine ⟨?_, hdistinct.right _ (hmem hpayload)⟩
      rw [envelope_sortKeys]
      apply Json.sortKeys_obj_eq hdistinct.left
      · intro key hkey
        rw [← List.mem_toFinset, hkeys] at hkey
        simp only [ENVELOPE_KEYS, List.mem_toFinset, List.mem_cons, List.not_mem_nil,
          or_false] at hkey
        simp only [List.map_cons, List.map_nil, List.mem_cons, List.not_mem_nil, or_false]
        rcases hkey with hkey | hkey | hkey | hkey
        · exact Or.inr (Or.inr (Or.inr hkey))
        · exact Or.inr (Or.inr (Or.inl hkey))
        · exact Or.inr (Or.inl hkey)
        · exact Or.inl hkey
      · simp only [List.map_cons, List.map_nil]
        decide
      · simp only [List.forall_mem_cons, List.not_mem_nil, false_implies, implies_true,
          and_true]
        exact ⟨⟨_, hmem hpayload, rfl⟩, ⟨_, hmem hid, rfl⟩, ⟨_, hmem htype, rfl⟩, _,
          hmem hversion, rfl⟩
  | null => cases h
  | bool _ => cases h
  | int _ => cases h
  | str _ => cases h
  | arr _ => cases h

theorem readEnvelope_envelope (message : Message) :
    readEnvelope (envelope message) = .ok message := by
  unfold readEnvelope envelope
  simp only [bind_eq_ok_iff, require_eq_ok_iff, messageFields_eq_ok_iff]
  refine ⟨(), ?_, rfl, rfl, rfl, rfl⟩
  simp only [List.map_cons, List.map_nil]
  decide

theorem loadEnvelope_body (packet : Packet) :
    loadEnvelope packet.body = .ok (envelope packet.toMessage) := by
  refine loadEnvelope_eq_ok_iff.mpr ⟨_, Json.decodeUtf8_serialize _, ?_⟩
  rw [Json.loads_dumps (envelope_distinct packet), envelope_canonical]

theorem decodeMessage_eq_ok_iff {body : Bytes} {maxFrameBytes : Nat} {packet : Packet} :
    decodeMessage body maxFrameBytes = .ok packet <->
      packet.Valid ∧ body = packet.body ∧ body.length ≤ maxFrameBytes := by
  unfold decodeMessage
  simp only [bind_eq_ok_iff, limit_eq_ok_iff, require_eq_ok_iff]
  constructor
  · intro h
    rcases h with ⟨_, _, _, _, _, hlength, _, _, parsed, hparsed, message, hmessage, other,
      hpacket, _, hcanonical, heq⟩
    cases heq
    rcases loadEnvelope_eq_ok_iff.mp hparsed with ⟨text, _, hloads⟩
    rcases readEnvelope_sound hmessage (Json.loads_distinct hloads) with ⟨hsorted, hdistinct⟩
    rcases validateMessage_sound hpacket hdistinct with ⟨hsame, hvalid⟩
    refine ⟨hvalid, ?_, hlength⟩
    rw [← hcanonical, Packet.body, ← hsame.serialize]
    unfold Json.serialize Json.dumps
    rw [hsorted]
  · intro h
    rcases h with ⟨hvalid, hbody, hlength⟩
    subst hbody
    have hpos : 0 < packet.body.length :=
      List.length_pos_iff.mpr (body_ne_nil packet)
    refine ⟨(), by omega, (), body_ne_nil packet, (), hlength, (), ?_, envelope packet.toMessage,
      ?_, packet.toMessage, readEnvelope_envelope _, packet, validateMessage_toMessage hvalid,
      (), rfl, rfl⟩
    · apply checkDepth_serialize
      rw [envelope_canonical]
      have hnesting := nesting_envelope packet
      unfold MAX_JSON_DEPTH
      omega
    · exact loadEnvelope_body packet

theorem decodeReceived_body (packet : Packet) (maxFrameBytes : Nat) :
    decodeReceived packet.body maxFrameBytes = decodeMessage packet.body maxFrameBytes := by
  unfold decodeReceived
  rw [loadEnvelope_body]

theorem encodeMessage_packet_eq_ok_iff {packet : Packet} {maxFrameBytes : Nat} {frame : Bytes}
    (hvalid : packet.Valid) :
    encodeMessage packet.toMessage maxFrameBytes = .ok frame <->
      packet.body.length ≤ min maxFrameBytes (2 ^ 32 - 1) ∧
        frame = lengthPrefix packet.body.length ++ packet.body := by
  rw [encodeMessage_eq_ok_iff]
  constructor
  · intro h
    exact h.right.right
  · intro h
    have hpos : 0 < packet.body.length := List.length_pos_iff.mpr (body_ne_nil packet)
    exact ⟨by omega, ⟨packet, validateMessage_toMessage hvalid⟩, h⟩

/-!
## Frames
-/

theorem fromBytesBig_lengthPrefix {n : Nat} (h : n ≤ 2 ^ 32 - 1) :
    fromBytesBig (UInt8.ofNat (n / 2 ^ 24)) (UInt8.ofNat (n / 2 ^ 16 % 256))
      (UInt8.ofNat (n / 2 ^ 8 % 256)) (UInt8.ofNat (n % 256)) = n := by
  unfold fromBytesBig
  simp only [UInt8.toNat_ofNat']
  omega

theorem readFrame_append {packet : Packet} {maxFrameBytes : Nat} {frame : Bytes}
    (hvalid : packet.Valid)
    (h : encodeMessage packet.toMessage maxFrameBytes = .ok frame) (rest : Bytes) :
    readFrame maxFrameBytes (frame ++ rest) = .ok (packet, rest) := by
  rcases (encodeMessage_packet_eq_ok_iff hvalid).mp h with ⟨hlength, hframe⟩
  have hpos : 0 < packet.body.length := List.length_pos_iff.mpr (body_ne_nil packet)
  have hsize : fromBytesBig (UInt8.ofNat (packet.body.length / 2 ^ 24))
      (UInt8.ofNat (packet.body.length / 2 ^ 16 % 256))
      (UInt8.ofNat (packet.body.length / 2 ^ 8 % 256))
      (UInt8.ofNat (packet.body.length % 256)) = packet.body.length :=
    fromBytesBig_lengthPrefix (by omega)
  have hdecode : decodeReceived packet.body maxFrameBytes = .ok packet := by
    rw [decodeReceived_body]
    exact decodeMessage_eq_ok_iff.mpr ⟨hvalid, rfl, by omega⟩
  have hframeSize : frameSize maxFrameBytes (UInt8.ofNat (packet.body.length / 2 ^ 24))
      (UInt8.ofNat (packet.body.length / 2 ^ 16 % 256))
      (UInt8.ofNat (packet.body.length / 2 ^ 8 % 256))
      (UInt8.ofNat (packet.body.length % 256)) = .ok packet.body.length := by
    unfold frameSize
    rw [hsize, bind_eq_ok_iff]
    exact ⟨(), require_eq_ok_iff.mpr ⟨by omega, by omega⟩, rfl⟩
  have henough : ¬ (packet.body ++ rest).length < packet.body.length := by
    rw [List.length_append]
    omega
  rw [hframe, lengthPrefix, List.append_assoc]
  simp only [List.cons_append, List.nil_append]
  unfold readFrame
  simp only [hframeSize, if_neg henough, List.take_left, hdecode, List.drop_left]

theorem readTurns_frames {maxFrameBytes : Nat} {packets : List Packet}
    (hvalid : forall packet, packet ∈ packets -> packet.Valid) :
    forall {frames : List Bytes} {turns : Nat},
      packets.mapM (fun packet => encodeMessage packet.toMessage maxFrameBytes) =
        .ok frames ->
      packets.length < turns ->
      readTurns maxFrameBytes turns frames.flatten = (packets, .incomplete []) := by
  induction packets with
  | nil =>
      intro frames turns hframes hturns
      rw [List.mapM_nil] at hframes
      have hnil : [] = frames := Except.ok.inj hframes
      rw [← hnil]
      cases turns with
      | zero => rfl
      | succ turns => rfl
  | cons packet rest ih =>
      intro frames turns hframes hturns
      rw [List.forall_mem_cons] at hvalid
      rw [List.mapM_cons] at hframes
      rcases bind_eq_ok_iff.mp hframes with ⟨frame, hframe, htail⟩
      rcases bind_eq_ok_iff.mp htail with ⟨others, hothers, heq⟩
      have hcons : frame :: others = frames := Except.ok.inj heq
      rw [← hcons, List.flatten_cons]
      cases turns with
      | zero => cases hturns
      | succ turns =>
          rw [List.length_cons] at hturns
          have hlater := ih hvalid.right hothers (by omega : rest.length < turns)
          rw [readTurns, readFrame_append hvalid.left hframe]
          simp only [hlater]

theorem frames_length {maxFrameBytes : Nat} {packets : List Packet} {frames : List Bytes}
    (h : packets.mapM (fun packet => encodeMessage packet.toMessage maxFrameBytes) =
      .ok frames) : 4 * packets.length ≤ frames.flatten.length := by
  rw [mapM_eq_ok_iff] at h
  induction h with
  | nil => exact Nat.le_refl 0
  | cons hframe _ ih =>
      rcases encodeMessage_eq_ok_iff.mp hframe with ⟨_, _, _, heq⟩
      rw [List.length_cons, List.flatten_cons, List.length_append, heq, List.length_append]
      have hfront : forall n, (lengthPrefix n).length = 4 := fun n => rfl
      rw [hfront]
      omega

theorem readLoop_frames {maxFrameBytes : Nat} {packets : List Packet} {frames : List Bytes}
    (hvalid : forall packet, packet ∈ packets -> packet.Valid)
    (h : packets.mapM (fun packet => encodeMessage packet.toMessage maxFrameBytes) =
      .ok frames) :
    readLoop maxFrameBytes frames.flatten = (packets, .incomplete []) := by
  unfold readLoop
  cases packets with
  | nil =>
      rw [List.mapM_nil] at h
      have hnil : [] = frames := Except.ok.inj h
      rw [← hnil]
      rfl
  | cons packet rest =>
      have hlength := frames_length h
      apply readTurns_frames hvalid h
      rw [List.length_cons] at hlength ⊢
      omega

/-!
## Encoding and decoding are inverse
-/

/-- A message that fits its frame: a dictionary the validator accepts as the
packet, whose body is within the limit. -/
structure Sendable (config : NodeConfig) (message : Message) (packet : Packet) : Prop where
  distinct : Json.DistinctKeys message.payload
  accepted : validateMessage message = .ok packet
  fits : (Json.serialize (envelope message)).length ≤ config.maxFrameBytes

theorem Sendable.encoded {config : NodeConfig} {message : Message} {packet : Packet}
    (h : Sendable config message packet) :
    message.Same packet.toMessage ∧ packet.Valid ∧
      packet.body.length ≤ config.maxFrameBytes ∧
      encodeMessage message config.maxFrameBytes =
        .ok (lengthPrefix packet.body.length ++ packet.body) := by
  rcases validateMessage_sound h.accepted h.distinct with ⟨hsame, hvalid⟩
  have hbody : Json.serialize (envelope message) = packet.body := hsame.serialize
  have hfits := h.fits
  have hlimit := config.maxFrameBytes_le
  have hpos : 0 < packet.body.length := List.length_pos_iff.mpr (body_ne_nil packet)
  rw [hbody] at hfits
  refine ⟨hsame, hvalid, hfits, ?_⟩
  rw [encodeMessage_eq_ok_iff, hbody]
  exact ⟨by omega, ⟨packet, h.accepted⟩, by omega, rfl⟩

/-- Encoding and decoding are inverse, the first four bytes of a frame are the
big-endian length of the rest, and the reader splits a concatenation of frames
into its messages. -/
theorem wire_codec_bijective (config : NodeConfig) :
    (forall message packet, Sendable config message packet ->
        exists a b c d body,
          encodeMessage message config.maxFrameBytes = .ok (a :: b :: c :: d :: body) ∧
            fromBytesBig a b c d = body.length ∧
            decodeMessage body config.maxFrameBytes = .ok packet ∧
            packet.toMessage.Same message) ∧
      (forall body packet, decodeMessage body config.maxFrameBytes = .ok packet ->
        exists a b c d,
          encodeMessage packet.toMessage config.maxFrameBytes =
            .ok (a :: b :: c :: d :: body)) ∧
      (forall messages packets, List.Forall₂ (Sendable config) messages packets ->
        exists frames,
          messages.mapM (fun message => encodeMessage message config.maxFrameBytes) =
              .ok frames ∧
            readLoop config.maxFrameBytes frames.flatten = (packets, .incomplete [])) := by
  have hlimit := config.maxFrameBytes_le
  refine ⟨?_, ?_, ?_⟩
  · intro message packet h
    rcases h.encoded with ⟨hsame, hvalid, hfits, hencode⟩
    refine ⟨_, _, _, _, packet.body, hencode, fromBytesBig_lengthPrefix (by omega),
      decodeMessage_eq_ok_iff.mpr ⟨hvalid, rfl, hfits⟩, ?_⟩
    exact ⟨hsame.type.symm, hsame.payload.symm, hsame.requestId.symm, hsame.version.symm⟩
  · intro body packet h
    rcases decodeMessage_eq_ok_iff.mp h with ⟨hvalid, hbody, hlength⟩
    subst hbody
    exact ⟨_, _, _, _, (encodeMessage_packet_eq_ok_iff hvalid).mpr ⟨by omega, rfl⟩⟩
  · intro messages packets h
    refine ⟨packets.map (fun packet => lengthPrefix packet.body.length ++ packet.body), ?_, ?_⟩
    · rw [mapM_eq_ok_iff, List.forall₂_map_right_iff]
      exact h.imp (fun message packet hsend => hsend.encoded.right.right.right)
    · have hall : forall packet, packet ∈ packets ->
          packet.Valid ∧ packet.body.length ≤ config.maxFrameBytes := by
        intro packet hpacket
        rcases List.forall₂_iff_get.mp h with ⟨hlength, hget⟩
        rcases List.get_of_mem hpacket with ⟨i, hi⟩
        have hsend := hget i.val (by rw [hlength]; exact i.isLt) i.isLt
        rw [← hi]
        exact ⟨hsend.encoded.right.left, hsend.encoded.right.right.left⟩
      apply readLoop_frames (fun packet hpacket => (hall packet hpacket).left)
      rw [mapM_eq_ok_iff, List.forall₂_map_right_iff, List.forall₂_same]
      intro packet hpacket
      have hfits := (hall packet hpacket).right
      exact (encodeMessage_packet_eq_ok_iff (hall packet hpacket).left).mpr ⟨by omega, rfl⟩

end Network

namespace Sample

open Network

/-- A solicited status whose keys are not in order. -/
def statusMessage : Message :=
  { type := .str (str "STATUS")
    payload := .obj
      [(str "tip_hash", .str (List.replicate 64 'a')), (str "height", .int 7)]
    requestId := .str (List.replicate 32 '0')
    version := .int 1 }

def statusPacket : Packet :=
  { payload := .status { height := 7, tipHash := List.replicate 64 'a' }
    requestId := some (List.replicate 32 '0') }

def errorPacket : Packet :=
  { payload := .error .busy (str "\"busy\" \\ [é] ☃")
    requestId := none }

theorem statusMessage_sendable : Sendable NodeConfig.default_ statusMessage statusPacket := by
  constructor
  · simp only [statusMessage, Json.DistinctKeys, Json.FieldsDistinct, and_true, List.map_cons,
      List.map_nil]
    decide
  · decide +kernel
  · decide +kernel

theorem errorPacket_sendable :
    Sendable NodeConfig.default_ errorPacket.toMessage errorPacket := by
  constructor
  · exact fields_distinct errorPacket.payload
  · decide +kernel
  · decide +kernel

end Sample

theorem Network.wire_codec_bijective_sample :
    (exists a b c d body,
      Network.encodeMessage Sample.statusMessage Network.MAX_FRAME_BYTES =
          .ok (a :: b :: c :: d :: body) ∧
        Network.fromBytesBig a b c d = body.length ∧
        Network.decodeMessage body Network.MAX_FRAME_BYTES = .ok Sample.statusPacket ∧
        Sample.statusPacket.toMessage.Same Sample.statusMessage) ∧
      exists frames,
        [Sample.statusMessage, Sample.errorPacket.toMessage].mapM
            (fun message => Network.encodeMessage message Network.MAX_FRAME_BYTES) =
            .ok frames ∧
          Network.readLoop Network.MAX_FRAME_BYTES frames.flatten =
            ([Sample.statusPacket, Sample.errorPacket], .incomplete []) := by
  rcases Network.wire_codec_bijective Network.NodeConfig.default_ with ⟨hencode, _, hframes⟩
  refine ⟨hencode _ _ Sample.statusMessage_sendable, hframes _ _ ?_⟩
  exact List.Forall₂.cons Sample.statusMessage_sendable
    (List.Forall₂.cons Sample.errorPacket_sendable List.Forall₂.nil)

end PyChain
