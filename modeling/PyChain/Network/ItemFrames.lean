import PyChain.Network.ControlFrames
import PyChain.Network.SignedItems

/-!
# A frame has room for an item

The text of a packed item is base64 and needs no escapes, so a message with one item is
little longer than the item.  Only what a node adds to a first item can exceed its frame
limit.
-/

namespace PyChain

open Foundation

namespace Network

/-- The frame limit leaves room for any item that the node can pack. -/
def NodeConfig.AdmitsItems (config : NodeConfig) : Prop :=
  4 * ((config.maxItemBytes + 2) / 3) + MAX_CONTROL_BYTES ≤ min config.maxFrameBytes (2 ^ 32 - 1)

/-- The defaults leave room. -/
example : 4 * ((MAX_ITEM_BYTES + 2) / 3) + MAX_CONTROL_BYTES ≤
    min MAX_FRAME_BYTES (2 ^ 32 - 1) := by
  decide

theorem digit_isPlain : forall n, n < 64 -> Json.isPlain (Base64.digit n) = true := by
  decide

theorem encode_isPlain (data : Bytes) : (Base64.encode data).all Json.isPlain = true := by
  apply List.all_eq_true.mpr
  intro c hc
  rcases Base64.encode_digits data c hc with hpad | ⟨n, hn, hdigit⟩
  · rw [hpad]
    decide
  · rw [hdigit]
    exact digit_isPlain n hn

section Items

variable {alpha : Type} {value : alpha} {encoder : alpha -> Except PyError Bytes}
  {maxItemBytes : Nat} {text : Str}

theorem pack_length_le (h : pack value encoder maxItemBytes = .ok text) :
    text.length ≤ 4 * ((maxItemBytes + 2) / 3) := by
  rcases pack_eq_ok_iff.mp h with ⟨_, data, _, hlength, htext⟩
  rw [htext, Base64.encode_length]
  omega

theorem render_item (h : pack value encoder maxItemBytes = .ok text) :
    (Json.render (.arr [.str text])).length ≤ 4 * ((maxItemBytes + 2) / 3) + 4 := by
  have hlength := pack_length_le h
  rcases pack_eq_ok_iff.mp h with ⟨_, data, _, _, htext⟩
  have hplain : text.all Json.isPlain = true := by
    rw [htext]
    exact encode_isPlain data
  rw [Json.render, List.length_cons, List.length_append, Json.render, Json.renderItems,
    Json.renderString_length_plain hplain, List.length_singleton]
  omega

theorem render_bool (b : Bool) : (Json.render (.bool b)).length ≤ 5 := by
  cases b with
  | false => decide
  | true => decide

/-- A message with little besides one item fits a frame. -/
theorem encodeMessage_item {config : NodeConfig} {packet : Packet} (hroom : config.AdmitsItems)
    (hvalid : packet.Valid)
    (hfields : Json.fieldsWidth packet.payload.fields ≤
      4 * ((config.maxItemBytes + 2) / 3) + 3200) :
    exists frame, encodeMessage packet.toMessage config.maxFrameBytes = .ok frame := by
  have hbody := body_le hvalid hfields
  unfold NodeConfig.AdmitsItems MAX_CONTROL_BYTES at hroom
  exact ⟨_, (encodeMessage_packet_eq_ok_iff hvalid).mpr ⟨by omega, rfl⟩⟩

theorem encodeMessage_batch {config : NodeConfig} {payload : BlocksPayload}
    {requestId : Option Str} (hroom : config.AdmitsItems)
    (hvalid : ({ payload := .blocks payload, requestId := requestId } : Packet).Valid)
    (hitem : payload.blocks = [text]) (hpack : pack value encoder config.maxItemBytes = .ok text) :
    exists frame, encodeMessage
      ({ payload := .blocks payload, requestId := requestId } : Packet).toMessage
      config.maxFrameBytes = .ok frame := by
  apply encodeMessage_item hroom hvalid
  have hblocks : (Json.render (.arr (payload.blocks.map Json.str))).length ≤
      4 * ((config.maxItemBytes + 2) / 3) + 4 := by
    rw [hitem]
    exact render_item hpack
  have hpayload : payload.Valid := hvalid.payload
  exact le_trans (fieldsWidth_cons_le (by decide) (render_hash hpayload.anchorHash).le
    (fieldsWidth_cons_le (by decide) (render_height hpayload.anchorHeight)
      (fieldsWidth_cons_le (by decide) hblocks
        (fieldsWidth_cons_le (by decide) (render_bool _)
          (fieldsWidth_cons_le (by decide) (render_hash hpayload.tipHash).le
            (fieldsWidth_cons_le (by decide) (render_height hpayload.tipHeight)
              fieldsWidth_nil)))))) (by omega)

end Items

end Network

end PyChain
