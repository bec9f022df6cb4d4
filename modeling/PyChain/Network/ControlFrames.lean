import PyChain.Network.Moves

/-!
# Control messages are short

A message that carries no ledger item and no list of endpoints takes a few
kilobytes at most, so a frame limit that is not smaller never stops a node from
asking, answering or introducing itself.
-/

namespace PyChain

open Foundation

namespace Network

/-- A bound for the body of a control message. -/
def MAX_CONTROL_BYTES : Nat := 4096

/-!
## Values
-/

theorem render_token {token : Str} (h : isToken token = true) :
    (Json.render (.str token)).length = 34 := by
  unfold isToken at h
  rcases Bool.and_eq_true_iff.mp h with ⟨hlength, hhex⟩
  rw [Json.render, Json.renderString_length_lowerHex hhex, of_decide_eq_true hlength]

theorem render_hash {hash : Str} (h : isHash hash = true) :
    (Json.render (.str hash)).length = 66 := by
  unfold isHash at h
  rcases Bool.and_eq_true_iff.mp h with ⟨hlength, hhex⟩
  rw [Json.render, Json.renderString_length_lowerHex hhex, of_decide_eq_true hlength]

theorem render_height {height : Nat} (h : height ≤ MAX_HEIGHT) :
    (Json.render (.int height)).length ≤ 19 := by
  have hlt : height < 10 ^ 19 := lt_of_le_of_lt h (by decide)
  rw [Json.render]
  exact Json.renderInt_length_le (by decide) hlt

theorem render_small {n : Nat} (h : n < 10 ^ 5) : (Json.render (.int n)).length ≤ 5 := by
  rw [Json.render]
  exact Json.renderInt_length_le (by decide) h

theorem render_optionalToken {token : Option Str}
    (h : forall text, token = some text -> isToken text = true) :
    (Json.render (optionalText token)).length ≤ 34 := by
  cases token with
  | none => decide
  | some text => exact Nat.le_of_eq (render_token (h text rfl))

theorem render_errorCode (code : ErrorCode) : (Json.render (.str code.text)).length ≤ 21 := by
  cases code with
  | _ => decide

theorem render_type (kind : MessageType) : (Json.render (.str kind.text)).length ≤ 17 := by
  cases kind with
  | _ => decide

theorem render_text {text : Str} {length : Nat} (h : text.length ≤ length) :
    (Json.render (.str text)).length ≤ 12 * length + 2 := by
  have hbound := Json.renderString_length_le text
  rw [Json.render]
  omega

/-!
## Bodies
-/

theorem fieldsWidth_cons_le {key : Str} {value : Json} {rest : List (Str × Json)}
    {width total : Nat} (hkey : (Json.renderString key).length ≤ 18)
    (hvalue : (Json.render value).length ≤ width) (hrest : Json.fieldsWidth rest ≤ total) :
    Json.fieldsWidth ((key, value) :: rest) ≤ 20 + width + total := by
  unfold Json.fieldsWidth at *
  rw [List.map_cons, List.sum_cons]
  simp only
  omega

theorem fieldsWidth_nil : Json.fieldsWidth [] ≤ 0 :=
  Nat.le_refl 0

theorem control_fieldsWidth {payload : Payload} (hvalid : payload.Valid)
    (hcontrol : payload.type.isControl = true) : Json.fieldsWidth payload.fields ≤ 3200 := by
  cases payload with
  | version payload =>
      have hnetwork : (Json.render (.str payload.networkId)).length ≤ 20 := by
        rw [hvalid.networkId]
        decide
      have hport : payload.listenPort < 10 ^ 5 :=
        lt_of_le_of_lt hvalid.listenPort_le (by decide)
      exact le_trans (fieldsWidth_cons_le (by decide) (render_token hvalid.connectionNonce).le
        (fieldsWidth_cons_le (by decide) (render_hash hvalid.genesisHash).le
          (fieldsWidth_cons_le (by decide) (render_height hvalid.height)
            (fieldsWidth_cons_le (by decide) (render_small hport)
              (fieldsWidth_cons_le (by decide) hnetwork
                (fieldsWidth_cons_le (by decide) (render_token hvalid.nodeId).le
                  (fieldsWidth_cons_le (by decide) (render_hash hvalid.tipHash).le
                    fieldsWidth_nil))))))) (by decide)
  | status payload =>
      exact le_trans (fieldsWidth_cons_le (by decide) (render_height hvalid.height)
        (fieldsWidth_cons_le (by decide) (render_hash hvalid.tipHash).le fieldsWidth_nil))
        (by decide)
  | getBlocks payload =>
      have hlimit : payload.limit < 10 ^ 5 := lt_of_le_of_lt hvalid.limit_le (by decide)
      exact le_trans (fieldsWidth_cons_le (by decide) (render_hash hvalid.anchorHash).le
        (fieldsWidth_cons_le (by decide) (render_height hvalid.anchorHeight)
          (fieldsWidth_cons_le (by decide) (render_small hlimit) fieldsWidth_nil)))
        (by decide)
  | getMempool payload =>
      have hlimit : payload.limit < 10 ^ 5 := lt_of_le_of_lt hvalid.limit_le (by decide)
      exact le_trans (fieldsWidth_cons_le (by decide) (render_height hvalid.cursor)
        (fieldsWidth_cons_le (by decide) (render_small hlimit)
          (fieldsWidth_cons_le (by decide) (render_optionalToken hvalid.snapshotId)
            (fieldsWidth_cons_le (by decide) (render_hash hvalid.tipHash).le
              fieldsWidth_nil)))) (by decide)
  | ping nonce =>
      exact le_trans (fieldsWidth_cons_le (by decide) (render_token hvalid).le
        fieldsWidth_nil) (by decide)
  | pong nonce =>
      exact le_trans (fieldsWidth_cons_le (by decide) (render_token hvalid).le
        fieldsWidth_nil) (by decide)
  | error code message =>
      exact le_trans (fieldsWidth_cons_le (by decide) (render_errorCode code)
        (fieldsWidth_cons_le (by decide) (render_text hvalid) fieldsWidth_nil)) (by decide)
  | verack => exact Nat.zero_le _
  | getStatus => exact Nat.zero_le _
  | getPeers => exact Nat.zero_le _
  | peers _ => cases hcontrol
  | newTransaction _ => cases hcontrol
  | newBlock _ => cases hcontrol
  | blocks _ => cases hcontrol
  | mempool _ => cases hcontrol

theorem body_le {packet : Packet} (hvalid : packet.Valid) {width : Nat}
    (hfields : Json.fieldsWidth packet.payload.fields ≤ width) :
    packet.body.length ≤ width + 160 := by
  have htoken : forall text, packet.requestId = some text -> isToken text = true := by
    intro text htext
    have hid := hvalid.requestId
    rw [htext] at hid
    exact hid.right
  have hpayload : (Json.render packet.toMessage.payload).length ≤ width + 2 :=
    le_trans (Json.render_obj_length_le _) (Nat.add_le_add_right hfields 2)
  have hversion : (Json.render (.int PROTOCOL_VERSION)).length ≤ 1 := by decide
  unfold Packet.body
  rw [Json.serialize_length]
  unfold Json.dumps
  rw [envelope_canonical]
  refine le_trans (Json.render_obj_length_le _) (le_trans (Nat.add_le_add_right
    (fieldsWidth_cons_le (by decide) hpayload
      (fieldsWidth_cons_le (by decide) (render_optionalToken htoken)
        (fieldsWidth_cons_le (by decide) (render_type _)
          (fieldsWidth_cons_le (by decide) hversion fieldsWidth_nil)))) 2) (by omega))

theorem control_body_le {packet : Packet} (hvalid : packet.Valid)
    (hcontrol : packet.payload.type.isControl = true) :
    packet.body.length ≤ MAX_CONTROL_BYTES :=
  (body_le hvalid (control_fieldsWidth hvalid.payload hcontrol)).trans (by decide)

theorem NodeConfig.admitsControl {config : NodeConfig}
    (h : MAX_CONTROL_BYTES ≤ config.maxFrameBytes) : config.AdmitsControl := by
  intro packet hvalid hcontrol
  have hbody := control_body_le hvalid hcontrol
  refine ⟨_, (encodeMessage_packet_eq_ok_iff hvalid).mpr ⟨le_min (hbody.trans h) ?_, rfl⟩⟩
  exact hbody.trans (by decide)

end Network

end PyChain
