import PyChain.Network.Messages

/-!
# What the schemas accept

A message passes exactly when it carries the fields of its schema with values in
range; the order in which the fields stand does not matter.  Accepted messages
and the packets they are read as determine each other.
-/

namespace PyChain

open Foundation

namespace Network

structure Endpoint.Valid (endpoint : Endpoint) : Prop where
  host : exists address, localIPv4 endpoint.host = .ok address
  port_pos : 1 ≤ endpoint.port
  port_le : endpoint.port ≤ 65535

structure VersionPayload.Valid (payload : VersionPayload) : Prop where
  networkId : payload.networkId = NETWORK_ID
  genesisHash : isHash payload.genesisHash = true
  nodeId : isToken payload.nodeId = true
  connectionNonce : isToken payload.connectionNonce = true
  listenPort_pos : 1 ≤ payload.listenPort
  listenPort_le : payload.listenPort ≤ 65535
  height : payload.height ≤ MAX_HEIGHT
  tipHash : isHash payload.tipHash = true

structure StatusPayload.Valid (payload : StatusPayload) : Prop where
  height : payload.height ≤ MAX_HEIGHT
  tipHash : isHash payload.tipHash = true

structure GetBlocksPayload.Valid (payload : GetBlocksPayload) : Prop where
  anchorHeight : payload.anchorHeight ≤ MAX_HEIGHT
  anchorHash : isHash payload.anchorHash = true
  limit_pos : 1 ≤ payload.limit
  limit_le : payload.limit ≤ MAX_BLOCK_BATCH

structure BlocksPayload.Valid (payload : BlocksPayload) : Prop where
  anchorHeight : payload.anchorHeight ≤ MAX_HEIGHT
  anchorHash : isHash payload.anchorHash = true
  tipHeight : payload.tipHeight ≤ MAX_HEIGHT
  tipHash : isHash payload.tipHash = true
  length : payload.blocks.length ≤ MAX_BLOCK_BATCH
  items : forall block, block ∈ payload.blocks -> isItem block = true

structure GetMempoolPayload.Valid (payload : GetMempoolPayload) : Prop where
  cursor : payload.cursor ≤ MAX_HEIGHT
  tipHash : isHash payload.tipHash = true
  limit_pos : 1 ≤ payload.limit
  limit_le : payload.limit ≤ MAX_MEMPOOL_PAGE
  first : payload.snapshotId = none -> payload.cursor = 0
  snapshotId : forall token, payload.snapshotId = some token -> isToken token = true

structure MempoolPayload.Valid (payload : MempoolPayload) : Prop where
  cursor : payload.cursor ≤ MAX_HEIGHT
  nextCursor : payload.nextCursor ≤ MAX_HEIGHT
  tipHash : isHash payload.tipHash = true
  snapshotId : isToken payload.snapshotId = true
  length : payload.transactions.length ≤ MAX_MEMPOOL_PAGE
  items : forall transaction, transaction ∈ payload.transactions -> isItem transaction = true
  contiguous : payload.nextCursor = payload.cursor + payload.transactions.length
  progresses : payload.done = true ∨ payload.transactions ≠ []

def Payload.Valid : Payload -> Prop
  | version payload => payload.Valid
  | verack => True
  | getStatus => True
  | status payload => payload.Valid
  | getPeers => True
  | peers endpoints =>
      endpoints.length ≤ MAX_PEER_ENDPOINTS ∧
        forall endpoint, endpoint ∈ endpoints -> endpoint.Valid
  | newTransaction transaction => isItem transaction = true
  | newBlock block => isItem block = true
  | getBlocks payload => payload.Valid
  | blocks payload => payload.Valid
  | getMempool payload => payload.Valid
  | mempool payload => payload.Valid
  | ping nonce => isToken nonce = true
  | pong nonce => isToken nonce = true
  | error _ message => message.length ≤ 256

/-- The token is there when the type requires it, and only when it allows it. -/
def ValidId (kind : MessageType) : Option Str -> Prop
  | none => kind.requiresId = false
  | some token => (kind.requiresId || kind.allowsId) = true ∧ isToken token = true

structure Packet.Valid (packet : Packet) : Prop where
  payload : packet.payload.Valid
  requestId : ValidId packet.payload.type packet.requestId

/-- The listed fields are there with the listed values. -/
def Carries (fields canonical : List (Str × Json)) : Prop :=
  forall entry, entry ∈ canonical -> Codec.field fields entry.1 = .ok entry.2

theorem carries_nil (fields : List (Str × Json)) : Carries fields [] := by
  intro entry hentry
  cases hentry

theorem carries_cons {fields rest : List (Str × Json)} {key : Str} {value : Json} :
    Carries fields ((key, value) :: rest) <->
      Codec.field fields key = .ok value ∧ Carries fields rest :=
  List.forall_mem_cons

theorem field_eq_ok_iff {fields : List (Str × Json)} {key : Str} {value : Json} :
    Codec.field fields key = .ok value <-> Dict.lookupKey fields key = some value := by
  unfold Codec.field
  cases Dict.lookupKey fields key with
  | none => simp
  | some other => simp

theorem carries_self {fields : List (Str × Json)} (h : (fields.map Prod.fst).Nodup) :
    Carries fields fields := by
  intro entry hentry
  rw [field_eq_ok_iff]
  exact Dict.lookup_eq_some_of_mem h hentry

theorem Carries.mem {fields canonical : List (Str × Json)} (h : Carries fields canonical)
    {entry : Str × Json} (hentry : entry ∈ canonical) : entry ∈ fields :=
  Dict.mem_of_lookup_eq_some (field_eq_ok_iff.mp (h entry hentry))

theorem integer_eq_ok_iff {fields : List (Str × Json)} {name : String} {low high n : Nat} :
    integer fields name low high = .ok n <->
      Codec.field fields (str name) = .ok (.int n) ∧ low ≤ n ∧ n ≤ high := by
  unfold integer
  rw [bind_eq_ok_iff]
  constructor
  · intro h
    rcases h with ⟨value, hvalue, h⟩
    cases value with
    | int m =>
        rcases bind_eq_ok_iff.mp h with ⟨_, hrange, heq⟩
        have hbounds := require_eq_ok_iff.mp hrange
        have hn : m.toNat = n := Except.ok.inj heq
        have hm : m = (n : Int) := by
          omega
        rw [hm] at hvalue
        exact ⟨hvalue, by omega, by omega⟩
    | null => cases h
    | bool _ => cases h
    | str _ => cases h
    | arr _ => cases h
    | obj _ => cases h
  · intro h
    rcases h with ⟨hvalue, hlow, hhigh⟩
    refine ⟨_, hvalue, bind_eq_ok_iff.mpr ⟨(), require_eq_ok_iff.mpr ?_, rfl⟩⟩
    omega

theorem hex_eq_ok_iff {value : Json} {name : String} {pattern : Str -> Bool} {text : Str} :
    hex value name pattern = .ok text <-> value = .str text ∧ pattern text = true := by
  cases value with
  | str other =>
      unfold hex
      simp only [bind_eq_ok_iff, require_eq_ok_iff, Json.str.injEq]
      constructor
      · intro h
        rcases h with ⟨_, hpattern, heq⟩
        have hother : other = text := Except.ok.inj heq
        rw [hother] at hpattern
        exact ⟨hother, hpattern⟩
      · intro h
        rw [h.left]
        exact ⟨(), h.right, rfl⟩
  | null => simp [hex]
  | bool _ => simp [hex]
  | int _ => simp [hex]
  | arr _ => simp [hex]
  | obj _ => simp [hex]

theorem hashField_eq_ok_iff {fields : List (Str × Json)} {name : String} {text : Str} :
    hashField fields name = .ok text <->
      Codec.field fields (str name) = .ok (.str text) ∧ isHash text = true := by
  unfold hashField
  simp only [bind_eq_ok_iff, hex_eq_ok_iff]
  constructor
  · intro h
    rcases h with ⟨_, hvalue, rfl, hhash⟩
    exact ⟨hvalue, hhash⟩
  · intro h
    exact ⟨_, h.left, rfl, h.right⟩

theorem tokenField_eq_ok_iff {fields : List (Str × Json)} {name : String} {text : Str} :
    tokenField fields name = .ok text <->
      Codec.field fields (str name) = .ok (.str text) ∧ isToken text = true := by
  unfold tokenField
  simp only [bind_eq_ok_iff, hex_eq_ok_iff]
  constructor
  · intro h
    rcases h with ⟨_, hvalue, rfl, htoken⟩
    exact ⟨hvalue, htoken⟩
  · intro h
    exact ⟨_, h.left, rfl, h.right⟩

theorem boolean_eq_ok_iff {fields : List (Str × Json)} {name : String} {value : Bool} :
    boolean fields name = .ok value <->
      Codec.field fields (str name) = .ok (.bool value) := by
  unfold boolean
  rw [bind_eq_ok_iff]
  constructor
  · intro h
    rcases h with ⟨other, hother, h⟩
    cases other with
    | bool b =>
        have heq : b = value := Except.ok.inj h
        rw [heq] at hother
        exact hother
    | null => cases h
    | int _ => cases h
    | str _ => cases h
    | arr _ => cases h
    | obj _ => cases h
  · intro h
    exact ⟨_, h, rfl⟩

theorem item_eq_ok_iff {value : Json} {text : Str} :
    item value = .ok text <-> value = .str text ∧ isItem text = true := by
  cases value with
  | str other =>
      unfold item
      simp only [bind_eq_ok_iff, require_eq_ok_iff, Json.str.injEq]
      constructor
      · intro h
        rcases h with ⟨_, hitem, heq⟩
        have hother : other = text := Except.ok.inj heq
        rw [hother] at hitem
        exact ⟨hother, hitem⟩
      · intro h
        rw [h.left]
        exact ⟨(), h.right, rfl⟩
  | null => simp [item]
  | bool _ => simp [item]
  | int _ => simp [item]
  | arr _ => simp [item]
  | obj _ => simp [item]

theorem mapM_item_eq_ok_iff {values : List Json} {texts : List Str} :
    values.mapM item = .ok texts <->
      values = texts.map Json.str ∧ forall text, text ∈ texts -> isItem text = true := by
  rw [mapM_eq_ok_iff]
  constructor
  · intro h
    induction h with
    | nil =>
        refine ⟨rfl, ?_⟩
        intro text htext
        cases htext
    | cons hitem _ ih =>
        rcases item_eq_ok_iff.mp hitem with ⟨heq, hvalid⟩
        rw [heq, ih.left, List.map_cons, List.forall_mem_cons]
        exact ⟨rfl, hvalid, ih.right⟩
  · intro h
    rw [h.left, List.forall₂_map_left_iff, List.forall₂_same]
    intro text htext
    exact item_eq_ok_iff.mpr ⟨rfl, h.right text htext⟩

theorem items_eq_ok_iff {fields : List (Str × Json)} {name message : String} {maximum : Nat}
    {texts : List Str} :
    items fields name maximum message = .ok texts <->
      Codec.field fields (str name) = .ok (.arr (texts.map Json.str)) ∧
        texts.length ≤ maximum ∧ forall text, text ∈ texts -> isItem text = true := by
  unfold items
  rw [bind_eq_ok_iff]
  constructor
  · intro h
    rcases h with ⟨value, hvalue, h⟩
    cases value with
    | arr values =>
        rcases bind_eq_ok_iff.mp h with ⟨_, hlength, hitems⟩
        rcases mapM_item_eq_ok_iff.mp hitems with ⟨heq, hvalid⟩
        have hle := require_eq_ok_iff.mp hlength
        rw [heq] at hvalue hle
        rw [List.length_map] at hle
        exact ⟨hvalue, hle, hvalid⟩
    | null => cases h
    | bool _ => cases h
    | int _ => cases h
    | str _ => cases h
    | obj _ => cases h
  · intro h
    rcases h with ⟨hvalue, hlength, hvalid⟩
    refine ⟨_, hvalue, bind_eq_ok_iff.mpr ⟨(), require_eq_ok_iff.mpr ?_,
      mapM_item_eq_ok_iff.mpr ⟨rfl, hvalid⟩⟩⟩
    rw [List.length_map]
    exact hlength

theorem readItem_eq_ok_iff {fields : List (Str × Json)} {name : String} {text : Str} :
    readItem fields name = .ok text <->
      Codec.field fields (str name) = .ok (.str text) ∧ isItem text = true := by
  unfold readItem
  simp only [bind_eq_ok_iff, item_eq_ok_iff]
  constructor
  · intro h
    rcases h with ⟨_, hvalue, rfl, hitem⟩
    exact ⟨hvalue, hitem⟩
  · intro h
    exact ⟨_, h.left, rfl, h.right⟩

/-!
### One lemma for each schema
-/

theorem readVersion_eq_ok_iff {fields : List (Str × Json)} {payload : VersionPayload} :
    readVersion fields = .ok payload <->
      Carries fields (Payload.version payload).fields ∧ payload.Valid := by
  unfold readVersion
  simp only [bind_eq_ok_iff, integer_eq_ok_iff, hashField_eq_ok_iff, tokenField_eq_ok_iff,
    Payload.fields, carries_cons, carries_nil, and_true]
  constructor
  · intro h
    rcases h with ⟨height, ⟨hheight, _, hheight'⟩, genesis, ⟨hgenesis, hgenesis'⟩, tip,
      ⟨htip, htip'⟩, node, ⟨hnode, hnode'⟩, nonce, ⟨hnonce, hnonce'⟩, value, hvalue, h⟩
    cases value with
    | str networkId =>
        simp only [bind_eq_ok_iff, require_eq_ok_iff, integer_eq_ok_iff] at h
        rcases h with ⟨_, hnetwork, port, ⟨hport, hport', hport''⟩, heq⟩
        cases heq
        exact ⟨⟨hnonce, hgenesis, hheight, hport, hvalue, hnode, htip⟩, hnetwork, hgenesis',
          hnode', hnonce', hport', hport'', hheight', htip'⟩
    | null => cases h
    | bool _ => cases h
    | int _ => cases h
    | arr _ => cases h
    | obj _ => cases h
  · intro h
    rcases h with ⟨⟨hnonce, hgenesis, hheight, hport, hnetwork, hnode, htip⟩, hvalid⟩
    refine ⟨_, ⟨hheight, Nat.zero_le _, hvalid.height⟩, _, ⟨hgenesis, hvalid.genesisHash⟩, _,
      ⟨htip, hvalid.tipHash⟩, _, ⟨hnode, hvalid.nodeId⟩, _, ⟨hnonce, hvalid.connectionNonce⟩,
      _, hnetwork, ?_⟩
    simp only [bind_eq_ok_iff, require_eq_ok_iff, integer_eq_ok_iff]
    exact ⟨(), hvalid.networkId, _, ⟨hport, hvalid.listenPort_pos, hvalid.listenPort_le⟩, rfl⟩

theorem readStatus_eq_ok_iff {fields : List (Str × Json)} {payload : StatusPayload} :
    readStatus fields = .ok payload <->
      Carries fields (Payload.status payload).fields ∧ payload.Valid := by
  unfold readStatus
  simp only [bind_eq_ok_iff, integer_eq_ok_iff, hashField_eq_ok_iff, Payload.fields,
    carries_cons, carries_nil, and_true]
  constructor
  · intro h
    rcases h with ⟨height, ⟨hheight, _, hheight'⟩, tip, ⟨htip, htip'⟩, heq⟩
    cases heq
    exact ⟨⟨hheight, htip⟩, hheight', htip'⟩
  · intro h
    rcases h with ⟨⟨hheight, htip⟩, hvalid⟩
    exact ⟨_, ⟨hheight, Nat.zero_le _, hvalid.height⟩, _, ⟨htip, hvalid.tipHash⟩, rfl⟩

theorem readGetBlocks_eq_ok_iff {fields : List (Str × Json)} {payload : GetBlocksPayload} :
    readGetBlocks fields = .ok payload <->
      Carries fields (Payload.getBlocks payload).fields ∧ payload.Valid := by
  unfold readGetBlocks
  simp only [bind_eq_ok_iff, integer_eq_ok_iff, hashField_eq_ok_iff, Payload.fields,
    carries_cons, carries_nil, and_true]
  constructor
  · intro h
    rcases h with ⟨height, ⟨hheight, _, hheight'⟩, anchor, ⟨hanchor, hanchor'⟩, limit,
      ⟨hlimit, hlimit', hlimit''⟩, heq⟩
    cases heq
    exact ⟨⟨hanchor, hheight, hlimit⟩, hheight', hanchor', hlimit', hlimit''⟩
  · intro h
    rcases h with ⟨⟨hanchor, hheight, hlimit⟩, hvalid⟩
    exact ⟨_, ⟨hheight, Nat.zero_le _, hvalid.anchorHeight⟩, _, ⟨hanchor, hvalid.anchorHash⟩,
      _, ⟨hlimit, hvalid.limit_pos, hvalid.limit_le⟩, rfl⟩

theorem readBlocks_eq_ok_iff {fields : List (Str × Json)} {payload : BlocksPayload} :
    readBlocks fields = .ok payload <->
      Carries fields (Payload.blocks payload).fields ∧ payload.Valid := by
  unfold readBlocks
  simp only [bind_eq_ok_iff, integer_eq_ok_iff, hashField_eq_ok_iff, boolean_eq_ok_iff,
    items_eq_ok_iff, Payload.fields, carries_cons, carries_nil, and_true]
  constructor
  · intro h
    rcases h with ⟨_, ⟨hheight, _, hheight'⟩, _, ⟨htipHeight, _, htipHeight'⟩, _,
      ⟨htip, htip'⟩, _, ⟨hanchor, hanchor'⟩, _, hmore, _, ⟨hblocks, hlength, hitems⟩, heq⟩
    cases heq
    exact ⟨⟨hanchor, hheight, hblocks, hmore, htip, htipHeight⟩, hheight', hanchor',
      htipHeight', htip', hlength, hitems⟩
  · intro h
    rcases h with ⟨⟨hanchor, hheight, hblocks, hmore, htip, htipHeight⟩, hvalid⟩
    exact ⟨_, ⟨hheight, Nat.zero_le _, hvalid.anchorHeight⟩, _,
      ⟨htipHeight, Nat.zero_le _, hvalid.tipHeight⟩, _, ⟨htip, hvalid.tipHash⟩, _,
      ⟨hanchor, hvalid.anchorHash⟩, _, hmore, _, ⟨hblocks, hvalid.length, hvalid.items⟩, rfl⟩

theorem readGetMempool_eq_ok_iff {fields : List (Str × Json)} {payload : GetMempoolPayload} :
    readGetMempool fields = .ok payload <->
      Carries fields (Payload.getMempool payload).fields ∧ payload.Valid := by
  unfold readGetMempool
  simp only [bind_eq_ok_iff, integer_eq_ok_iff, hashField_eq_ok_iff, Payload.fields,
    carries_cons, carries_nil, and_true]
  constructor
  · intro h
    rcases h with ⟨_, ⟨hcursor, _, hcursor'⟩, _, ⟨htip, htip'⟩, _, ⟨hlimit, hlimit', hlimit''⟩,
      value, hvalue, h⟩
    cases value with
    | null =>
        simp only [bind_eq_ok_iff, require_eq_ok_iff] at h
        rcases h with ⟨_, hzero, heq⟩
        cases heq
        refine ⟨⟨hcursor, hlimit, hvalue, htip⟩, hcursor', htip', hlimit', hlimit'',
          fun _ => hzero, ?_⟩
        intro token htoken
        cases htoken
    | str text =>
        simp only [bind_eq_ok_iff, hex_eq_ok_iff, Json.str.injEq] at h
        rcases h with ⟨token, ⟨htoken, hvalid⟩, heq⟩
        cases heq
        subst htoken
        refine ⟨⟨hcursor, hlimit, hvalue, htip⟩, hcursor', htip', hlimit', hlimit'', ?_, ?_⟩
        · intro hnone
          cases hnone
        · intro other hother
          cases hother
          exact hvalid
    | bool _ =>
        rcases bind_eq_ok_iff.mp h with ⟨_, hhex, _⟩
        cases (hex_eq_ok_iff.mp hhex).left
    | int _ =>
        rcases bind_eq_ok_iff.mp h with ⟨_, hhex, _⟩
        cases (hex_eq_ok_iff.mp hhex).left
    | arr _ =>
        rcases bind_eq_ok_iff.mp h with ⟨_, hhex, _⟩
        cases (hex_eq_ok_iff.mp hhex).left
    | obj _ =>
        rcases bind_eq_ok_iff.mp h with ⟨_, hhex, _⟩
        cases (hex_eq_ok_iff.mp hhex).left
  · intro h
    rcases h with ⟨⟨hcursor, hlimit, hvalue, htip⟩, hvalid⟩
    refine ⟨_, ⟨hcursor, Nat.zero_le _, hvalid.cursor⟩, _, ⟨htip, hvalid.tipHash⟩, _,
      ⟨hlimit, hvalid.limit_pos, hvalid.limit_le⟩, _, hvalue, ?_⟩
    cases payload with
    | mk tipHash snapshotId cursor limit =>
        cases snapshotId with
        | none =>
            simp only [optionalText, bind_eq_ok_iff, require_eq_ok_iff]
            exact ⟨(), hvalid.first rfl, rfl⟩
        | some token =>
            simp only [optionalText, bind_eq_ok_iff, hex_eq_ok_iff]
            exact ⟨token, ⟨rfl, hvalid.snapshotId token rfl⟩, rfl⟩

theorem readMempool_eq_ok_iff {fields : List (Str × Json)} {payload : MempoolPayload} :
    readMempool fields = .ok payload <->
      Carries fields (Payload.mempool payload).fields ∧ payload.Valid := by
  unfold readMempool
  simp only [bind_eq_ok_iff, integer_eq_ok_iff, hashField_eq_ok_iff, tokenField_eq_ok_iff,
    boolean_eq_ok_iff, items_eq_ok_iff, require_eq_ok_iff, Payload.fields,
    carries_cons, carries_nil, and_true]
  constructor
  · intro h
    rcases h with ⟨_, ⟨hcursor, _, hcursor'⟩, _, ⟨hnext, _, hnext'⟩, _, ⟨htip, htip'⟩, _,
      hdone, _, ⟨htoken, htoken'⟩, _, ⟨hitems, hlength, hitems'⟩, _, hcontiguous, _,
      hprogress, heq⟩
    cases heq
    exact ⟨⟨hcursor, hdone, hnext, htoken, htip, hitems⟩, hcursor', hnext', htip', htoken',
      hlength, hitems', hcontiguous, hprogress⟩
  · intro h
    rcases h with ⟨⟨hcursor, hdone, hnext, htoken, htip, hitems⟩, hvalid⟩
    exact ⟨_, ⟨hcursor, Nat.zero_le _, hvalid.cursor⟩, _,
      ⟨hnext, Nat.zero_le _, hvalid.nextCursor⟩, _, ⟨htip, hvalid.tipHash⟩, _, hdone, _,
      ⟨htoken, hvalid.snapshotId⟩, _, ⟨hitems, hvalid.length, hvalid.items⟩, (),
      hvalid.contiguous, (), hvalid.progresses, rfl⟩

theorem ofText_text (code : ErrorCode) : ErrorCode.ofText code.text = some code := by
  cases code <;> decide

theorem text_of_ofText {text : Str} {code : ErrorCode} (h : ErrorCode.ofText text = some code) :
    text = code.text := by
  have hfound := List.find?_some h
  exact (of_decide_eq_true hfound).symm

theorem readError_eq_ok_iff {fields : List (Str × Json)} {code : ErrorCode} {message : Str} :
    readError fields = .ok (code, message) <->
      Carries fields (Payload.error code message).fields ∧ message.length ≤ 256 := by
  unfold readError
  simp only [bind_eq_ok_iff, Payload.fields, carries_cons, carries_nil, and_true]
  constructor
  · intro h
    rcases h with ⟨value, hvalue, h⟩
    cases value with
    | str text =>
        cases hcode : ErrorCode.ofText text with
        | none =>
            simp only [hcode] at h
            cases h
        | some found =>
            simp only [hcode, bind_eq_ok_iff] at h
            rcases h with ⟨other, hother, h⟩
            cases other with
            | str found' =>
                simp only [bind_eq_ok_iff, require_eq_ok_iff] at h
                rcases h with ⟨_, hlength, heq⟩
                cases heq
                rw [text_of_ofText hcode] at hvalue
                exact ⟨⟨hvalue, hother⟩, hlength⟩
            | null => cases h
            | bool _ => cases h
            | int _ => cases h
            | arr _ => cases h
            | obj _ => cases h
    | null => cases h
    | bool _ => cases h
    | int _ => cases h
    | arr _ => cases h
    | obj _ => cases h
  · intro h
    rcases h with ⟨⟨hcode, hmessage⟩, hlength⟩
    refine ⟨_, hcode, ?_⟩
    simp only [ofText_text, bind_eq_ok_iff]
    refine ⟨_, hmessage, ?_⟩
    simp only [bind_eq_ok_iff, require_eq_ok_iff]
    exact ⟨(), hlength, rfl⟩

theorem readEndpoint_sound {value : Json} {endpoint : Endpoint}
    (h : readEndpoint value = .ok endpoint) (hdistinct : Json.DistinctKeys value) :
    Json.sortKeys value = endpointDict endpoint ∧ endpoint.Valid := by
  unfold readEndpoint at h
  cases value with
  | obj fields =>
      simp only [bind_eq_ok_iff, require_eq_ok_iff] at h
      rcases h with ⟨_, hkeys, host, hhost, h⟩
      cases host with
      | str host =>
          cases haddress : localIPv4 host with
          | error e =>
              simp only [haddress] at h
              cases h
          | ok address =>
              simp only [haddress, bind_eq_ok_iff] at h
              rcases h with ⟨port, hport, h⟩
              cases port with
              | int port =>
                  simp only [bind_eq_ok_iff, require_eq_ok_iff] at h
                  rcases h with ⟨_, hrange, heq⟩
                  cases heq
                  rw [Json.DistinctKeys] at hdistinct
                  have hport' : ((port.toNat : Nat) : Int) = port := by
                    omega
                  constructor
                  · apply Json.sortKeys_obj_eq hdistinct.left
                    · intro key hkey
                      rw [← List.mem_toFinset, hkeys] at hkey
                      simpa [endpointDict] using hkey
                    · have hlt : str "host" < str "port" := by
                        decide
                      exact List.pairwise_pair.mpr hlt
                    · intro entry hentry
                      rcases List.mem_pair.mp hentry with heq | heq
                      · rw [heq]
                        exact ⟨_, Dict.mem_of_lookup_eq_some (field_eq_ok_iff.mp hhost), rfl⟩
                      · rw [heq]
                        simp only [hport']
                        exact ⟨_, Dict.mem_of_lookup_eq_some (field_eq_ok_iff.mp hport), rfl⟩
                  · constructor
                    · exact ⟨address, haddress⟩
                    · simp only
                      omega
                    · simp only
                      omega
              | null => cases h
              | bool _ => cases h
              | str _ => cases h
              | arr _ => cases h
              | obj _ => cases h
      | null => cases h
      | bool _ => cases h
      | int _ => cases h
      | arr _ => cases h
      | obj _ => cases h
  | null => cases h
  | bool _ => cases h
  | int _ => cases h
  | str _ => cases h
  | arr _ => cases h

theorem readEndpoint_endpointDict {endpoint : Endpoint} (h : endpoint.Valid) :
    readEndpoint (endpointDict endpoint) = .ok endpoint := by
  rcases h.host with ⟨address, haddress⟩
  unfold readEndpoint endpointDict
  simp only [bind_eq_ok_iff, require_eq_ok_iff]
  refine ⟨(), rfl, .str endpoint.host, rfl, ?_⟩
  simp only [haddress, bind_eq_ok_iff]
  refine ⟨.int endpoint.port, rfl, ?_⟩
  simp only [bind_eq_ok_iff, require_eq_ok_iff]
  refine ⟨(), ?_, rfl⟩
  have hpos := h.port_pos
  have hle := h.port_le
  omega

theorem readPeers_eq_ok_iff {fields : List (Str × Json)} {endpoints : List Endpoint} :
    readPeers fields = .ok endpoints <->
      exists values, Codec.field fields (str "peers") = .ok (.arr values) ∧
        values.length ≤ MAX_PEER_ENDPOINTS ∧ values.mapM readEndpoint = .ok endpoints := by
  unfold readPeers
  rw [bind_eq_ok_iff]
  constructor
  · intro h
    rcases h with ⟨value, hvalue, h⟩
    cases value with
    | arr values =>
        rcases bind_eq_ok_iff.mp h with ⟨_, hlength, hread⟩
        exact ⟨values, hvalue, require_eq_ok_iff.mp hlength, hread⟩
    | null => cases h
    | bool _ => cases h
    | int _ => cases h
    | str _ => cases h
    | obj _ => cases h
  · intro h
    rcases h with ⟨values, hvalue, hlength, hread⟩
    exact ⟨_, hvalue, bind_eq_ok_iff.mpr ⟨(), require_eq_ok_iff.mpr hlength, hread⟩⟩

theorem mapM_readEndpoint_sound {values : List Json} {endpoints : List Endpoint}
    (h : values.mapM readEndpoint = .ok endpoints) (hdistinct : Json.ItemsDistinct values) :
    Json.sortItems values = endpoints.map endpointDict ∧
      forall endpoint, endpoint ∈ endpoints -> endpoint.Valid := by
  rw [mapM_eq_ok_iff] at h
  induction h with
  | nil =>
      refine ⟨rfl, ?_⟩
      intro endpoint hendpoint
      cases hendpoint
  | cons hread _ ih =>
      rw [Json.ItemsDistinct] at hdistinct
      rcases readEndpoint_sound hread hdistinct.left with ⟨hsort, hvalid⟩
      rcases ih hdistinct.right with ⟨hrest, hvalids⟩
      rw [Json.sortItems, hsort, hrest, List.map_cons, List.forall_mem_cons]
      exact ⟨rfl, hvalid, hvalids⟩

/-!
### Payloads
-/

theorem sortItems_map_str (texts : List Str) :
    Json.sortItems (texts.map Json.str) = texts.map Json.str := by
  rw [Json.sortItems_eq_map, List.map_map]
  rfl

theorem sortItems_map_endpointDict (endpoints : List Endpoint) :
    Json.sortItems (endpoints.map endpointDict) = endpoints.map endpointDict := by
  rw [Json.sortItems_eq_map, List.map_map]
  rfl

theorem sortKeys_optionalText (text : Option Str) :
    Json.sortKeys (optionalText text) = optionalText text := by
  cases text with
  | none => rfl
  | some text => rfl

theorem sortKeys_fields (payload : Payload) :
    forall entry, entry ∈ payload.fields -> Json.sortKeys entry.2 = entry.2 := by
  cases payload <;>
    simp only [Payload.fields, List.forall_mem_cons, List.not_mem_nil, false_implies,
      implies_true, and_true, Json.sortKeys, sortItems_map_str, sortItems_map_endpointDict,
      sortKeys_optionalText]

theorem fields_keys (payload : Payload) :
    payload.fields.map Prod.fst = payload.type.schema := by
  cases payload <;> rfl

theorem schema_sorted (kind : MessageType) : kind.schema.Pairwise (fun a b => a < b) := by
  cases kind <;> decide

theorem fields_nodup (payload : Payload) : (payload.fields.map Prod.fst).Nodup := by
  rw [fields_keys]
  exact (schema_sorted payload.type).imp (fun hlt => ne_of_lt hlt)

theorem carries_fields (payload : Payload) : Carries payload.fields payload.fields :=
  carries_self (fields_nodup payload)

theorem readPayload_fields {payload : Payload} (h : payload.Valid) :
    readPayload payload.type payload.fields = .ok payload := by
  have hcarries := carries_fields payload
  cases payload with
  | version payload =>
      exact map_eq_ok_iff.mpr ⟨payload, readVersion_eq_ok_iff.mpr ⟨hcarries, h⟩, rfl⟩
  | verack => rfl
  | getStatus => rfl
  | status payload =>
      exact map_eq_ok_iff.mpr ⟨payload, readStatus_eq_ok_iff.mpr ⟨hcarries, h⟩, rfl⟩
  | getPeers => rfl
  | peers endpoints =>
      refine map_eq_ok_iff.mpr ⟨endpoints, readPeers_eq_ok_iff.mpr
        ⟨endpoints.map endpointDict, (carries_cons.mp hcarries).left, ?_, ?_⟩, rfl⟩
      · rw [List.length_map]
        exact h.left
      · apply mapM_map_eq_ok
        intro endpoint hendpoint
        exact readEndpoint_endpointDict (h.right endpoint hendpoint)
  | newTransaction transaction =>
      exact map_eq_ok_iff.mpr ⟨transaction,
        readItem_eq_ok_iff.mpr ⟨(carries_cons.mp hcarries).left, h⟩, rfl⟩
  | newBlock block =>
      exact map_eq_ok_iff.mpr ⟨block,
        readItem_eq_ok_iff.mpr ⟨(carries_cons.mp hcarries).left, h⟩, rfl⟩
  | getBlocks payload =>
      exact map_eq_ok_iff.mpr ⟨payload, readGetBlocks_eq_ok_iff.mpr ⟨hcarries, h⟩, rfl⟩
  | blocks payload =>
      exact map_eq_ok_iff.mpr ⟨payload, readBlocks_eq_ok_iff.mpr ⟨hcarries, h⟩, rfl⟩
  | getMempool payload =>
      exact map_eq_ok_iff.mpr ⟨payload, readGetMempool_eq_ok_iff.mpr ⟨hcarries, h⟩, rfl⟩
  | mempool payload =>
      exact map_eq_ok_iff.mpr ⟨payload, readMempool_eq_ok_iff.mpr ⟨hcarries, h⟩, rfl⟩
  | ping nonce =>
      exact map_eq_ok_iff.mpr ⟨nonce,
        tokenField_eq_ok_iff.mpr ⟨(carries_cons.mp hcarries).left, h⟩, rfl⟩
  | pong nonce =>
      exact map_eq_ok_iff.mpr ⟨nonce,
        tokenField_eq_ok_iff.mpr ⟨(carries_cons.mp hcarries).left, h⟩, rfl⟩
  | error code message =>
      exact map_eq_ok_iff.mpr ⟨(code, message),
        readError_eq_ok_iff.mpr ⟨hcarries, h⟩, rfl⟩

/-- The fields are there, up to the order of the keys inside them. -/
def Spells (fields canonical : List (Str × Json)) : Prop :=
  forall entry, entry ∈ canonical ->
    exists value, (entry.1, value) ∈ fields ∧ Json.sortKeys value = entry.2

theorem Carries.spells {fields : List (Str × Json)} {payload : Payload}
    (h : Carries fields payload.fields) : Spells fields payload.fields := by
  intro entry hentry
  exact ⟨entry.2, h.mem hentry, sortKeys_fields payload entry hentry⟩

theorem carries_single {fields : List (Str × Json)} {key : Str} {value : Json}
    (h : Codec.field fields key = .ok value) : Carries fields [(key, value)] :=
  carries_cons.mpr ⟨h, carries_nil fields⟩

theorem readPayload_sound {kind : MessageType} {fields : List (Str × Json)}
    {payload : Payload} (h : readPayload kind fields = .ok payload)
    (hdistinct : Json.DistinctKeys (.obj fields)) :
    payload.type = kind ∧ payload.Valid ∧ Spells fields payload.fields := by
  have hnone : Spells fields [] := by
    intro entry hentry
    cases hentry
  cases kind with
  | version =>
      rcases map_eq_ok_iff.mp h with ⟨payload, hread, rfl⟩
      rcases readVersion_eq_ok_iff.mp hread with ⟨hcarries, hvalid⟩
      exact ⟨rfl, hvalid, hcarries.spells⟩
  | verack =>
      cases h
      exact ⟨rfl, trivial, hnone⟩
  | getStatus =>
      cases h
      exact ⟨rfl, trivial, hnone⟩
  | status =>
      rcases map_eq_ok_iff.mp h with ⟨payload, hread, rfl⟩
      rcases readStatus_eq_ok_iff.mp hread with ⟨hcarries, hvalid⟩
      exact ⟨rfl, hvalid, hcarries.spells⟩
  | getPeers =>
      cases h
      exact ⟨rfl, trivial, hnone⟩
  | peers =>
      rcases map_eq_ok_iff.mp h with ⟨endpoints, hread, rfl⟩
      rcases readPeers_eq_ok_iff.mp hread with ⟨values, hvalue, hlength, hvalues⟩
      have hmem := Dict.mem_of_lookup_eq_some (field_eq_ok_iff.mp hvalue)
      rw [Json.DistinctKeys, Json.fieldsDistinct_iff] at hdistinct
      have hitems := hdistinct.right _ hmem
      rw [Json.DistinctKeys] at hitems
      rcases mapM_readEndpoint_sound hvalues hitems with ⟨hsort, hvalid⟩
      have hlength' : values.length = endpoints.length :=
        (mapM_eq_ok_iff.mp hvalues).length_eq
      refine ⟨rfl, ⟨by omega, hvalid⟩, ?_⟩
      intro entry hentry
      rw [List.mem_singleton.mp hentry]
      refine ⟨_, hmem, ?_⟩
      rw [Json.sortKeys, hsort]
  | newTransaction =>
      rcases map_eq_ok_iff.mp h with ⟨transaction, hread, rfl⟩
      rcases readItem_eq_ok_iff.mp hread with ⟨hvalue, hvalid⟩
      have hcarries : Carries fields (Payload.newTransaction transaction).fields := carries_single hvalue
      exact ⟨rfl, hvalid, hcarries.spells⟩
  | newBlock =>
      rcases map_eq_ok_iff.mp h with ⟨block, hread, rfl⟩
      rcases readItem_eq_ok_iff.mp hread with ⟨hvalue, hvalid⟩
      have hcarries : Carries fields (Payload.newBlock block).fields := carries_single hvalue
      exact ⟨rfl, hvalid, hcarries.spells⟩
  | getBlocks =>
      rcases map_eq_ok_iff.mp h with ⟨payload, hread, rfl⟩
      rcases readGetBlocks_eq_ok_iff.mp hread with ⟨hcarries, hvalid⟩
      exact ⟨rfl, hvalid, hcarries.spells⟩
  | blocks =>
      rcases map_eq_ok_iff.mp h with ⟨payload, hread, rfl⟩
      rcases readBlocks_eq_ok_iff.mp hread with ⟨hcarries, hvalid⟩
      exact ⟨rfl, hvalid, hcarries.spells⟩
  | getMempool =>
      rcases map_eq_ok_iff.mp h with ⟨payload, hread, rfl⟩
      rcases readGetMempool_eq_ok_iff.mp hread with ⟨hcarries, hvalid⟩
      exact ⟨rfl, hvalid, hcarries.spells⟩
  | mempool =>
      rcases map_eq_ok_iff.mp h with ⟨payload, hread, rfl⟩
      rcases readMempool_eq_ok_iff.mp hread with ⟨hcarries, hvalid⟩
      exact ⟨rfl, hvalid, hcarries.spells⟩
  | ping =>
      rcases map_eq_ok_iff.mp h with ⟨nonce, hread, rfl⟩
      rcases tokenField_eq_ok_iff.mp hread with ⟨hvalue, hvalid⟩
      have hcarries : Carries fields (Payload.ping nonce).fields := carries_single hvalue
      exact ⟨rfl, hvalid, hcarries.spells⟩
  | pong =>
      rcases map_eq_ok_iff.mp h with ⟨nonce, hread, rfl⟩
      rcases tokenField_eq_ok_iff.mp hread with ⟨hvalue, hvalid⟩
      have hcarries : Carries fields (Payload.pong nonce).fields := carries_single hvalue
      exact ⟨rfl, hvalid, hcarries.spells⟩
  | error =>
      rcases map_eq_ok_iff.mp h with ⟨pair, hread, rfl⟩
      rcases readError_eq_ok_iff.mp hread with ⟨hcarries, hvalid⟩
      exact ⟨rfl, hvalid, hcarries.spells⟩

/-!
### Messages
-/

/-- Equality of messages whose dictionaries have no order. -/
structure Message.Same (message other : Message) : Prop where
  type : Json.sortKeys message.type = Json.sortKeys other.type
  payload : Json.sortKeys message.payload = Json.sortKeys other.payload
  requestId : Json.sortKeys message.requestId = Json.sortKeys other.requestId
  version : Json.sortKeys message.version = Json.sortKeys other.version

theorem typeOfText_text (kind : MessageType) : MessageType.ofText kind.text = some kind := by
  cases kind <;> decide

theorem readType_eq_ok_iff {value : Json} {kind : MessageType} :
    readType value = .ok kind <-> value = .str kind.text := by
  constructor
  · intro h
    cases value with
    | str text =>
        unfold readType at h
        cases hkind : MessageType.ofText text with
        | none =>
            simp only [hkind] at h
            cases h
        | some found =>
            simp only [hkind] at h
            cases h
            have hfound := List.find?_some hkind
            rw [of_decide_eq_true hfound]
    | null => cases h
    | bool _ => cases h
    | int _ => cases h
    | arr _ => cases h
    | obj _ => cases h
  · intro h
    subst h
    simp only [readType, typeOfText_text]

theorem readRequestId_eq_ok_iff {kind : MessageType} {value : Json} {requestId : Option Str} :
    readRequestId kind value = .ok requestId <->
      value = optionalText requestId ∧ ValidId kind requestId := by
  cases value with
  | null =>
      unfold readRequestId
      cases hrequired : kind.requiresId with
      | true =>
          cases requestId with
          | none => simp [ValidId, hrequired]
          | some token => simp [optionalText]
      | false =>
          cases requestId with
          | none => simp [ValidId, hrequired, optionalText]
          | some token => simp [optionalText]
  | str text =>
      unfold readRequestId
      cases hallowed : kind.requiresId || kind.allowsId with
      | true =>
          cases requestId with
          | none => simp [hex, optionalText, map_eq_ok_iff]
          | some token =>
              simp [hallowed, map_eq_ok_iff, hex_eq_ok_iff, ValidId, optionalText]
      | false =>
          cases requestId with
          | none => simp [optionalText]
          | some token => simp [ValidId, hallowed]
  | bool value =>
      cases hallowed : kind.requiresId || kind.allowsId <;> cases requestId <;>
        simp [readRequestId, hallowed, optionalText, hex]
  | int value =>
      cases hallowed : kind.requiresId || kind.allowsId <;> cases requestId <;>
        simp [readRequestId, hallowed, optionalText, hex]
  | arr value =>
      cases hallowed : kind.requiresId || kind.allowsId <;> cases requestId <;>
        simp [readRequestId, hallowed, optionalText, hex]
  | obj value =>
      cases hallowed : kind.requiresId || kind.allowsId <;> cases requestId <;>
        simp [readRequestId, hallowed, optionalText, hex]

theorem validateMessage_eq_ok_iff {message : Message} {packet : Packet} :
    validateMessage message = .ok packet <->
      exists kind fields, message.version = .int PROTOCOL_VERSION ∧
        message.type = .str kind.text ∧ message.payload = .obj fields ∧
        (fields.map Prod.fst).toFinset = kind.schema.toFinset ∧
        message.requestId = optionalText packet.requestId ∧ ValidId kind packet.requestId ∧
        readPayload kind fields = .ok packet.payload := by
  unfold validateMessage
  constructor
  · intro h
    cases hversion : message.version with
    | int version =>
        simp only [hversion, bind_eq_ok_iff, require_eq_ok_iff, readType_eq_ok_iff] at h
        rcases h with ⟨_, hone, kind, hkind, h⟩
        cases hpayload : message.payload with
        | obj fields =>
            simp only [hpayload, bind_eq_ok_iff, require_eq_ok_iff,
              readRequestId_eq_ok_iff] at h
            rcases h with ⟨_, hkeys, requestId, ⟨hid, hvalid⟩, payload, hread, heq⟩
            cases heq
            exact ⟨kind, fields, by rw [hone], hkind, rfl, hkeys, hid, hvalid, hread⟩
        | null =>
            simp only [hpayload] at h
            cases h
        | bool _ =>
            simp only [hpayload] at h
            cases h
        | int _ =>
            simp only [hpayload] at h
            cases h
        | str _ =>
            simp only [hpayload] at h
            cases h
        | arr _ =>
            simp only [hpayload] at h
            cases h
    | null =>
        simp only [hversion] at h
        cases h
    | bool _ =>
        simp only [hversion] at h
        cases h
    | str _ =>
        simp only [hversion] at h
        cases h
    | arr _ =>
        simp only [hversion] at h
        cases h
    | obj _ =>
        simp only [hversion] at h
        cases h
  · intro h
    rcases h with ⟨kind, fields, hversion, hkind, hpayload, hkeys, hid, hvalid, hread⟩
    simp only [hversion, hpayload, bind_eq_ok_iff, require_eq_ok_iff, readType_eq_ok_iff,
      readRequestId_eq_ok_iff]
    exact ⟨(), trivial, kind, hkind, (), hkeys, packet.requestId, ⟨hid, hvalid⟩, packet.payload,
      hread, rfl⟩

theorem sortKeys_toMessage_payload (packet : Packet) :
    Json.sortKeys packet.toMessage.payload = packet.toMessage.payload := by
  apply Json.sortKeys_obj_eq (fields_nodup packet.payload)
  · intro key hkey
    exact hkey
  · rw [fields_keys]
    exact schema_sorted packet.payload.type
  · exact (carries_fields packet.payload).spells

theorem validateMessage_sound {message : Message} {packet : Packet}
    (h : validateMessage message = .ok packet)
    (hdistinct : Json.DistinctKeys message.payload) :
    message.Same packet.toMessage ∧ packet.Valid := by
  rcases validateMessage_eq_ok_iff.mp h with ⟨kind, fields, hversion, hkind, hpayload, hkeys,
    hid, hvalid, hread⟩
  rw [hpayload] at hdistinct
  rcases readPayload_sound hread hdistinct with ⟨htype, hpayloadValid, hspells⟩
  rw [Json.DistinctKeys] at hdistinct
  have hsorted : Json.sortKeys (.obj fields) = .obj packet.payload.fields := by
    apply Json.sortKeys_obj_eq hdistinct.left
    · intro key hkey
      rw [fields_keys, htype]
      rw [← List.mem_toFinset, hkeys, List.mem_toFinset] at hkey
      exact hkey
    · rw [fields_keys]
      exact schema_sorted packet.payload.type
    · exact hspells
  constructor
  · constructor
    · rw [hkind, Packet.toMessage, htype]
    · rw [hpayload, hsorted, sortKeys_toMessage_payload]
      rfl
    · rw [hid, Packet.toMessage]
    · rw [hversion, Packet.toMessage]
  · constructor
    · exact hpayloadValid
    · rw [htype]
      exact hvalid

theorem validateMessage_toMessage {packet : Packet} (h : packet.Valid) :
    validateMessage packet.toMessage = .ok packet := by
  rw [validateMessage_eq_ok_iff]
  refine ⟨packet.payload.type, packet.payload.fields, rfl, rfl, rfl, ?_, rfl, h.requestId,
    readPayload_fields h.payload⟩
  rw [fields_keys]

end Network

end PyChain
