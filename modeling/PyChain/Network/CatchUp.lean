import PyChain.Network.ItemFrames
import PyChain.Network.Resilience

/-!
# Honest catch-up

A node that is behind asks an honest one for the blocks after its tip.  The batch it gets
is cut by count and by frame size, passes every check, and brings it at least one block
further, so repeating the request reaches the chain of the other node.
-/

namespace PyChain

open Foundation

namespace Network

/-!
## Only their size stops valid messages
-/

theorem encodeMessage_valid_error {packet : Packet} {maxFrameBytes : Nat} {e : PyError}
    (hvalid : packet.Valid) (hpos : 0 < maxFrameBytes)
    (h : encodeMessage packet.toMessage maxFrameBytes = .error e) :
    Node.isPolicyLimit e = true := by
  have hlimit : limit maxFrameBytes "max_frame_bytes" = .ok () := limit_eq_ok_iff.mpr hpos
  unfold encodeMessage at h
  rcases bind_eq_error_iff.mp h with h | ⟨_, _, h⟩
  · rw [hlimit] at h
    cases h
  rcases bind_eq_error_iff.mp h with h | ⟨_, _, h⟩
  · rw [validateMessage_toMessage hvalid] at h
    cases h
  rcases bind_eq_error_iff.mp h with h | ⟨_, _, h⟩
  · rw [(require_eq_error_iff.mp h).right]
    rfl
  · cases h

theorem BlocksPayload.Valid.extend {result : BlocksPayload} (h : result.Valid) {text : Str}
    (more : Bool) (hroom : result.blocks.length < MAX_BLOCK_BATCH) (hitem : isItem text = true) :
    ({ result with blocks := result.blocks ++ [text], more := more } : BlocksPayload).Valid := by
  refine ⟨h.anchorHeight, h.anchorHash, h.tipHeight, h.tipHash, ?_, ?_⟩
  · rw [List.length_append, List.length_singleton]
    omega
  · intro item hmem
    rcases List.mem_append.mp hmem with hold | hnew
    · exact h.items item hold
    · rw [List.mem_singleton.mp hnew]
      exact hitem

namespace Node

section Serving

variable [Crypto] {config : NodeConfig}

theorem packBlock_isItem {block : Block} {maxItemBytes : Nat} {text : Str}
    (h : packBlock block maxItemBytes = .ok text) : isItem text = true := by
  apply isItem_of_pack _ h
  intro hempty
  exact (block_decodes hempty).right.right rfl

/-- The texts are the packed blocks. -/
def Packs (config : NodeConfig) (blocks : List Block) (items : List Str) : Prop :=
  List.Forall₂ (fun block text => packBlock block config.maxItemBytes = .ok text) blocks items

theorem extendBatch_cases {requestId : Option Str} (height index : Nat) {block : Block}
    {result : BlocksPayload} {text : Str} (hid : ValidId .blocks requestId)
    (hvalid : result.Valid) (hroom : result.blocks.length < MAX_BLOCK_BATCH)
    (hpack : packBlock block config.maxItemBytes = .ok text) :
    ((exists frame, encodeMessage
          ({ payload := .blocks
               { result with
                 blocks := result.blocks ++ [text]
                 more := decide (index < height) }
             requestId := requestId } : Packet).toMessage config.maxFrameBytes = .ok frame) ∧
        extendBatch config requestId height index block result =
          .ok { result with
                blocks := result.blocks ++ [text]
                more := decide (index < height) }) ∨
      exists e, extendBatch config requestId height index block result = .error e ∧
        isPolicyLimit e = true := by
  have hpacket : ({ payload := .blocks
                      { result with
                        blocks := result.blocks ++ [text]
                        more := decide (index < height) }
                    requestId := requestId } : Packet).Valid :=
    ⟨hvalid.extend _ hroom (packBlock_isItem hpack), hid⟩
  unfold extendBatch
  rw [hpack]
  simp only [bind, Except.bind]
  cases hencode : encodeMessage
      ({ payload := .blocks
           { result with
             blocks := result.blocks ++ [text]
             more := decide (index < height) }
         requestId := requestId } : Packet).toMessage config.maxFrameBytes with
  | ok frame => exact Or.inl ⟨⟨frame, rfl⟩, rfl⟩
  | error e =>
      exact Or.inr ⟨e, rfl, encodeMessage_valid_error hpacket (frame_pos config) hencode⟩

theorem extendBatch_eq {requestId : Option Str} {height index : Nat} {block : Block}
    {result : BlocksPayload} {text : Str} {frame : Bytes}
    (hpack : packBlock block config.maxItemBytes = .ok text)
    (hencode : encodeMessage
      ({ payload := .blocks
           { result with
             blocks := result.blocks ++ [text]
             more := decide (index < height) }
         requestId := requestId } : Packet).toMessage config.maxFrameBytes = .ok frame) :
    extendBatch config requestId height index block result =
      .ok { result with
            blocks := result.blocks ++ [text]
            more := decide (index < height) } := by
  unfold extendBatch
  rw [hpack]
  simp only [bind, Except.bind, hencode]
  rfl

/-- The honest answer to a request that is anchored below the tip. -/
def batchOf (anchorHeight : Nat) (anchorHash : Str) (tipHeight : Nat) (tipHash : Str)
    (items : List Str) : BlocksPayload :=
  { anchorHeight := anchorHeight
    anchorHash := anchorHash
    tipHeight := tipHeight
    tipHash := tipHash
    blocks := items
    more := decide (anchorHeight + items.length < tipHeight) }

/-- Every block after the first can be packed, and a frame has room for it. -/
structure Fits (config : NodeConfig) (blocks : List Block) : Prop where
  room : config.AdmitsItems
  packs : forall block, block ∈ blocks.tail ->
    exists text, packBlock block config.maxItemBytes = .ok text

/-- The loop takes blocks from the front, at least one when the first fits, and what it
returns fits a frame. -/
theorem collectBlocks_takes {requestId : Option Str} {height : Nat}
    (hid : ValidId .blocks requestId) (blocks : List Block) :
    forall (index : Nat) (result : BlocksPayload), result.Valid ->
      result.blocks.length + blocks.length ≤ MAX_BLOCK_BATCH ->
      (forall block, block ∈ blocks ->
        exists text, packBlock block config.maxItemBytes = .ok text) ->
      (result.blocks = [] -> forall block, blocks.head? = some block ->
        exists trial, extendBatch config requestId height index block result = .ok trial) ->
      exists items more, Packs config (blocks.take items.length) items ∧
        items.length ≤ blocks.length ∧
        (result.blocks = [] -> blocks ≠ [] -> items ≠ []) ∧
        (items = [] -> more = result.more) ∧
        (items ≠ [] -> more = decide (index + items.length ≤ height) ∧
          exists frame, encodeMessage
            ({ payload := .blocks
                 { result with blocks := result.blocks ++ items, more := more }
               requestId := requestId } : Packet).toMessage config.maxFrameBytes = .ok frame) ∧
        collectBlocks config requestId height blocks index result =
          .ok (some { result with blocks := result.blocks ++ items, more := more }) := by
  induction blocks with
  | nil =>
      intro index result _ _ _ _
      refine ⟨[], result.more, List.Forall₂.nil, le_refl _, fun _ h => absurd rfl h, fun _ => rfl,
        fun h => absurd rfl h, ?_⟩
      rw [List.append_nil]
      rfl
  | cons block rest ih =>
      intro index result hvalid hroom hpacks hfirst
      rcases hpacks block List.mem_cons_self with ⟨text, hpack⟩
      rw [List.length_cons] at hroom
      rcases extendBatch_cases height index hid hvalid (by omega) hpack with
        ⟨hframe, hextend⟩ | ⟨e, hextend, hpolicy⟩
      · have htrial := hvalid.extend (decide (index < height)) (by omega)
          (packBlock_isItem hpack)
        rcases ih (index + 1) _ htrial (by
            rw [List.length_append, List.length_singleton]
            omega) (fun other hother => hpacks other (List.mem_cons_of_mem _ hother))
            (fun h => absurd h (by simp)) with
          ⟨items, more, hpacked, hlength, _, hnone, hsome, hcollect⟩
        refine ⟨text :: items, more, List.Forall₂.cons hpack hpacked, Nat.succ_le_succ hlength,
          fun _ _ => List.cons_ne_nil _ _, fun h => absurd h (List.cons_ne_nil _ _), ?_, ?_⟩
        · intro _
          cases items with
          | nil =>
              rw [hnone rfl]
              exact ⟨rfl, hframe⟩
          | cons next later =>
              rcases hsome (List.cons_ne_nil _ _) with ⟨hmore, hframes⟩
              rw [List.append_assoc] at hframes
              refine ⟨?_, hframes⟩
              rw [hmore, List.length_cons (a := text), Nat.add_right_comm, Nat.add_assoc]
        · unfold collectBlocks
          simp only [hextend]
          rw [hcollect, List.append_assoc]
          rfl
      · have hne : result.blocks ≠ [] := by
          intro hempty
          rcases hfirst hempty block rfl with ⟨trial, htrial⟩
          rw [hextend] at htrial
          cases htrial
        refine ⟨[], result.more, List.Forall₂.nil, Nat.zero_le _, fun h => absurd h hne,
          fun _ => rfl, fun h => absurd rfl h, ?_⟩
        unfold collectBlocks
        simp only [hextend]
        rw [if_pos hpolicy, if_neg hne, List.append_nil]

theorem blocksReply_serves {chain : Blockchain} {payload : GetBlocksPayload}
    {requestId : Option Str} {anchor : Block} {height : Nat} {tipHash : Str}
    (husable : Blockchain.ensureUsable chain = .ok ())
    (htip : TipIs chain height tipHash) (hheight : height ≤ MAX_HEIGHT)
    (hanchor : chain.blocks[payload.anchorHeight]? = some anchor)
    (hhash : anchor.hash = payload.anchorHash) (hbelow : payload.anchorHeight < height)
    (hpositive : 1 ≤ payload.limit) (hlimit : payload.limit ≤ MAX_BLOCK_BATCH)
    (hid : ValidId .blocks requestId) (hfits : Fits config chain.blocks) :
    exists items, items ≠ [] ∧ items.length ≤ payload.limit ∧
      payload.anchorHeight + items.length ≤ height ∧
      Packs config ((chain.blocks.drop (payload.anchorHeight + 1)).take items.length) items ∧
      (exists frame, encodeMessage
        ({ payload := .blocks
             (batchOf payload.anchorHeight payload.anchorHash height tipHash items)
           requestId := requestId } : Packet).toMessage config.maxFrameBytes = .ok frame) ∧
      blocksReply config chain payload requestId =
        .ok (.ok (batchOf payload.anchorHeight payload.anchorHash height tipHash items)) := by
  rcases htip with ⟨latest, hlast, hlength, hlatest⟩
  have hbound : payload.anchorHeight + 1 < chain.blocks.length := by omega
  have hlatestChain : chain.getLatestBlock = .ok latest := by
    unfold Blockchain.getLatestBlock
    rw [husable, hlast]
    rfl
  have hheightChain : chain.height = .ok (height : Int) := by
    rw [height_total husable, hlength]
    congr 1
    omega
  have hget : chain.getBlockByHeight payload.anchorHeight = .ok (some anchor) := by
    unfold Blockchain.getBlockByHeight
    rw [husable, ← hanchor]
    rfl
  generalize hcandidates : (chain.blocks.drop (payload.anchorHeight + 1)).take payload.limit =
    candidates
  have hcount : candidates.length ≤ payload.limit ∧
      candidates.length ≤ height - payload.anchorHeight := by
    rw [← hcandidates, List.length_take, List.length_drop, hlength]
    omega
  have hne : candidates ≠ [] := by
    intro hnil
    have hzero := congrArg List.length hnil
    rw [← hcandidates, List.length_take, List.length_drop, List.length_nil] at hzero
    omega
  have hpacks : forall block, block ∈ candidates ->
      exists text, packBlock block config.maxItemBytes = .ok text := by
    intro block hblock
    apply hfits.packs
    rw [← hcandidates] at hblock
    have hdrop := List.mem_of_mem_take hblock
    rw [← List.drop_tail] at hdrop
    exact List.mem_of_mem_drop hdrop
  have hvalid : ({ anchorHeight := payload.anchorHeight
                   anchorHash := payload.anchorHash
                   tipHeight := height
                   tipHash := tipHash
                   blocks := []
                   more := false } : BlocksPayload).Valid := by
    refine ⟨?_, ?_, hheight, ?_, Nat.zero_le _, ?_⟩
    · exact (Nat.le_of_lt hbelow).trans hheight
    · rw [← hhash]
      exact anchor.hash_isHash
    · rw [← hlatest]
      exact latest.hash_isHash
    · intro item hitem
      cases hitem
  have hfirst : forall block, candidates.head? = some block ->
      exists trial, extendBatch config requestId height (payload.anchorHeight + 1) block
        { anchorHeight := payload.anchorHeight
          anchorHash := payload.anchorHash
          tipHeight := height
          tipHash := tipHash
          blocks := []
          more := false } = .ok trial := by
    intro block hblock
    rcases hpacks block (List.mem_of_head? hblock) with ⟨text, hpack⟩
    have htrial := hvalid.extend (decide (payload.anchorHeight + 1 < height))
      (Nat.zero_lt_succ _) (packBlock_isItem hpack)
    rcases encodeMessage_batch hfits.room ⟨htrial, hid⟩ rfl hpack with ⟨frame, hframe⟩
    exact ⟨_, extendBatch_eq hpack hframe⟩
  rcases collectBlocks_takes hid candidates (payload.anchorHeight + 1) _ hvalid
      (by rw [List.length_nil, Nat.zero_add]; exact hcount.left.trans hlimit) hpacks
      (fun _ => hfirst) with
    ⟨items, more, hpacked, hlength, hprogress, _, hsome, hcollect⟩
  have hitems : items ≠ [] := hprogress rfl hne
  rcases hsome hitems with ⟨hmore, hframe⟩
  have hmore : more = decide (payload.anchorHeight + items.length < height) := by
    rw [hmore]
    congr 1
    apply propext
    omega
  rw [hmore] at hframe
  rw [List.nil_append] at hframe
  refine ⟨items, hitems, hlength.trans hcount.left, by omega, ?_, hframe, ?_⟩
  · rw [← hcandidates, List.take_take, Nat.min_eq_left (hlength.trans hcount.left)] at hpacked
    exact hpacked
  · unfold blocksReply
    rw [hget, hheightChain, hlatestChain]
    simp only [bind, Except.bind]
    rw [if_neg (not_not.mpr hhash), Int.toNat_natCast, hcandidates, hlatest, hcollect]
    rfl

/-- The answer of a server always fits a frame, so that sending it raises nothing. -/
theorem serveBlocks_answers {disk : Type} {server : Node disk} {id : Str}
    {payload : GetBlocksPayload} {requestId : Option Str} {anchor : Block} {height : Nat}
    {tipHash : Str} (husable : Blockchain.ensureUsable server.chain = .ok ())
    (htip : TipIs server.chain height tipHash) (hheight : height ≤ MAX_HEIGHT)
    (hanchor : server.chain.blocks[payload.anchorHeight]? = some anchor)
    (hhash : anchor.hash = payload.anchorHash) (hbelow : payload.anchorHeight < height)
    (hpayload : payload.Valid) (hid : ValidId .blocks requestId)
    (hfits : Fits server.config server.chain.blocks) :
    exists items, items ≠ [] ∧
      (exists frame, encodeMessage
        ({ payload := .blocks
             (batchOf payload.anchorHeight payload.anchorHash height tipHash items)
           requestId := requestId } : Packet).toMessage server.config.maxFrameBytes =
          .ok frame) ∧
      serveBlocks id payload requestId server =
        (discard (send id
          { payload := .blocks
              (batchOf payload.anchorHeight payload.anchorHash height tipHash items)
            requestId := requestId }) : NodeM disk Unit) server := by
  rcases blocksReply_serves husable htip hheight hanchor hhash hbelow hpayload.limit_pos
      hpayload.limit_le hid hfits with
    ⟨items, hitems, _, _, _, hframe, hreply⟩
  refine ⟨items, hitems, hframe, ?_⟩
  unfold serveBlocks
  rw [run_bind_ok (rfl : (get : NodeM disk (Node disk)) server = .ok server server), hreply]
  rfl

end Serving

/-!
## Passing messages on
-/

section Taking

variable {disk : Type} [Crypto] {store : Option (ChainStore disk)} {node next : Node disk}

/-- What messages to others leave alone. -/
structure Kept (node next : Node disk) : Prop where
  chain : next.chain = node.chain
  config : next.config = node.config
  keys : next.sessions.keys = node.sessions.keys

omit [Crypto] in
theorem Kept.refl (node : Node disk) : Kept node node :=
  ⟨rfl, rfl, rfl⟩

omit [Crypto] in
theorem Kept.trans {middle : Node disk} (h : Kept node middle) (h' : Kept middle next) :
    Kept node next :=
  ⟨h'.chain.trans h.chain, h'.config.trans h.config, h'.keys.trans h.keys⟩

omit [Crypto] in
theorem kept_replace (node : Node disk) (id : Str) (session : Session) :
    Kept node (node.replace id session) :=
  ⟨rfl, rfl, Dict.keys_modify _ _ _⟩

theorem kept_of_calm {input : EventKind}
    (h : Relation.ReflTransGen (Calm store input) node next) : Kept node next := by
  have hmoves : Relation.ReflTransGen (Move store input) node next :=
    h.lift id (fun _ _ hstep => hstep.left)
  have hsteady : Steady node next := moves_steady hmoves
  exact ⟨calm_chain h, hsteady.config, hsteady.keys⟩

variable {id : Str} {packet : Packet} {raised : PyError -> Node disk -> Prop}

omit [Crypto] in
theorem send_kept (hid : id ∈ node.sessions.keys) :
    Leads Any (send id packet) node (fun _ next => Kept node next)
      (fun e next => next = node ∧
        encodeMessage packet.toMessage node.config.maxFrameBytes = .error e) := by
  rcases Dict.exists_get?_of_mem_keys hid with ⟨known, hknown⟩
  have hsend : Leads (Talk (fun _ _ _ _ => True)) (send id packet) node _ _ :=
    send_leads hknown trivial
  refine (hsend.weaken ?_ (fun _ _ _ h => h)).along (fun _ _ => any_step _ _)
  intro _ next hmoves _
  exact ⟨(talk_apart hmoves).chain, (talk_steady hmoves).config, (talk_steady hmoves).keys⟩

omit [Crypto] in
theorem broadcast_kept {source : Option Str} (hvalid : packet.Valid) :
    Leads Any (broadcast packet source) node (fun _ next => Kept node next) raised := by
  unfold broadcast
  apply leads_get_bind
  refine leads_forM (Kept.refl node) ?_
  intro id hid middle _ hkept
  have hmiddle : id ∈ middle.sessions.keys := by
    rw [hkept.keys]
    exact hid
  rcases Dict.exists_get?_of_mem_keys hmiddle with ⟨known, hknown⟩
  unfold broadcastTo
  apply leads_session_bind hknown
  apply leads_ite
  · intro _
    refine leads_loggingPolicyLimit ((send_kept hmiddle).discard.weaken
      (fun _ _ _ h => hkept.trans h) (fun _ _ _ h => h)) ?_ ?_
    · rintro _ next _ ⟨hnext, _⟩
      rw [hnext]
      exact hkept
    · rintro e _ _ ⟨_, hencode⟩ hpolicy
      rw [encodeMessage_valid_error hvalid (frame_pos _) hencode] at hpolicy
      cases hpolicy
  · intro _
    exact leads_pure hkept

omit [Crypto] in
theorem request_kept {env : Env} {request : Request} (hid : id ∈ node.sessions.keys)
    (hadmits : node.config.AdmitsControl) (hvalid : request.payload.Valid) :
    Leads Any (Node.request env id request) node (fun _ next => Kept node next) raised := by
  rcases Dict.exists_get?_of_mem_keys hid with ⟨known, hknown⟩
  unfold Node.request
  apply leads_get_bind
  apply leads_session_bind hknown
  apply leads_ite
  · intro _
    exact leads_pure (Kept.refl node)
  intro _
  refine leads_drawToken_bind trivial ?_
  generalize hdrew : ({ node with drawn := node.drawn + 1 } : Node disk) = drew
  have hkept : Kept node drew := by
    rw [← hdrew]
    exact ⟨rfl, rfl, rfl⟩
  have hid' : id ∈ drew.sessions.keys := by
    rw [hkept.keys]
    exact hid
  refine leads_bind ((send_kept hid').weaken (fun _ _ _ h => h) ?_) ?_
  · rintro e _ _ ⟨_, hencode⟩
    rw [hkept.config] at hencode
    rcases hadmits _ (request_valid hvalid (node.entropy.token_valid _))
      (request_isControl request) with ⟨frame, hframe⟩
    have hboth := hframe.symm.trans hencode
    cases hboth
  · intro sent later _ hlater
    apply leads_ite
    · intro _
      have hid'' : id ∈ later.sessions.keys := by
        rw [hlater.keys]
        exact hid'
      rcases Dict.exists_get?_of_mem_keys hid'' with ⟨session, hsession⟩
      refine leads_modifySession_bind hsession (any_step _ _) (leads_pure ?_)
      exact (hkept.trans hlater).trans (kept_replace _ _ _)
    · intro _
      exact leads_pure (hkept.trans hlater)

theorem tipChanged_kept :
    Leads Any tipChanged node (fun _ next => Kept node next) raised := by
  have hcalm : Leads (Calm none .tick) tipChanged node (fun _ _ => True) raised :=
    tipChanged_leads
  exact (hcalm.weaken (fun _ _ hmoves _ => kept_of_calm hmoves) (fun _ _ _ h => h)).along
    (fun _ _ => any_step _ _)

theorem tip_run {height : Nat} {tipHash : Str}
    (husable : Blockchain.ensureUsable node.chain = .ok ())
    (htip : TipIs node.chain height tipHash) : tip node = .ok (height, tipHash) node := by
  rcases htip with ⟨latest, hlast, hlength, rfl⟩
  have hlatestChain : node.chain.getLatestBlock = .ok latest := by
    unfold Blockchain.getLatestBlock
    rw [husable, hlast]
    rfl
  have hheight : node.chain.height = .ok (height : Int) := by
    rw [height_total husable, hlength]
    congr 1
    omega
  unfold tip
  rw [run_bind_ok (rfl : (get : NodeM disk (Node disk)) node = .ok node node), hheight,
    hlatestChain]
  rfl

/-!
## Taking blocks
-/

def Broken (_ : PyError) (node : Node disk) : Prop :=
  Blockchain.ensureUsable node.chain ≠ .ok ()

/-- What is left of a node when it has taken blocks. -/
structure Takes (blocks : List Block) (node next : Node disk) : Prop where
  usable : Blockchain.ensureUsable next.chain = .ok ()
  valid : exists tip, ValidChain next.chain.blocks tip next.chain.state
  blocks : next.chain.blocks = node.chain.blocks ++ blocks
  config : next.config = node.config
  keys : next.sessions.keys = node.sessions.keys

theorem Takes.trans {middle : Node disk} {blocks more : List Block}
    (h : Takes blocks node middle) (h' : Takes more middle next) :
    Takes (blocks ++ more) node next := by
  refine ⟨h'.usable, h'.valid, ?_, h'.config.trans h.config, h'.keys.trans h.keys⟩
  rw [h'.blocks, h.blocks, List.append_assoc]

theorem Takes.kept {middle : Node disk} {blocks : List Block} (h : Takes blocks node middle)
    (h' : Kept middle next) : Takes blocks node next := by
  refine ⟨?_, ?_, ?_, h'.config.trans h.config, h'.keys.trans h.keys⟩
  · rw [h'.chain]
    exact h.usable
  · rw [h'.chain]
    exact h.valid
  · rw [h'.chain]
    exact h.blocks

theorem Takes.after {middle : Node disk} {blocks : List Block} (h : Takes blocks middle next)
    (h' : Kept node middle) : Takes blocks node next := by
  refine ⟨h.usable, h.valid, ?_, h.config.trans h'.config, h.keys.trans h'.keys⟩
  rw [h.blocks, h'.chain]

theorem addBlock_takes {block tip : Block} {after : ChainState} {wallClock : Nat}
    (husable : Blockchain.ensureUsable node.chain = .ok ())
    (hvalid : exists tip, ValidChain node.chain.blocks tip node.chain.state)
    (hnext : ValidChain (node.chain.blocks ++ [block]) tip after)
    (htimely : block.timestamp ≤ (wallClock : Int) + MAX_FUTURE_BLOCK_TIME) :
    Leads Any
      (performCall store (.addBlock block { currentTime := none, wallClock := wallClock })) node
      (fun accepted next => accepted = true ∧ Takes [block] node next) Broken := by
  rcases hvalid with ⟨last, hvalid⟩
  rcases hnext.snoc_inv hvalid.ne_nil with
    ⟨previous, state, hprevious, _, hlinked, happly, hfresh⟩
  rcases hvalid.deterministic hprevious with ⟨rfl, rfl⟩
  have hclock : resolveCurrentTime { currentTime := none, wallClock := wallClock } =
      .ok (wallClock : Int) := rfl
  have hvalidate := (validateAndApplyBlock_eq_ok_some_iff block last node.chain.state after
    hclock).mpr ⟨hlinked, htimely, happly⟩
  have hany : ¬ node.chain.blocks.any (fun existing => existing.hash = block.hash) = true := by
    intro hany
    rcases List.any_eq_true.mp hany with ⟨other, hother, heq⟩
    exact hfresh other hother (by simpa using heq)
  have hprepare : exists mempool, Blockchain.prepare (Blockchain.live node.chain)
      (.addBlock block { currentTime := none, wallClock := wallClock }) =
        .ok (some
          ({ blocks := node.chain.blocks ++ [block], state := after, mempool := mempool },
            some block)) := by
    refine ⟨node.chain.mempool.revalidated after.utxoSet after.seenTxids, ?_⟩
    unfold Blockchain.prepare Blockchain.live
    simp only [hvalid.getLast?, hvalidate, if_neg hany]
  rcases hprepare with ⟨mempool, hprepare⟩
  have hperform := Blockchain.perform_eq store
    (.addBlock block { currentTime := none, wallClock := wallClock }) node.chain node.disk husable
  rw [hprepare] at hperform
  simp only at hperform
  have hrun : performCall store
      (.addBlock block { currentTime := none, wallClock := wallClock }) node = _ :=
    performCall_run _
  rcases Blockchain.commitTrue_answer store node.chain
      { blocks := node.chain.blocks ++ [block], state := after, mempool := mempool } (some block)
      node.disk with ⟨htrue, hlive⟩ | ⟨⟨e, he⟩, _⟩
  · have hworks := Blockchain.commitTrue_usable store husable htrue
    rw [← hperform] at htrue hlive hworks
    rw [htrue] at hrun
    have hblocks := congrArg Blockchain.Live.blocks hlive
    have hstate := congrArg Blockchain.Live.state hlive
    refine leads_of_ok hrun (any_step _ _) ⟨rfl, hworks, ⟨tip, ?_⟩, hblocks, rfl, rfl⟩
    have hlast : ValidChain
        (Blockchain.live (Blockchain.perform store
          (.addBlock block { currentTime := none, wallClock := wallClock }) node.chain
          node.disk).2.1).blocks tip
        (Blockchain.live (Blockchain.perform store
          (.addBlock block { currentTime := none, wallClock := wallClock }) node.chain
          node.disk).2.1).state := by
      rw [hblocks, hstate]
      exact hnext
    exact hlast
  · have hfailed := Blockchain.commitTrue_raises store he
    rw [← hperform] at he hfailed
    rw [he] at hrun
    refine leads_of_error hrun (any_step _ _) ?_
    intro hok
    have hworks := ((Blockchain.ensureUsable_eq_ok_iff _).mp hok).right
    have hboth := hfailed.symm.trans hworks
    cases hboth

theorem announce_kept {block : Block} {text : Str} {source : Option Str} {height : Nat}
    {tipHash : Str} (husable : Blockchain.ensureUsable node.chain = .ok ())
    (htip : TipIs node.chain height tipHash) (hheight : height ≤ MAX_HEIGHT)
    (hpack : packBlock block node.config.maxItemBytes = .ok text) :
    Leads Any
      (do
        modifyCounters (fun counters =>
          { counters with blocksAccepted := counters.blocksAccepted + 1 })
        tipChanged
        let node <- get
        loggingPolicyLimit do
          let encoded <- lift (packBlock block node.config.maxItemBytes)
          broadcast { payload := .newBlock encoded, requestId := none } source
        let status <- statusPayload
        broadcast { payload := .status status, requestId := none } none
        return true) node
      (fun accepted next => accepted = true ∧ Kept node next) raised := by
  refine leads_modify_bind (any_step _ _) ?_
  generalize hcounted : ({ node with counters := _ } : Node disk) = counted
  have hcounts : Kept node counted := by
    rw [← hcounted]
    exact ⟨rfl, rfl, rfl⟩
  refine leads_bind tipChanged_kept ?_
  intro _ changed _ hchanged
  have hbefore : Kept node changed := hcounts.trans hchanged
  apply leads_get_bind
  have hitem : ({ payload := .newBlock text, requestId := none } : Packet).Valid :=
    ⟨packBlock_isItem hpack, rfl⟩
  have hrelay : Leads Any
      (loggingPolicyLimit do
        let encoded <- lift (packBlock block changed.config.maxItemBytes)
        broadcast { payload := .newBlock encoded, requestId := none } source) changed
      (fun _ next => Kept changed next) raised := by
    rw [hbefore.config, hpack]
    have hbroadcast : Leads Any
        (broadcast { payload := .newBlock text, requestId := none } source) changed
        (fun _ next => Kept changed next) (fun _ _ => False) := broadcast_kept hitem
    exact leads_loggingPolicyLimit hbroadcast (fun _ _ _ h => h.elim) (fun _ _ _ h => h.elim)
  refine leads_bind hrelay ?_
  intro _ relayed _ hrelayed
  have hafter : Kept node relayed := hbefore.trans hrelayed
  have hrun : tip relayed = .ok (height, tipHash) relayed := by
    apply tip_run
    · rw [hafter.chain]
      exact husable
    · rw [hafter.chain]
      exact htip
  have hstatus : (statusPayload : NodeM disk StatusPayload) relayed =
      .ok { height := height, tipHash := tipHash } relayed := by
    unfold statusPayload
    rw [run_bind_ok hrun]
    rfl
  have htold : Leads Any statusPayload relayed
      (fun status next => status = { height := height, tipHash := tipHash } ∧ next = relayed)
      raised := leads_of_ok hstatus (any_step _ _) ⟨rfl, rfl⟩
  refine leads_bind htold ?_
  rintro _ _ _ ⟨rfl, rfl⟩
  have hhash : isHash tipHash = true := by
    rcases htip with ⟨latest, _, _, rfl⟩
    exact latest.hash_isHash
  have hvalid : ({ payload := .status { height := height, tipHash := tipHash }
                   requestId := none } : Packet).Valid := ⟨⟨hheight, hhash⟩, rfl⟩
  refine leads_bind (broadcast_kept hvalid) ?_
  intro _ next _ hnext
  exact leads_pure ⟨rfl, hafter.trans hnext⟩

theorem linked_tip {chain : Blockchain} {block tip : Block} {after : ChainState}
    (hvalid : exists tip, ValidChain chain.blocks tip chain.state)
    (hnext : ValidChain (chain.blocks ++ [block]) tip after) :
    exists height, TipIs chain height block.previousBlockHash := by
  rcases hvalid with ⟨last, hvalid⟩
  rcases hnext.snoc_inv hvalid.ne_nil with ⟨previous, state, hprevious, _, hlinked, _, _⟩
  have hlength := List.length_pos_iff.mpr hvalid.ne_nil
  exact ⟨chain.blocks.length - 1, previous, hprevious.getLast?, by omega,
    hlinked.previousHash.symm⟩

theorem acceptBlock_takes {env : Env} {block tip : Block} {after : ChainState} {text : Str}
    {source : Option Str} (husable : Blockchain.ensureUsable node.chain = .ok ())
    (hvalid : exists tip, ValidChain node.chain.blocks tip node.chain.state)
    (hnext : ValidChain (node.chain.blocks ++ [block]) tip after)
    (htimely : block.timestamp ≤ (env.wallClock : Int) + MAX_FUTURE_BLOCK_TIME)
    (hheight : node.chain.blocks.length ≤ MAX_HEIGHT)
    (hpack : packBlock block node.config.maxItemBytes = .ok text) :
    Leads Any (acceptBlock store env block source) node
      (fun accepted next => accepted = true ∧ Takes [block] node next) Broken := by
  rcases linked_tip hvalid hnext with ⟨height, htip⟩
  have hcurrent : Leads Any Node.tip node
      (fun current next => current = (height, block.previousBlockHash) ∧ next = node) Broken :=
    leads_of_ok (tip_run husable htip) (any_step _ _) ⟨rfl, rfl⟩
  unfold acceptBlock
  refine leads_bind hcurrent ?_
  rintro _ same _ ⟨rfl, hsame⟩
  rw [hsame, if_neg (not_not.mpr rfl)]
  refine leads_bind (addBlock_takes husable hvalid hnext htimely) ?_
  rintro _ called _ ⟨rfl, htakes⟩
  rw [if_pos rfl]
  have htip' : TipIs called.chain node.chain.blocks.length block.hash := by
    refine ⟨block, ?_, ?_, rfl⟩
    · rw [htakes.blocks, List.getLast?_concat]
    · rw [htakes.blocks, List.length_append, List.length_singleton]
  rw [← htakes.config] at hpack
  refine (announce_kept htakes.usable htip' hheight hpack).weaken ?_ (fun _ _ _ h => h)
  rintro _ next _ ⟨hanswer, hkept⟩
  exact ⟨hanswer, htakes.kept hkept⟩

theorem acceptBatch_takes {env : Env} {ledger : List Block} {tip : Block} {state : ChainState}
    (hledger : ValidChain ledger tip state)
    (htimely : TimelyAt (env.wallClock : Int) ledger) (hlength : ledger.length ≤ MAX_HEIGHT + 1)
    {config : NodeConfig} {blocks : List Block} {items : List Str}
    (hpacks : Packs config blocks items) :
    forall node : Node disk, node.config = config ->
      Blockchain.ensureUsable node.chain = .ok () ->
      (exists tip, ValidChain node.chain.blocks tip node.chain.state) ->
      node.chain.blocks ++ blocks <+: ledger ->
      Leads Any (acceptBatch store env id items) node
        (fun accepted next => accepted = true ∧ Takes blocks node next) Broken := by
  induction hpacks with
  | nil =>
      intro node _ husable hvalid _
      exact leads_pure ⟨rfl, husable, hvalid, (List.append_nil _).symm, rfl, rfl⟩
  | @cons block text blocks items hpack _ ih =>
      intro node hconfig husable hvalid hprefix
      rw [List.append_cons] at hprefix
      rcases hprefix with ⟨rest, hsplit⟩
      rw [List.append_assoc] at hsplit
      rcases hledger.take (node.chain.blocks ++ [block]) _ hsplit.symm (by simp) with
        ⟨last, after, hnext⟩
      have hpositive : node.chain.blocks ≠ [] := by
        rcases hvalid with ⟨_, hvalid⟩
        exact hvalid.ne_nil
      have hblock : block ∈ ledger.tail := by
        rw [← hsplit, List.append_assoc, List.tail_append_of_ne_nil hpositive]
        simp
      have hheight : node.chain.blocks.length ≤ MAX_HEIGHT := by
        rw [← hsplit, List.length_append, List.length_append, List.length_singleton] at hlength
        omega
      rw [← hconfig] at hpack
      have haccept : Leads Any (acceptBlock store env block (some id)) node _ Broken :=
        acceptBlock_takes husable hvalid hnext (htimely block hblock) hheight hpack
      have hlinked : exists height, TipIs node.chain height block.previousBlockHash :=
        linked_tip hvalid hnext
      rcases hlinked with ⟨height, htip⟩
      unfold acceptBatch
      apply leads_get_bind
      rw [unpackBlock_packBlock hpack]
      apply leads_lift_bind
      · rintro _ heq
        cases heq
        have hcurrent : Leads Any Node.tip node
            (fun current next => current = (height, block.previousBlockHash) ∧ next = node)
            Broken := leads_of_ok (tip_run husable htip) (any_step _ _) ⟨rfl, rfl⟩
        refine leads_bind hcurrent ?_
        rintro _ same _ ⟨rfl, hsame⟩
        rw [hsame, if_neg (not_not.mpr rfl)]
        refine leads_bind haccept ?_
        rintro _ taken _ ⟨rfl, htakes⟩
        rw [if_pos rfl]
        refine (ih taken (htakes.config.trans hconfig) htakes.usable htakes.valid ?_).weaken ?_
          (fun _ _ _ h => h)
        · rw [htakes.blocks]
          exact ⟨rest, by rw [List.append_assoc, hsplit]⟩
        · rintro _ next _ ⟨hanswer, hmore⟩
          exact ⟨hanswer, htakes.trans hmore⟩
      · intro e he
        cases he

theorem valid_tip {chain : Blockchain}
    (hvalid : exists tip, ValidChain chain.blocks tip chain.state) :
    exists height tipHash, TipIs chain height tipHash := by
  rcases hvalid with ⟨last, hvalid⟩
  have hlength := List.length_pos_iff.mpr hvalid.ne_nil
  exact ⟨chain.blocks.length - 1, last.hash, last, hvalid.getLast?, by omega, rfl⟩

theorem leads_known_tip_bind {alpha : Type} {height : Nat} {tipHash : Str}
    {act : Nat × Str -> NodeM disk alpha} {post : alpha -> Node disk -> Prop}
    (husable : Blockchain.ensureUsable node.chain = .ok ())
    (htip : TipIs node.chain height tipHash)
    (h : Leads Any (act (height, tipHash)) node post raised) :
    Leads Any (Node.tip >>= act) node post raised := by
  have hcurrent : Leads Any Node.tip node
      (fun current next => current = (height, tipHash) ∧ next = node) raised :=
    leads_of_ok (tip_run husable htip) (any_step _ _) ⟨rfl, rfl⟩
  refine leads_bind hcurrent ?_
  rintro _ same _ ⟨rfl, hsame⟩
  rw [hsame]
  exact h

/-- A node that can take blocks. -/
structure Ready (node : Node disk) : Prop where
  usable : Blockchain.ensureUsable node.chain = .ok ()
  valid : exists tip, ValidChain node.chain.blocks tip node.chain.state
  admits : node.config.AdmitsControl

theorem Ready.same (h : Ready node) (hchain : next.chain = node.chain)
    (hconfig : next.config = node.config) : Ready next := by
  refine ⟨?_, ?_, ?_⟩
  · rw [hchain]
    exact h.usable
  · rw [hchain]
    exact h.valid
  · rw [hconfig]
    exact h.admits

/-- A batch with the blocks that come after the chain of a node in a ledger. -/
structure Continues (ledger : List Block) (node : Node disk) (expected : GetBlocksPayload)
    (payload : BlocksPayload) (blocks : List Block) : Prop where
  tip : TipIs node.chain expected.anchorHeight expected.anchorHash
  anchorHeight : payload.anchorHeight = expected.anchorHeight
  anchorHash : payload.anchorHash = expected.anchorHash
  packs : Packs node.config blocks payload.blocks
  nonempty : payload.blocks ≠ []
  limit : payload.blocks.length ≤ expected.limit
  below : expected.anchorHeight + payload.blocks.length ≤ payload.tipHeight
  more : payload.more =
    decide (expected.anchorHeight + payload.blocks.length < payload.tipHeight)
  held : node.chain.blocks ++ blocks <+: ledger
  last : expected.anchorHeight + payload.blocks.length = payload.tipHeight ->
    forall last, (node.chain.blocks ++ blocks).getLast? = some last ->
      last.hash = payload.tipHash

section Receiving

variable {env : Env} {ledger blocks : List Block} {tip : Block} {state : ChainState}
  {expected : GetBlocksPayload} {payload : BlocksPayload}

theorem Continues.same (h : Continues ledger node expected payload blocks)
    (hchain : next.chain = node.chain) (hconfig : next.config = node.config) :
    Continues ledger next expected payload blocks := by
  refine ⟨?_, h.anchorHeight, h.anchorHash, ?_, h.nonempty, h.limit, h.below, h.more, ?_, ?_⟩
  · rw [hchain]
    exact h.tip
  · rw [hconfig]
    exact h.packs
  · rw [hchain]
    exact h.held
  · rw [hchain]
    exact h.last

theorem Continues.consistent (h : Continues ledger node expected payload blocks) :
    batchConsistent expected.anchorHeight expected.limit payload = true := by
  have hbelow := h.below
  unfold batchConsistent
  simp only [Bool.and_eq_true, decide_eq_true_eq]
  refine ⟨⟨⟨⟨h.limit, hbelow⟩, by omega⟩, h.more⟩, ?_⟩
  rintro ⟨_, hempty⟩
  exact h.nonempty hempty

theorem receiveBlocks_takes (hledger : ValidChain ledger tip state)
    (htimely : TimelyAt (env.wallClock : Int) ledger) (hlength : ledger.length ≤ MAX_HEIGHT + 1)
    (hready : Ready node) (hid : id ∈ node.sessions.keys)
    (h : Continues ledger node expected payload blocks) :
    Leads Any (receiveBlocks store env id expected payload) node
      (fun _ next => Takes blocks node next) Broken := by
  rcases Dict.exists_get?_of_mem_keys hid with ⟨known, hknown⟩
  unfold receiveBlocks
  refine leads_modify_bind (any_step _ _) ?_
  have hsession : ({ node with sync := { node.sync with source := none } } :
      Node disk).sessions.get? id = some known := hknown
  refine leads_modifySession_bind hsession (any_step _ _) ?_
  generalize hidle : Node.replace ({ node with sync := _ } : Node disk) id _ = idle
  have hkept : Kept node idle := by
    rw [← hidle]
    exact ⟨rfl, rfl, Dict.keys_modify _ _ _⟩
  have hidleReady := hready.same hkept.chain hkept.config
  have hidleBatch := h.same hkept.chain hkept.config
  have hanchor : ¬ (payload.anchorHeight ≠ expected.anchorHeight ∨
      payload.anchorHash ≠ expected.anchorHash) := by
    rintro (hne | hne)
    · exact hne h.anchorHeight
    · exact hne h.anchorHash
  rw [if_neg hanchor]
  apply leads_known_tip_bind hidleReady.usable hidleBatch.tip
  rw [if_neg (not_not.mpr rfl)]
  have hconsistent : ¬ batchConsistent expected.anchorHeight expected.limit payload = false := by
    rw [h.consistent]
    exact Bool.true_eq_false_eq_False
  rw [if_neg hconsistent]
  refine leads_bind (acceptBatch_takes hledger htimely hlength hidleBatch.packs idle rfl
    hidleReady.usable hidleReady.valid hidleBatch.held) ?_
  rintro _ taken _ ⟨rfl, htakes⟩
  rw [if_neg Bool.true_eq_false_eq_False]
  rcases valid_tip htakes.valid with ⟨height, reached, htip⟩
  apply leads_known_tip_bind htakes.usable htip
  have hblocks : taken.chain.blocks = node.chain.blocks ++ blocks := by
    rw [htakes.blocks, hkept.chain]
  have hreached : ¬ (payload.more = false ∧ reached ≠ payload.tipHash) := by
    rintro ⟨hmore, hne⟩
    have hbelow := h.below
    rw [h.more] at hmore
    have hdone := of_decide_eq_false hmore
    rcases htip with ⟨last, hlast, _, hhash⟩
    rw [hblocks] at hlast
    exact hne (hhash.symm.trans (h.last (by omega) last hlast))
  rw [if_neg hreached]
  apply leads_get_bind
  have hkeys : taken.sessions.keys = node.sessions.keys := htakes.keys.trans hkept.keys
  have hid' : id ∈ taken.sessions.keys := by
    rw [hkeys]
    exact hid
  rcases Dict.exists_get?_of_mem_keys hid' with ⟨session, hsession'⟩
  refine leads_modifySession_bind hsession' (any_step _ _) ?_
  generalize hreplaced : taken.replace id _ = answered
  have hkept' : Kept taken answered := by
    rw [← hreplaced]
    exact kept_replace _ _ _
  have hconfig : answered.config = node.config :=
    hkept'.config.trans (htakes.config.trans hkept.config)
  have hall : Takes blocks node answered := (htakes.after hkept).kept hkept'
  apply leads_ite
  · intro _
    have hasked : Leads Any (Node.request env id .getStatus) answered
        (fun _ next => Kept answered next) Broken := by
      apply request_kept
      · rw [hkept'.keys]
        exact hid'
      · rw [hconfig]
        exact hready.admits
      · trivial
    exact (hasked.weaken (fun _ _ _ h => hall.kept h) (fun _ _ _ h => h)).discard
  · intro _
    exact leads_pure hall

end Receiving

/-!
## Honest answers
-/

/-- A server that holds the first blocks of a ledger and can send them. -/
structure Serves (ledger : List Block) (config : NodeConfig) (chain : Blockchain) : Prop where
  usable : Blockchain.ensureUsable chain = .ok ()
  held : chain.blocks <+: ledger
  fits : Fits config chain.blocks

/-- The next event of a node is the answer of such a server, that is ahead, to a request
from the tip that is still pending. -/
structure Answered (ledger : List Block) (node : Node disk) (batch : List Str) : Prop where
  running : node.lifecycle = .running
  answer : exists id requestId expected deadline session size rest payload,
    node.events =
        { kind := .remote id { payload := .blocks payload, requestId := some requestId }
          size := size } :: rest ∧
      payload.blocks = batch ∧
      id ∉ node.closedPeers ∧ node.sessions.get? id = some session ∧ session.live = true ∧
      session.pending.get? requestId =
        some { request := .getBlocks expected, deadline := deadline } ∧
      expected.Valid ∧ TipIs node.chain expected.anchorHeight expected.anchorHash ∧
      exists config chain, Serves ledger config chain ∧
        config.maxItemBytes ≤ node.config.maxItemBytes ∧
        node.chain.blocks.length < chain.blocks.length ∧
        blocksReply config chain expected (some requestId) = .ok (.ok payload)

theorem packs_mono {config other : NodeConfig} {blocks : List Block} {items : List Str}
    (h : Packs config blocks items) (hroom : config.maxItemBytes ≤ other.maxItemBytes) :
    Packs other blocks items := by
  refine h.imp ?_
  intro block text hpack
  rcases pack_eq_ok_iff.mp hpack with ⟨_, data, hdata, hlength, htext⟩
  exact pack_eq_ok_iff.mpr ⟨item_pos other, data, hdata, hlength.trans hroom, htext⟩

theorem reply_continues {ledger : List Block} {config : NodeConfig} {chain : Blockchain}
    {expected : GetBlocksPayload} {payload : BlocksPayload} {requestId : Str}
    (hserves : Serves ledger config chain) (hlength : ledger.length ≤ MAX_HEIGHT + 1)
    (hexpected : expected.Valid) (hid : isToken requestId = true)
    (htip : TipIs node.chain expected.anchorHeight expected.anchorHash)
    (hheld : node.chain.blocks <+: ledger)
    (hbehind : node.chain.blocks.length < chain.blocks.length)
    (hroom : config.maxItemBytes ≤ node.config.maxItemBytes)
    (hreply : blocksReply config chain expected (some requestId) = .ok (.ok payload)) :
    exists blocks, Continues ledger node expected payload blocks := by
  rcases id htip with ⟨anchor, hlast, hanchored, hhash⟩
  have hbegins : node.chain.blocks <+: chain.blocks :=
    List.prefix_of_prefix_length_le hheld hserves.held (Nat.le_of_lt hbehind)
  have hfront : node.chain.blocks = chain.blocks.take (expected.anchorHeight + 1) := by
    rw [← hanchored]
    exact List.prefix_iff_eq_take.mp hbegins
  have hanchor : chain.blocks[expected.anchorHeight]? = some anchor := by
    rw [List.getLast?_eq_getElem?, hanchored, Nat.add_sub_cancel] at hlast
    rw [← hlast, hfront, List.getElem?_take_of_lt (Nat.lt_succ_self _)]
  have hservers : exists latest, chain.blocks.getLast? = some latest := by
    cases hend : chain.blocks.getLast? with
    | none =>
        rw [List.getLast?_eq_none_iff.mp hend, List.length_nil] at hbehind
        omega
    | some latest => exact ⟨latest, rfl⟩
  rcases hservers with ⟨latest, hlatest⟩
  have hshort := hserves.held.length_le
  have hservertip : TipIs chain (chain.blocks.length - 1) latest.hash :=
    ⟨latest, hlatest, by omega, rfl⟩
  have hid' : ValidId .blocks (some requestId) := ⟨rfl, hid⟩
  rcases blocksReply_serves hserves.usable hservertip (by omega) hanchor hhash (by omega)
      hexpected.limit_pos hexpected.limit_le hid' hserves.fits with
    ⟨items, hitems, hlimit, hbelow, hpacks, _, hbatch⟩
  rw [hbatch] at hreply
  cases hreply
  have hjoined : node.chain.blocks ++
      (chain.blocks.drop (expected.anchorHeight + 1)).take items.length =
        chain.blocks.take (expected.anchorHeight + 1 + items.length) := by
    rw [List.take_add, ← hfront]
  refine ⟨_, htip, rfl, rfl, packs_mono hpacks hroom, hitems, hlimit, hbelow, rfl, ?_, ?_⟩
  · rw [hjoined]
    exact (List.take_prefix _ _).trans hserves.held
  · intro hdone last hend
    have hdone' : expected.anchorHeight + items.length = chain.blocks.length - 1 := hdone
    rw [hjoined, List.take_of_length_le (by omega), hlatest] at hend
    rw [Option.some.inj hend]
    rfl

omit [Crypto] in
theorem reapPeers_keeps {env : Env} {session : Session}
    (hsession : node.sessions.get? id = some session) (hopen : id ∉ node.closedPeers) :
    Leads Any (reapPeers env) node (fun _ next => next.sessions.get? id = some session)
      (fun _ _ => True) := by
  unfold reapPeers
  apply leads_get_bind
  refine leads_forM hsession ?_
  intro other hother before _ hbefore
  have hne : id ≠ other := by
    intro hsame
    rw [← hsame] at hother
    exact hopen hother
  have herased : (before.sessions.erase other).get? id = some session := by
    rw [Dict.get?_erase, if_neg hne]
    exact hbefore
  unfold reapPeer
  apply leads_get_bind
  refine leads_modify_bind (f := fun _ => { before with
    closedPeers := before.closedPeers.erase other
    sessions := before.sessions.erase other }) (any_step _ _) ?_
  split
  · exact leads_pure herased
  have hleft : Leads Any (syncDisconnected other)
      ({ before with
        closedPeers := before.closedPeers.erase other
        sessions := before.sessions.erase other } : Node disk)
      (fun _ next => next.sessions.get? id = some session) (fun _ _ => True) :=
    leads_of_ok rfl (any_step _ _) herased
  refine leads_bind hleft ?_
  intro _ left _ hleft
  split
  · exact leads_pure hleft
  apply leads_get_bind
  apply leads_ite
  · intro _
    apply leads_drawJitter_bind trivial
    intro jitter
    apply leads_get_bind
    apply leads_lift_bind
    · intro manager _
      exact leads_of_ok rfl (any_step _ _) hleft
    · intro _ _
      trivial
  · intro _
    exact leads_pure hleft

omit [Crypto] in
theorem correlate_pending {env : Env} {requestId : Str} {kind : MessageType} {known : Session}
    {pending : PendingRequest} (hknown : node.sessions.get? id = some known)
    (hpending : known.pending.get? requestId = some pending)
    (hkind : kind = pending.request.response) :
    Leads Any (correlate env id requestId kind) node
      (fun answer next => answer = some pending.request ∧ Kept node next) raised := by
  unfold correlate
  apply leads_session_bind hknown
  simp only [hpending]
  refine leads_modifySession_bind hknown (any_step _ _) ?_
  refine leads_modifySession_bind (get?_replace_self hknown) (any_step _ _) ?_
  rw [if_neg (fun h => h.left hkind)]
  exact leads_pure ⟨rfl, (kept_replace node id _).trans (kept_replace _ id _)⟩

section Dispatching

variable {env : Env} {ledger blocks : List Block} {tip : Block} {state : ChainState}
  {expected : GetBlocksPayload} {payload : BlocksPayload} {requestId : Str} {known : Session}
  {deadline : Rat}

theorem remote_takes (hledger : ValidChain ledger tip state)
    (htimely : TimelyAt (env.wallClock : Int) ledger) (hlength : ledger.length ≤ MAX_HEIGHT + 1)
    (hready : Ready node) (hknown : node.sessions.get? id = some known)
    (hestablished : known.peer.established = true)
    (hpending : known.pending.get? requestId =
      some { request := .getBlocks expected, deadline := deadline })
    (h : Continues ledger node expected payload blocks) :
    Leads Any (remote store env id { payload := .blocks payload, requestId := some requestId })
      node (fun _ next => Takes blocks node next) Broken := by
  unfold remote
  refine leads_modify_bind (any_step _ _) ?_
  generalize hcounted : ({ node with counters := _ } : Node disk) = counted
  have hkept : Kept node counted := by
    rw [← hcounted]
    exact ⟨rfl, rfl, rfl⟩
  have hsession : counted.sessions.get? id = some known := by
    rw [← hcounted]
    exact hknown
  apply leads_session_bind hsession
  rw [if_neg (by rw [hestablished]; exact Bool.true_eq_false_eq_False)]
  refine leads_bind (correlate_pending hsession hpending rfl) ?_
  rintro _ correlated _ ⟨rfl, hcorrelated⟩
  have hbefore : Kept node correlated := hkept.trans hcorrelated
  have hid : id ∈ correlated.sessions.keys := by
    rw [hbefore.keys]
    exact Dict.mem_keys_of_get? hknown
  refine (receiveBlocks_takes hledger htimely hlength
    (hready.same hbefore.chain hbefore.config) hid
    (h.same hbefore.chain hbefore.config)).weaken ?_ (fun _ _ _ h => h)
  intro _ next _ htakes
  exact htakes.after hbefore

/-- The chain has grown by the blocks, as long as the storage works. -/
def Grew (blocks : List Block) (node next : Node disk) : Prop :=
  Blockchain.ensureUsable next.chain = .ok () ->
    next.chain.blocks = node.chain.blocks ++ blocks

theorem handleRemote_grows (hledger : ValidChain ledger tip state)
    (htimely : TimelyAt (env.wallClock : Int) ledger) (hlength : ledger.length ≤ MAX_HEIGHT + 1)
    (hready : Ready node) (hknown : node.sessions.get? id = some known)
    (hlive : known.live = true)
    (hpending : known.pending.get? requestId =
      some { request := .getBlocks expected, deadline := deadline })
    (h : Continues ledger node expected payload blocks) :
    Leads Any
      (handleRemote store env id { payload := .blocks payload, requestId := some requestId })
      node (fun _ next => Grew blocks node next) (fun _ next => Grew blocks node next) := by
  unfold Session.live at hlive
  simp only [Bool.and_eq_true, Bool.not_eq_true'] at hlive
  unfold handleRemote
  apply leads_get_bind
  rw [hknown]
  simp only
  rw [if_neg (by rw [hlive.right]; exact Bool.false_ne_true)]
  have hremote : Leads Any
      (remote store env id { payload := .blocks payload, requestId := some requestId }) node
      (fun _ next => Takes blocks node next) Broken :=
    remote_takes hledger htimely hlength hready hknown hlive.left hpending h
  refine leads_tryCatch (hremote.weaken (fun _ _ _ htakes _ => htakes.blocks)
    (fun _ _ _ h => h)) ?_
  intro e broken _ hbroken
  apply leads_ite
  · intro _
    exact leads_modify_bind (any_step _ _)
      (leads_modify (any_step _ _) (fun husable => absurd husable hbroken))
  · intro _
    exact leads_throw (fun husable => absurd husable hbroken)

end Dispatching

/-- An honest answer to a pending request from the tip is taken whole, unless the storage
fails. -/
theorem dispatch_grows {env : Env} {ledger : List Block} {tip : Block} {state : ChainState}
    {batch : List Str} (hledger : ValidChain ledger tip state)
    (htimely : TimelyAt (env.wallClock : Int) ledger) (hlength : ledger.length ≤ MAX_HEIGHT + 1)
    (hsturdy : Sturdy node) (hvalid : exists tip, ValidChain node.chain.blocks tip node.chain.state)
    (hheld : node.chain.blocks <+: ledger) (hanswered : Answered ledger node batch)
    (husable : Blockchain.ensureUsable (finalState (dispatch store env false) node).chain =
      .ok ()) :
    batch ≠ [] ∧ exists blocks, blocks.length = batch.length ∧
      (finalState (dispatch store env false) node).chain.blocks = node.chain.blocks ++ blocks := by
  rcases hanswered.answer with
    ⟨id, requestId, expected, deadline, session, size, rest, payload, hevents, rfl, hopen, hsession,
      hlive, hpending, hexpected, htip, config, chain, hserves, hroom, hbehind, hreply⟩
  have hready : Ready node := ⟨hsturdy.healthy.usable, hvalid, hsturdy.healthy.admits⟩
  have hpacket : ({ payload := .blocks payload, requestId := some requestId } : Packet).Valid := by
    apply hsturdy.waiting
      { kind := .remote id { payload := .blocks payload, requestId := some requestId }
        size := size }
    rw [hevents]
    exact List.mem_cons_self
  rcases reply_continues hserves hlength hexpected hpacket.requestId.right htip hheld hbehind
    hroom hreply with ⟨blocks, hcontinues⟩
  refine ⟨hcontinues.nonempty, blocks, hcontinues.packs.length_eq, ?_⟩
  · revert husable
    unfold dispatch
    rw [finalState_get_bind, if_neg (not_not.mpr hanswered.running), hevents]
    simp only [Bool.false_eq_true, if_false]
    rw [finalState_set_bind]
    intro husable
    have htidy : Tidy [size] { node with events := rest } := hsturdy.tidy.popped hevents
    have hhealthy : ({ node with events := rest } : Node disk).Healthy :=
      { hsturdy.healthy with }
    have hreaped : Leads Any (reapPeers env) ({ node with events := rest } : Node disk)
        (fun _ next => Tidy [size] next ∧ next.Healthy) (fun _ _ => False) :=
      reapPeers_tidy htidy hhealthy env
    have hkeeps : Leads Any (reapPeers env) ({ node with events := rest } : Node disk)
        (fun _ next => next.sessions.get? id = some session) (fun _ _ => True) :=
      reapPeers_keeps hsession hopen
    have hreaping : Leads (Turn (.dispatch false)) (reapPeers env)
        ({ node with events := rest } : Node disk) (fun _ node' => Thinned _ node')
          (fun _ node' => Thinned _ node') := reapPeers_leads
    cases hreap : reapPeers env ({ node with events := rest } : Node disk) with
    | error e reaped => exact (hreaped.of_error hreap).right.elim
    | ok _ reaped =>
        have hframed := turns_framed (hreaping.of_ok hreap).left
        have hchain : reaped.chain = node.chain := hframed.chain
        have hconfig : reaped.config = node.config := hframed.config
        have hhandled : Leads Any (handleEvent store env
            (.remote id { payload := .blocks payload, requestId := some requestId })) reaped
            (fun _ next => Grew blocks reaped next) (fun _ next => Grew blocks reaped next) :=
          leads_bind (handleRemote_grows hledger htimely hlength (hready.same hchain hconfig)
            (hkeeps.of_ok hreap).right hlive hpending (hcontinues.same hchain hconfig))
            (fun _ _ _ h => leads_pure h)
        have hfinal := finalState_bind_ok hreap (fun _ => handleEvent store env
          (.remote id { payload := .blocks payload, requestId := some requestId }))
        rcases settle_turns (.dispatch false) size rfl hfinal with ⟨hturns, _⟩
        have hsettled := (turns_framed hturns).chain
        rw [hsettled, ← hchain]
        apply hhandled.ends.right
        rw [← hsettled]
        exact husable

/-!
## Runs
-/

variable (store) in
/-- The runs of a node, with the batches that honest servers have answered. -/
inductive Course (ledger : List Block) (start : Node disk) :
    List (List Str) -> Node disk -> Prop where
  | start : Course ledger start [] start
  | other {batches : List (List Str)} {node : Node disk} (call : Env × NodeEvent) :
      Course ledger start batches node -> Considerate call.2 ->
      Course ledger start batches ((machine store).step call node).2
  | answered {batches : List (List Str)} {batch : List Str} {node : Node disk} {env : Env} :
      Course ledger start batches node -> Answered ledger node batch ->
      TimelyAt (env.wallClock : Int) ledger ->
      Course ledger start (batches ++ [batch])
        ((machine store).step (env, .dispatch false) node).2

/-- A node that has gained the blocks of all batches. -/
structure Gained (start : Node disk) (batches : List (List Str)) (node : Node disk) : Prop where
  sturdy : Sturdy node
  sound : (Blockchain.live node.chain).Sound
  count : start.chain.blocks.length + (batches.map List.length).sum ≤ node.chain.blocks.length
  nonempty : forall batch, batch ∈ batches -> batch ≠ []

section Courses

variable {start last : Node disk} {ledger : List Block} {batches : List (List Str)} {tip : Block}
  {state : ChainState}

theorem Gained.step (h : Gained start batches node) (call : Env × NodeEvent)
    (hconsiderate : Considerate call.2)
    (huntroubled : Untroubled ((machine store).step call node).2) :
    Sturdy ((machine store).step call node).2 ∧
      (Blockchain.live ((machine store).step call node).2.chain).Sound := by
  have hhappens : Happens store call.2 node ((machine store).step call node).2 :=
    machine_happens call node
  have hgrown : Grown (fun _ => True) node ((machine store).step call node).2 :=
    (hhappens.grown (fun _ _ _ _ _ => trivial) h.sound).right
  exact ⟨h.sturdy.step call hconsiderate huntroubled, hgrown.sound⟩

theorem Course.run (calls : List (Env × NodeEvent))
    (hcalls : forall call, call ∈ calls -> Considerate call.2)
    (h : Course store ledger start batches node) :
    Course store ledger start batches ((machine store).run calls node) := by
  induction calls generalizing node with
  | nil => exact h
  | cons call rest ih =>
      exact ih (fun other hother => hcalls other (List.mem_cons_of_mem _ hother))
        (h.other call (hcalls call List.mem_cons_self))

theorem course_gained (hstart : Started start) (hledger : ValidChain ledger tip state)
    (hlength : ledger.length ≤ MAX_HEIGHT + 1) (h : Course store ledger start batches last) :
    Untroubled last -> last.chain.blocks <+: ledger -> Gained start batches last := by
  induction h with
  | start =>
      intro huntroubled _
      refine ⟨hstart.sturdy huntroubled, hstart.chain.sound, le_refl _, ?_⟩
      intro batch hbatch
      cases hbatch
  | @other batches node call _ hconsiderate ih =>
      intro huntroubled hheld
      have hhappens : Happens store call.2 node ((machine store).step call node).2 :=
        machine_happens call node
      have hbefore := ih (hhappens.untroubled huntroubled) (hhappens.blocks.trans hheld)
      rcases hbefore.step call hconsiderate huntroubled with ⟨hsturdy, hsound⟩
      exact ⟨hsturdy, hsound, hbefore.count.trans hhappens.blocks.length_le, hbefore.nonempty⟩
  | @answered batches batch node env _ hanswered htimely ih =>
      intro huntroubled hheld
      have hhappens : Happens store (.dispatch false) node
          ((machine store).step (env, .dispatch false) node).2 :=
        machine_happens (env, .dispatch false) node
      have hmiddle : node.chain.blocks <+: ledger := hhappens.blocks.trans hheld
      have hbefore := ih (hhappens.untroubled huntroubled) hmiddle
      have hquiet : Considerate (.dispatch false) := fun query hevent => by cases hevent
      rcases hbefore.step (env, .dispatch false) hquiet huntroubled with ⟨hsturdy, hsound⟩
      have husable := huntroubled.left
      rw [machine_step] at husable
      rcases dispatch_grows hledger htimely hlength hbefore.sturdy hbefore.sound.valid hmiddle
        hanswered husable with ⟨hne, blocks, hcount, hblocks⟩
      have hgrows : ((machine store).step (env, .dispatch false) node).2.chain.blocks =
          node.chain.blocks ++ blocks := by
        rw [machine_step]
        exact hblocks
      refine ⟨hsturdy, hsound, ?_, ?_⟩
      · have hearlier := hbefore.count
        rw [hgrows, List.map_append, List.sum_append, List.map_singleton, List.sum_singleton,
          List.length_append, hcount]
        omega
      · intro other hother
        rcases List.mem_append.mp hother with hold | hnew
        · exact hbefore.nonempty other hold
        · rw [List.mem_singleton.mp hnew]
          exact hne

omit [Crypto] in
theorem length_le_sum (hnonempty : forall batch, batch ∈ batches -> batch ≠ []) :
    batches.length ≤ (batches.map List.length).sum := by
  induction batches with
  | nil => exact le_refl _
  | cons batch rest ih =>
      have hfirst := List.length_pos_iff.mpr (hnonempty batch List.mem_cons_self)
      have hrest := ih (fun other hother => hnonempty other (List.mem_cons_of_mem _ hother))
      rw [List.length_cons, List.map_cons, List.sum_cons]
      omega

/-- Every honest answer from a node that is ahead is taken whole, whatever else happens in
between, and is not empty: after as many answers as blocks were missing the node has the
whole ledger. -/
theorem catches_up (hstart : Started start) (hledger : ValidChain ledger tip state)
    (hlength : ledger.length ≤ MAX_HEIGHT + 1) (hcourse : Course store ledger start batches last)
    (huntroubled : Untroubled last) (hheld : last.chain.blocks <+: ledger) :
    start.chain.blocks.length + (batches.map List.length).sum ≤ last.chain.blocks.length ∧
      (forall batch, batch ∈ batches -> batch ≠ []) ∧
      (ledger.length ≤ start.chain.blocks.length + batches.length ->
        last.chain.blocks = ledger) := by
  have hgained := course_gained hstart hledger hlength hcourse huntroubled hheld
  refine ⟨hgained.count, hgained.nonempty, ?_⟩
  intro hanswers
  have hcount := hgained.count
  have hbatches := length_le_sum hgained.nonempty
  exact hheld.eq_of_length_le (by omega)

end Courses


end Taking

end Node

end Network

/-!
# A batch that is taken

The peer of the download is honest, and answers with the only block that is missing.
-/

namespace Sample

open Network

/-- The server after it has mined its first block. -/
def serving : Node Unit :=
  (@Node.machine crypto Unit none).run
    [(batchEnv, .call (.block first)), (batchEnv, .dispatch false)] listening

def request : GetBlocksPayload :=
  { anchorHeight := 0, anchorHash := GENESIS_HASH, limit := 16 }

def reply : BlocksPayload :=
  Node.batchOf 0 GENESIS_HASH 1 (@Block.hash crypto first)
    (@packBlock crypto first threePeers.maxItemBytes).toOption.toList

def replyPacket : Packet :=
  { payload := .blocks reply, requestId := some (tokenAt 5) }

def replyCalls : List (Env × NodeEvent) :=
  downloadCalls ++
    [.readPrefix (tokenAt 1) 0 0 (UInt8.ofNat (replyPacket.body.length / 256))
        (UInt8.ofNat (replyPacket.body.length % 256)),
      .readBody (tokenAt 1) replyPacket.body].map
        (fun event => (batchEnv, event))

/-- The request of an open session that is still pending. -/
def pendingOf (node : Node Unit) : Option Request :=
  match node.sessions.get? (tokenAt 1) with
  | some session =>
      if session.live then (session.pending.get? (tokenAt 5)).map PendingRequest.request
      else none
  | none => none

theorem pending_of {node : Node Unit} {request : Request} (h : pendingOf node = some request) :
    exists session deadline, node.sessions.get? (tokenAt 1) = some session ∧
      session.live = true ∧
      session.pending.get? (tokenAt 5) = some { request := request, deadline := deadline } := by
  unfold pendingOf at h
  split at h
  · rename_i session hsession
    split at h
    · rename_i hlive
      rcases Option.map_eq_some_iff.mp h with ⟨pending, hpending, hrequest⟩
      rw [← hrequest]
      exact ⟨session, pending.deadline, hsession, hlive, hpending⟩
    · cases h
  · cases h

def answerOf (answer : Except PyError (Except ErrorCode BlocksPayload)) : Option BlocksPayload :=
  match answer with
  | .ok (.ok payload) => some payload
  | _ => none

theorem answer_of {answer : Except PyError (Except ErrorCode BlocksPayload)}
    {payload : BlocksPayload} (h : answerOf answer = some payload) :
    answer = .ok (.ok payload) := by
  unfold answerOf at h
  split at h
  · rw [Option.some.inj h]
  · cases h

theorem serving_outcome :
    usable serving = true ∧ serving.chain.blocks = [genesis, first] ∧
      (@packBlock crypto first threePeers.maxItemBytes).toOption.isSome = true ∧
      answerOf (@Node.blocksReply crypto threePeers serving.chain request (some (tokenAt 5))) =
        some reply := by
  decide +kernel

/-- What the node is before it takes the batch, and after. -/
def replyOutcome (node next : Node Unit) : Bool :=
  onlyWaits (tokenAt 1) replyPacket 860 node.events &&
    decide (pendingOf node = some (.getBlocks request)) && decide (node.closedPeers = []) &&
    decide (node.lifecycle = .running) &&
    decide (node.config.maxItemBytes = threePeers.maxItemBytes) &&
    decide (node.chain.blocks = [genesis]) && usable next &&
    decide (next.chain.blocks = [genesis, first])

theorem reply_outcome :
    replyOutcome ((@Node.machine crypto Unit none).run replyCalls listening)
      ((@Node.machine crypto Unit none).step (batchEnv, .dispatch false)
        ((@Node.machine crypto Unit none).run replyCalls listening)).2 = true := by
  decide +kernel

theorem ledger_valid : exists tip state, @ValidChain crypto [genesis, first] tip state := by
  have hunderway := @Node.run_underway Unit crypto none listening
    (@Constructed.sound crypto _ listening_constructed)
    [(batchEnv, .call (.block first)), (batchEnv, .dispatch false)] _ []
    (List.append_nil _).symm
  rcases hunderway with ⟨_, ⟨hsound, _⟩, _⟩
  rcases hsound with ⟨⟨tip, hvalid⟩, _, _, _⟩
  rcases serving_outcome with ⟨_, hblocks, _⟩
  unfold serving at hblocks
  unfold Blockchain.live at hvalid
  rw [hblocks] at hvalid
  exact ⟨tip, _, hvalid⟩

theorem ledger_timely : TimelyAt (batchEnv.wallClock : Int) [genesis, first] := by
  intro block hblock
  rw [List.mem_singleton.mp hblock]
  decide

theorem reply_answered :
    @Node.Answered Unit crypto [genesis, first]
      ((@Node.machine crypto Unit none).run replyCalls listening) reply.blocks := by
  rcases serving_outcome with ⟨hserving, hserved, hpack, hanswer⟩
  have houtcome := reply_outcome
  unfold replyOutcome at houtcome
  simp only [Bool.and_eq_true, decide_eq_true_eq] at houtcome
  rcases houtcome with
    ⟨⟨⟨⟨⟨⟨⟨hwaits, hpending⟩, hclosed⟩, hrunning⟩, hroom⟩, hblocks⟩, _⟩, _⟩
  rcases pending_of hpending with ⟨session, deadline, hsession, hlive, hpending'⟩
  have hopen : tokenAt 1 ∉
      ((@Node.machine crypto Unit none).run replyCalls listening).closedPeers := by
    rw [hclosed]
    exact List.not_mem_nil
  have hexpected : request.Valid := ⟨by decide, by decide, by decide, by decide⟩
  have htip : @TipIs crypto ((@Node.machine crypto Unit none).run replyCalls listening).chain 0
      GENESIS_HASH := by
    refine ⟨genesis, ?_, ?_, by decide +kernel⟩
    · rw [hblocks]
      rfl
    · rw [hblocks]
      rfl
  have hserves : @Node.Serves crypto [genesis, first] threePeers serving.chain := by
    refine @Node.Serves.mk crypto _ _ _ (untroubled_of_usable hserving).left ?_ ?_
    · rw [hserved]
    · refine @Node.Fits.mk crypto _ _ (by unfold NodeConfig.AdmitsItems; decide) ?_
      rw [hserved]
      intro block hblock
      rw [List.mem_singleton.mp hblock]
      cases hpacked : @packBlock crypto first threePeers.maxItemBytes with
      | ok text => exact ⟨text, rfl⟩
      | error e =>
          rw [hpacked] at hpack
          cases hpack
  have hbehind : ((@Node.machine crypto Unit none).run replyCalls listening).chain.blocks.length <
      serving.chain.blocks.length := by
    rw [hblocks, hserved]
    decide
  exact @Node.Answered.mk Unit crypto _ _ _ hrunning
    ⟨_, _, request, deadline, session, _, _, reply, eq_of_onlyWaits hwaits, rfl, hopen, hsession,
      hlive, hpending', hexpected, htip, threePeers, serving.chain, hserves, hroom.ge, hbehind,
      answer_of hanswer⟩

end Sample

namespace Network

namespace Node

theorem catches_up_reply :
    ((@machine Sample.crypto Unit none).step (Sample.batchEnv, .dispatch false)
      ((@machine Sample.crypto Unit none).run Sample.replyCalls Sample.listening)).2.chain.blocks =
        [Sample.genesis, Sample.first] := by
  have houtcome := Sample.reply_outcome
  unfold Sample.replyOutcome at houtcome
  simp only [Bool.and_eq_true, decide_eq_true_eq] at houtcome
  rcases houtcome with ⟨⟨_, husable⟩, hblocks⟩
  rcases Sample.ledger_valid with ⟨tip, state, hledger⟩
  have hquiet : forall call, call ∈ Sample.replyCalls -> Considerate call.2 := by
    intro call hcall
    apply Sample.considerate_of_quiet
    have hall : Sample.replyCalls.all (fun call => Sample.quietEvent call.2) = true := by
      decide +kernel
    exact List.all_eq_true.mp hall call hcall
  have hbefore := @Course.run Unit Sample.crypto none _ Sample.listening
    [Sample.genesis, Sample.first] [] Sample.replyCalls hquiet
    (@Course.start Unit Sample.crypto _ _ _)
  have hcourse := @Course.answered Unit Sample.crypto none _ _ _ _ _ Sample.batchEnv hbefore
    Sample.reply_answered Sample.ledger_timely
  have hcaught := @catches_up Unit Sample.crypto none _ _ [Sample.genesis, Sample.first] _ tip state
    Sample.listening_started hledger (by decide) hcourse (Sample.untroubled_of_usable husable)
    (by rw [hblocks])
  exact hcaught.right.right (by decide)

end Node

end Network

end PyChain
