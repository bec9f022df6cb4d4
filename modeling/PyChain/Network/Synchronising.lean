import PyChain.Network.Talking

/-!
# The moves of synchronisation

Requests of a tick, failed requests, block batches and snapshot pages.
-/

namespace PyChain

open Foundation

namespace Network

namespace Node

variable {disk : Type}

section Chain

variable [Crypto] {store : Option (ChainStore disk)} {input : EventKind} {node : Node disk}

/-!
## Requests of a tick
-/

theorem calm_quiet {id : Str} {known later : Session}
    (hknown : node.sessions.get? id = some known) (h : Quiet known later) :
    Calm store input node (node.replace id later) :=
  (Talk.quiet hknown h).calm

section Quietly

variable {alpha : Type} {next : PUnit -> NodeM disk alpha} {post : alpha -> Node disk -> Prop}
  {raised : PyError -> Node disk -> Prop} {id : Str} {known : Session} {f : Session -> Session}

theorem leads_quiet_bind (hknown : node.sessions.get? id = some known)
    (hquiet : Quiet known (f known))
    (h : Leads (Calm store input) (next ⟨⟩) (node.replace id (f known)) post raised) :
    Leads (Calm store input) (modifySession id f >>= next) node post raised :=
  leads_modifySession_bind hknown
    (Relation.ReflTransGen.single (Talk.quiet hknown hquiet).calm) h

theorem leads_quiet (hknown : node.sessions.get? id = some known)
    (hquiet : Quiet known (f known)) :
    Leads (Calm store input) (modifySession id f) node (fun _ _ => True) raised :=
  leads_modifySession hknown
    (Relation.ReflTransGen.single (Talk.quiet hknown hquiet).calm) trivial

end Quietly

omit [Crypto] in
theorem Quiet.refl (session : Session) : Quiet session session :=
  ⟨rfl, rfl, rfl, rfl, rfl, rfl, rfl, Or.inl rfl, Or.inl rfl, Or.inl rfl⟩

/-- The source of block batches and the downloads may change freely, as long as
every download can be asked for. -/
theorem leads_modifySync_bind {alpha : Type} {next : PUnit -> NodeM disk alpha}
    {post : alpha -> Node disk -> Prop} {raised : PyError -> Node disk -> Prop}
    {f : SyncManager -> SyncManager}
    (hexports : (f node.sync).exports = node.sync.exports)
    (hbytes : (f node.sync).snapshotBytes = node.sync.snapshotBytes)
    (hdownloads : (forall id packet, input = .remote id packet -> packet.Valid) ->
      node.sync.Healthy -> (f node.sync).Healthy)
    (h : Leads (Calm store input) (next ⟨⟩) { node with sync := f node.sync } post raised) :
    Leads (Calm store input) (modifySync f >>= next) node post raised := by
  unfold modifySync
  refine leads_modify_bind (Relation.ReflTransGen.single (calm_synced ?_ hdownloads)) h
  intro haccounted
  constructor
  · rw [hbytes, hexports]
    exact haccounted.sum
  · rw [hbytes]
    exact haccounted.bounded

omit [Crypto] in
theorem foldl_choice_mem {alpha : Type} {f : alpha -> alpha -> alpha}
    (hf : forall a b, f a b = a ∨ f a b = b) (items : List alpha) :
    forall first, items.foldl f first ∈ first :: items := by
  induction items with
  | nil =>
      intro first
      exact List.mem_cons_self
  | cons item rest ih =>
      intro first
      rw [List.foldl_cons]
      rcases hf first item with h | h
      · rw [h]
        rcases List.mem_cons.mp (ih first) with hhead | htail
        · rw [hhead]
          exact List.mem_cons_self
        · exact List.mem_cons_of_mem _ (List.mem_cons_of_mem _ htail)
      · rw [h]
        exact List.mem_cons_of_mem _ (ih item)

omit [Crypto] in
theorem bestCandidate_mem {candidates : List (Str × Session)} {best : Str × Session}
    (h : bestCandidate candidates = .ok (some best)) : best ∈ candidates := by
  cases candidates with
  | nil => cases h
  | cons first rest =>
      cases rest with
      | nil =>
          cases h
          exact List.mem_cons_self
      | cons second rest =>
          simp only [bestCandidate] at h
          split at h
          · cases h
          · rw [← Option.some.inj (Except.ok.inj h)]
            apply foldl_choice_mem
            intro a b
            split
            · exact Or.inl rfl
            · exact Or.inr rfl

omit [Crypto] in
theorem bestCandidate_raises {candidates : List (Str × Session)} {e : PyError}
    (h : bestCandidate candidates = .error e) :
    exists item, item ∈ candidates ∧ item.2.peer.nodeId = none := by
  cases candidates with
  | nil => cases h
  | cons first rest =>
      cases rest with
      | nil => cases h
      | cons second rest =>
          simp only [bestCandidate] at h
          split at h
          · rename_i hany
            rcases List.any_eq_true.mp hany with ⟨item, hitem, hnone⟩
            exact ⟨item, hitem, by simpa using hnone⟩
          · cases h

omit [Crypto] in
theorem Healthy.live_nodeId {id : Str} {session : Session} (h : node.Healthy)
    (hsession : node.sessions.get? id = some session) (hlive : session.live = true) :
    session.peer.nodeId ≠ none := by
  intro hnone
  unfold Session.live at hlive
  rw [Bool.and_eq_true] at hlive
  have hhealthy := h.sessions id session hsession
  have hnode := (hhealthy.introduced (hhealthy.established hlive.left)).left
  rw [hnone] at hnode
  cases hnode

theorem requestBlocks_leads {env : Env} {height : Nat} {tipHash : Str}
    (htip : TipIs node.chain height tipHash) :
    Leads (Calm store input) (requestBlocks env height tipHash) node
      (fun _ _ => True) Unhealthy := by
  unfold requestBlocks
  apply leads_get_bind
  apply leads_lift_bind
  · intro best hbest
    cases best with
    | none => exact leads_pure trivial
    | some candidate =>
        rcases candidate with ⟨id, known⟩
        have hmem := List.mem_filter.mp (bestCandidate_mem hbest)
        have hknown : node.sessions.get? id = some known :=
          (Dict.get?_eq_some_iff _ _ _).mpr hmem.left
        have hahead : height < known.remoteHeight := by
          have hcandidate := (Bool.and_eq_true _ _ ▸ hmem.right).right
          unfold syncCandidate at hcandidate
          simp only [Bool.and_eq_true, decide_eq_true_eq] at hcandidate
          exact hcandidate.left.left.left
        have hvalid : node.Healthy -> (Request.getBlocks
            { anchorHeight := height
              anchorHash := tipHash
              limit := node.config.blockBatchSize }).payload.Valid := by
          intro hhealthy
          exact ⟨TipIs.height_le htip hhealthy, TipIs.isHash htip,
            node.config.sizes_pos _ (by simp), node.config.blockBatchSize_le⟩
        have hrequest : Leads (Talk (Says input)) (Node.request env id (.getBlocks
            { anchorHeight := height
              anchorHash := tipHash
              limit := node.config.blockBatchSize })) node (fun _ _ => True) Unhealthy :=
          request_leads hknown ⟨htip, hahead⟩ hvalid
        refine leads_bind (Leads.calm hrequest) ?_
        intro requested node' hmove _
        rcases (calm_steady hmove).session hknown with ⟨later, hlater⟩
        apply leads_ite
        · intro _
          refine leads_modifySync_bind rfl rfl (fun _ h => h) ?_
          exact leads_quiet hlater
            ⟨rfl, rfl, rfl, rfl, rfl, rfl, rfl, Or.inl rfl, Or.inr (by simp), Or.inl rfl⟩
        · intro _
          exact leads_pure trivial
  · intro e he hhealthy
    rcases bestCandidate_raises he with ⟨item, hitem, hnone⟩
    have hmem := List.mem_filter.mp hitem
    have hlive := (Bool.and_eq_true _ _ ▸ hmem.right).left
    exact hhealthy.live_nodeId ((Dict.get?_eq_some_iff _ _ _).mpr hmem.left) hlive hnone

theorem requestMempool_leads {env : Env} {height : Nat} {tipHash id : Str} {known : Session}
    (htip : TipIs node.chain height tipHash) (hknown : node.sessions.get? id = some known) :
    Leads (Calm store input) (requestMempool env height tipHash id) node
      (fun _ _ => True) Unhealthy := by
  unfold requestMempool
  have hdiverged : Calm store input node (node.replace id
      (if known.remoteHeight = height ∧ known.remoteTip ≠ tipHash then
        { known with
          syncState := .diverged
          error := some (.failed (.remote .forkUnsupported)) }
      else known)) := by
    split
    · rename_i hdiffers
      refine calm_replace hknown
        (Move.diverged hknown (Or.inl ⟨tipHash, ?_, hdiffers.right⟩) (Quiet.refl _)) rfl
      rw [hdiffers.left]
      exact htip
    · exact (Talk.quiet hknown (Quiet.refl known)).calm
  refine leads_modifySession_bind hknown (Relation.ReflTransGen.single hdiverged) ?_
  refine leads_session_bind (get?_replace_self hknown) ?_
  apply leads_ite
  · intro _
    apply leads_get_bind
    generalize hmarked : node.replace id _ = marked
    rcases (steady_replace node id _).session hknown with ⟨session, hsession⟩
    rw [hmarked] at hsession
    have hdownload : marked.sync.Healthy ->
        ((marked.sync.downloads.get? id).getD (PendingDownload.start tipHash)).Healthy := by
      intro hhealthy
      cases hget : marked.sync.downloads.get? id with
      | some download => exact hhealthy id download hget
      | none =>
          exact ⟨TipIs.isHash htip, (by intro token h; cases h), fun _ => rfl, Nat.zero_le _⟩
    generalize (marked.sync.downloads.get? id).getD (PendingDownload.start tipHash) = download
      at hdownload
    have hvalid : marked.Healthy -> (Request.getMempool
        { tipHash := download.tip
          snapshotId := download.token
          cursor := download.cursor
          limit := marked.config.mempoolPageSize }).payload.Valid := by
      intro hhealthy
      have hasked := hdownload hhealthy.sync
      exact ⟨hasked.cursor, hasked.tip, marked.config.sizes_pos _ (by simp),
        marked.config.mempoolPageSize_le, hasked.start, hasked.token⟩
    have hrequest : Leads (Talk (Says input)) (Node.request env id (.getMempool
        { tipHash := download.tip
          snapshotId := download.token
          cursor := download.cursor
          limit := marked.config.mempoolPageSize })) marked (fun _ _ => True) Unhealthy :=
      request_leads hsession trivial hvalid
    refine leads_bind (Leads.calm (hrequest.post
      (fun _ _ hmoves _ => (talk_apart hmoves).sync))) ?_
    intro requested node' hmove hsame
    rcases (calm_steady hmove).session hsession with ⟨later, hlater⟩
    apply leads_ite
    · intro _
      refine leads_modifySync_bind rfl rfl ?_ ?_
      · intro _ hhealthy other found hfound
        rw [Dict.get?_set] at hfound
        split at hfound
        · rw [← Option.some.inj hfound]
          rw [hsame] at hhealthy
          exact hdownload hhealthy
        · exact hhealthy other found hfound
      · exact leads_quiet hlater
          ⟨rfl, rfl, rfl, rfl, rfl, rfl, rfl, Or.inl rfl, Or.inr (by simp), Or.inl rfl⟩
    · intro _
      exact leads_pure trivial
  · intro _
    exact leads_pure trivial

omit [Crypto] in
theorem live_known {ids : List Str}
    (hids : ids = (node.sessions.items.filter (fun item => item.2.live)).map Prod.fst) {id : Str}
    (hid : id ∈ ids) : id ∈ node.sessions.keys := by
  rw [hids] at hid
  rcases List.mem_map.mp hid with ⟨item, hitem, heq⟩
  rw [← heq]
  exact List.mem_map_of_mem (List.mem_filter.mp hitem).left

theorem syncTick_leads {env : Env} :
    Leads (Calm store input) (syncTick env) node (fun _ _ => True) Unhealthy := by
  unfold syncTick
  apply leads_get_bind
  have hexpire : Leads (Calm store input) (node.sync.exports.keys.forM (expireExport env)) node
      (fun _ _ => True) Unhealthy :=
    leads_forM trivial (fun id _ _ _ _ => expireExport_leads env id)
  refine leads_bind hexpire ?_
  intro _ expired _ _
  refine leads_tip_bind ?_ (fun _ h => h)
  intro height tipHash htip
  apply leads_get_bind
  generalize hids : (expired.sessions.items.filter (fun item => item.2.live)).map Prod.fst =
    ids
  refine leads_modifySync_bind rfl rfl (fun _ h => h) ?_
  apply leads_get_bind
  generalize hsourced : ({ expired with sync := _ } : Node disk) = sourced
  have hchain : sourced.chain = expired.chain := by
    rw [← hsourced]
  have hkeys : sourced.sessions = expired.sessions := by
    rw [← hsourced]
  rw [← hchain] at htip
  have hrequests : forall next : Node disk, next.chain = sourced.chain ->
      next.sessions.keys = sourced.sessions.keys ->
      Leads (Calm store input) (ids.forM (requestMempool env height tipHash)) next
        (fun _ _ => True) Unhealthy := by
    intro next hnext hnextKeys
    apply leads_forM trivial
    intro id hid later hmoves _
    have hmem : id ∈ later.sessions.keys := by
      rw [(calm_steady hmoves).keys, hnextKeys, hkeys]
      exact live_known hids.symm hid
    rcases Dict.exists_get?_of_mem_keys hmem with ⟨known, hknown⟩
    apply requestMempool_leads _ hknown
    rw [calm_chain hmoves, hnext]
    exact htip
  apply leads_ite
  · intro _
    refine leads_bind (requestBlocks_leads htip) ?_
    intro _ later hmoves _
    exact hrequests later (calm_chain hmoves) (calm_steady hmoves).keys
  · intro _
    exact hrequests sourced rfl rfl

/-!
## Failures
-/

/-- An error code that a session is marked with for good comes from its peer. -/
def Reported (input : EventKind) (id : Str) (code : FailureCode) : Prop :=
  forall error, code = .remote error -> (error = .forkUnsupported ∨ error = .unknownAnchor) ->
    exists message requestId,
      input = .remote id { payload := .error error message, requestId := requestId }

theorem calm_failed {id : Str} {code : FailureCode} {known later : Session}
    (hknown : node.sessions.get? id = some known) (hreported : Reported input id code)
    (hquiet : code ≠ .remote .forkUnsupported -> Quiet known later)
    (hdiverged : code = .remote .forkUnsupported ->
      Quiet { known with
        syncState := .diverged
        error := some (.failed (.remote .forkUnsupported)) } later) :
    Calm store input node (node.replace id later) := by
  by_cases hcode : code = .remote .forkUnsupported
  · rcases hreported _ hcode (Or.inl rfl) with ⟨message, requestId, hinput⟩
    have hlater := hdiverged hcode
    refine calm_replace hknown
      (Move.diverged hknown (Or.inr (Or.inr ⟨message, requestId, hinput⟩)) hlater) ?_
    rw [hlater.peer]
  · exact (Talk.quiet hknown (hquiet hcode)).calm

theorem failedRequest_leads {env : Env} {id : Str} {request : Request} {code : FailureCode}
    {known : Session} (hknown : node.sessions.get? id = some known)
    (hreported : Reported input id code) :
    Leads (Calm store input) (failedRequest env id request code) node
      (fun _ _ => True) Unhealthy := by
  unfold failedRequest
  apply leads_get_bind
  have hmarked : Calm store input node
      (node.replace id { known with error := some (.failed code) }) := by
    apply calm_failed hknown hreported
    · intro hcode
      refine ⟨rfl, rfl, rfl, rfl, rfl, rfl, rfl, Or.inl rfl, Or.inl rfl, Or.inr ?_⟩
      simpa using hcode
    · intro hcode
      rw [hcode]
      refine ⟨rfl, rfl, rfl, rfl, rfl, rfl, rfl, Or.inl rfl, ?_, Or.inl rfl⟩
      by_cases hstate : known.syncState = .diverged
      · exact Or.inl hstate
      · exact Or.inr hstate
  refine leads_modifySession_bind hknown (Relation.ReflTransGen.single hmarked) ?_
  have hself : (node.replace id { known with error := some (.failed code) }).sessions.get? id =
      some { known with error := some (.failed code) } := get?_replace_self hknown
  generalize node.replace id { known with error := some (.failed code) } = marked at hself
  have hask : forall (later : Node disk) (session : Session),
      later.sessions.get? id = some session ->
      Leads (Calm store input) (discard (Node.request env id .getStatus)) later
        (fun _ _ => True) Unhealthy := by
    intro later session hsession
    have hrequest : Leads (Talk (Says input)) (Node.request env id .getStatus) later
        (fun _ _ => True) Unhealthy := request_leads hsession trivial (fun _ => trivial)
    exact Leads.calm hrequest.discard
  cases request with
  | getStatus => exact leads_pure trivial
  | getPeers => exact leads_pure trivial
  | getBlocks payload =>
      refine leads_modifySync_bind rfl rfl (fun _ h => h) ?_
      generalize hcleared : ({ marked with sync := _ } : Node disk) = cleared
      have hsession : cleared.sessions.get? id =
          some { known with error := some (.failed code) } := by
        rw [← hcleared]
        exact hself
      refine leads_modifySession_bind hsession (Relation.ReflTransGen.single ?_) ?_
      · apply calm_failed hsession hreported
        · intro hcode
          refine ⟨rfl, rfl, rfl, rfl, rfl, rfl, rfl, Or.inl rfl, Or.inr ?_, Or.inl rfl⟩
          simp [hcode]
        · intro hcode
          rw [hcode]
          exact ⟨rfl, rfl, rfl, rfl, rfl, rfl, rfl, Or.inl rfl, Or.inl rfl, Or.inl rfl⟩
      · generalize hstopped : ({ known with
            error := some (.failed code)
            syncAfter := env.now + node.config.retryDelay
            syncState :=
              if code = .remote .forkUnsupported then .diverged else .idle } : Session) =
          stopped
        have hstopped : (cleared.replace id stopped).sessions.get? id = some stopped :=
          get?_replace_self hsession
        apply leads_ite
        · intro hcode
          refine leads_modifySession_bind hstopped (Relation.ReflTransGen.single ?_)
            (hask _ _ (get?_replace_self hstopped))
          rcases hreported _ hcode (Or.inr rfl) with ⟨message, requestId, hinput⟩
          exact calm_replace hstopped (Move.refused hstopped hinput) rfl
        · intro _
          exact leads_pure trivial
  | getMempool payload =>
      refine leads_modifySync_bind rfl rfl ?_ ?_
      · intro _ hhealthy other download hdownload
        rw [Dict.get?_erase] at hdownload
        split at hdownload
        · cases hdownload
        · exact hhealthy other download hdownload
      · generalize hcleared : ({ marked with sync := _ } : Node disk) = cleared
        have hsession : cleared.sessions.get? id =
            some { known with error := some (.failed code) } := by
          rw [← hcleared]
          exact hself
        refine leads_quiet_bind hsession
          ⟨rfl, rfl, rfl, rfl, rfl, rfl, rfl, Or.inl rfl, Or.inr (by simp), Or.inl rfl⟩ ?_
        apply leads_ite
        · intro _
          exact hask _ _ (get?_replace_self hsession)
        · intro _
          exact leads_pure trivial

/-!
## Block batches
-/

theorem extendBatch_raises {config : NodeConfig} {requestId : Option Str} {height index : Nat}
    {block : Block} {result : BlocksPayload} :
    Raises Refusal (extendBatch config requestId height index block result) := by
  unfold extendBatch
  refine raises_bind (raises_pack (item_pos config) (raises_encodeBlock block)) fun _ _ => ?_
  exact raises_bind (raises_encodeMessage _ (frame_pos config)) fun _ _ => raises_ok _

theorem extendBatch_tip {config : NodeConfig} {requestId : Option Str} {height index : Nat}
    {block : Block} {result trial : BlocksPayload}
    (h : extendBatch config requestId height index block result = .ok trial) :
    trial.tipHeight = result.tipHeight ∧ trial.tipHash = result.tipHash := by
  unfold extendBatch at h
  rcases bind_eq_ok_iff.mp h with ⟨encoded, _, h⟩
  rcases bind_eq_ok_iff.mp h with ⟨_, _, h⟩
  cases h
  exact ⟨rfl, rfl⟩

theorem collectBlocks_raises {config : NodeConfig} {requestId : Option Str} {height : Nat}
    (blocks : List Block) : forall (index : Nat) (result : BlocksPayload),
      Raises Refusal (collectBlocks config requestId height blocks index result) := by
  induction blocks with
  | nil =>
      intro index result
      exact raises_ok _
  | cons block rest ih =>
      intro index result
      unfold collectBlocks
      cases hextend : extendBatch config requestId height index block result with
      | ok trial => exact ih _ _
      | error e =>
          simp only
          split
          · split
            · exact raises_ok _
            · exact raises_ok _
          · exact raises_error (extendBatch_raises e hextend)

theorem collectBlocks_tip {config : NodeConfig} {requestId : Option Str} {height : Nat}
    (blocks : List Block) : forall (index : Nat) (result batch : BlocksPayload),
      collectBlocks config requestId height blocks index result = .ok (some batch) ->
        batch.tipHeight = result.tipHeight ∧ batch.tipHash = result.tipHash := by
  induction blocks with
  | nil =>
      intro index result batch h
      cases h
      exact ⟨rfl, rfl⟩
  | cons block rest ih =>
      intro index result batch h
      unfold collectBlocks at h
      cases hextend : extendBatch config requestId height index block result with
      | ok trial =>
          simp only [hextend] at h
          have hlater := ih _ _ _ h
          have hfirst := extendBatch_tip hextend
          exact ⟨hlater.left.trans hfirst.left, hlater.right.trans hfirst.right⟩
      | error e =>
          simp only [hextend] at h
          split at h
          · split at h
            · cases h
            · cases h
              exact ⟨rfl, rfl⟩
          · cases h

theorem blocksReply_spec {config : NodeConfig} {chain : Blockchain}
    {payload : GetBlocksPayload} {requestId : Option Str}
    {reply : Except ErrorCode BlocksPayload}
    (h : blocksReply config chain payload requestId = .ok reply) :
    match reply with
    | .ok batch => TipIs chain batch.tipHeight batch.tipHash
    | .error code =>
        code = .policyLimit ∨
          (code = .unknownAnchor ∧
            (chain.blocks[payload.anchorHeight]?).map Block.hash ≠ some payload.anchorHash) := by
  unfold blocksReply at h
  rcases bind_eq_ok_iff.mp h with ⟨found, hfound, h⟩
  unfold Blockchain.getBlockByHeight at hfound
  rcases bind_eq_ok_iff.mp hfound with ⟨_, _, hget⟩
  have hget' : chain.blocks[payload.anchorHeight]? = found := Except.ok.inj hget
  cases found with
  | none =>
      cases h
      exact Or.inr ⟨rfl, by simp [hget']⟩
  | some anchor =>
      simp only at h
      split at h
      · rename_i hdiffers
        cases h
        exact Or.inr ⟨rfl, by simpa [hget'] using hdiffers⟩
      · rcases bind_eq_ok_iff.mp h with ⟨height, hheight, h⟩
        rcases bind_eq_ok_iff.mp h with ⟨latest, hlatest, h⟩
        rcases bind_eq_ok_iff.mp h with ⟨collected, hcollected, h⟩
        cases collected with
        | none =>
            cases h
            exact Or.inl rfl
        | some batch =>
            cases h
            have htip := collectBlocks_tip _ _ _ _ hcollected
            simp only at htip ⊢
            rw [htip.left, htip.right]
            exact tipIs_of_latest hheight hlatest

theorem blocksReply_raises {config : NodeConfig} {chain : Blockchain}
    {payload : GetBlocksPayload} {requestId : Option Str} {e : PyError}
    (husable : Blockchain.ensureUsable chain = .ok ()) (hnonempty : chain.blocks ≠ [])
    (h : blocksReply config chain payload requestId = .error e) : Refusal e := by
  unfold blocksReply at h
  rcases bind_eq_error_iff.mp h with hfound | ⟨found, _, h⟩
  · unfold Blockchain.getBlockByHeight at hfound
    rw [husable] at hfound
    cases hfound
  cases found with
  | none => cases h
  | some anchor =>
      simp only at h
      split at h
      · cases h
      · rw [height_total husable] at h
        rcases getLatestBlock_total husable hnonempty with ⟨latest, hlatest⟩
        rw [hlatest] at h
        rcases bind_eq_error_iff.mp h with hheight | ⟨height, _, h⟩
        · cases hheight
        rcases bind_eq_error_iff.mp h with hlast | ⟨last, _, h⟩
        · cases hlast
        rcases bind_eq_error_iff.mp h with hcollect | ⟨collected, _, h⟩
        · exact collectBlocks_raises _ _ _ e hcollect
        · cases collected with
          | none => cases h
          | some batch => cases h

theorem serveBlocks_leads {id : Str} {payload : GetBlocksPayload} {requestId : Option Str}
    {known : Session} (hknown : node.sessions.get? id = some known)
    (hinput : input = .remote id { payload := .getBlocks payload, requestId := requestId }) :
    Leads (Calm store input) (serveBlocks id payload requestId) node
      (fun _ _ => True) Rejected := by
  unfold serveBlocks
  apply leads_get_bind
  apply leads_lift_bind
  · intro reply hreply
    have hspec := blocksReply_spec hreply
    cases reply with
    | ok batch =>
        have hsend : Leads (Talk (Says input))
            (send id { payload := .blocks batch, requestId := requestId }) node
            (fun _ _ => True) Rejected := by
          refine (send_leads hknown hspec).weaken (fun _ _ _ _ => trivial) ?_
          rintro e node' _ ⟨_, hencode⟩
          exact rejected_of_refusal (raises_encodeMessage _ (frame_pos node.config) e hencode)
        exact Leads.calm hsend.discard
    | error code =>
        refine Leads.calm (sendError_leads hknown ?_)
        rcases hspec with rfl | ⟨rfl, hdiffers⟩
        · exact ⟨by decide, fun h => by cases h⟩
        · exact ⟨by decide, fun _ => ⟨payload, requestId, hinput, hdiffers⟩⟩
  · intro e he hhealthy
    exact rejected_of_refusal (blocksReply_raises hhealthy.usable hhealthy.nonempty he) hhealthy

omit [Crypto] in
theorem rejected_unpack {alpha : Type} {value : Str} {decoder : Bytes -> Except PyError alpha}
    {config : NodeConfig} (h : forall data, Raises Corruption (decoder data)) {e : PyError}
    (he : unpack value decoder config.maxItemBytes = .error e) : Rejected e node :=
  rejected_of_refusal (raises_unpack (item_pos config) h e he)

theorem acceptBatch_leads {env : Env} {id : Str} {payload : BlocksPayload}
    {requestId : Option Str}
    (hinput : input = .remote id { payload := .blocks payload, requestId := requestId })
    (encoded : List Str) : forall node : Node disk, id ∈ node.sessions.keys ->
      (forall item, item ∈ encoded -> item ∈ payload.blocks) ->
      Leads (Act store input) (acceptBatch store env id encoded) node
        (fun _ _ => True) Rejected := by
  induction encoded with
  | nil =>
      intro node _ _
      exact leads_pure trivial
  | cons first rest ih =>
      intro node hid hitems
      unfold acceptBatch
      apply leads_get_bind
      apply leads_lift_bind
      · intro block hblock
        refine leads_tip_bind ?_ (fun _ h hhealthy => (h hhealthy).elim)
        intro height tipHash htip
        apply leads_ite
        · intro _
          exact leads_throw (rejected_of_refusal trivial)
        · intro _
          have hbrings : input.Brings node.config.maxItemBytes block := by
            rw [hinput]
            exact ⟨first, hitems first List.mem_cons_self, hblock⟩
          have haccept : Leads (Act store input) (acceptBlock store env block (some id)) node
              (fun _ _ => True) Rejected := by
            apply acceptBlock_leads _ hbrings
            intro other hother
            rw [← Option.some.inj hother]
            exact Dict.exists_get?_of_mem_keys hid
          refine leads_bind haccept ?_
          intro accepted node' hacts _
          apply leads_ite
          · intro _
            apply ih
            · rw [(moves_steady (acts_moves hacts)).keys]
              exact hid
            · intro item hitem
              exact hitems item (List.mem_cons_of_mem first hitem)
          · intro _
            exact leads_pure trivial
      · intro e he
        exact rejected_unpack (fun data => raises_decodeBlock data) he

theorem receiveBlocks_leads {env : Env} {id : Str} {expected : GetBlocksPayload}
    {payload : BlocksPayload} {requestId : Option Str} {known : Session}
    (hknown : node.sessions.get? id = some known)
    (hinput : input = .remote id { payload := .blocks payload, requestId := requestId }) :
    Leads (Act store input) (receiveBlocks store env id expected payload) node
      (fun _ _ => True) Rejected := by
  unfold receiveBlocks
  have hcleared : Calm store input node { node with sync := { node.sync with source := none } } :=
    calm_synced (fun h => ⟨h.sum, h.bounded⟩) (fun _ h => h)
  unfold modifySync
  refine leads_modify_bind (Relation.ReflTransGen.single (Act.calm hcleared)) ?_
  generalize hsourced : ({ node with sync := _ } : Node disk) = sourced
  have hsession : sourced.sessions.get? id = some known := by
    rw [← hsourced]
    exact hknown
  have hquiet : Quiet known { known with syncState := .idle } :=
    ⟨rfl, rfl, rfl, rfl, rfl, rfl, rfl, Or.inl rfl, Or.inr (by simp), Or.inl rfl⟩
  have hidle : Calm store input sourced (sourced.replace id { known with syncState := .idle }) :=
    (Talk.quiet hsession hquiet).calm
  refine leads_modifySession_bind hsession (Relation.ReflTransGen.single (Act.calm hidle)) ?_
  have hself : (sourced.replace id { known with syncState := .idle }).sessions.get? id =
      some { known with syncState := .idle } := get?_replace_self hsession
  generalize sourced.replace id { known with syncState := .idle } = idle at hself
  apply leads_ite
  · intro _
    exact leads_throw (rejected_of_refusal trivial)
  intro _
  refine leads_tip_bind ?_ (fun _ h hhealthy => (h hhealthy).elim)
  intro height tipHash htip
  apply leads_ite
  · intro _
    exact leads_pure trivial
  intro _
  apply leads_ite
  · intro _
    exact leads_throw (rejected_of_refusal trivial)
  intro _
  refine leads_bind (acceptBatch_leads hinput payload.blocks idle
    (Dict.mem_keys_of_get? hself) (fun _ h => h)) ?_
  intro accepted reached hacts _
  rcases (moves_steady (acts_moves hacts)).session hself with ⟨session, hreached⟩
  apply leads_ite
  · intro _
    have hfailed : Leads (Calm store input)
        (failedRequest env id (.getBlocks expected) (.remote .badMessage)) reached
        (fun _ _ => True) Unhealthy := by
      apply failedRequest_leads hreached
      intro error herror hmarks
      cases herror
      rcases hmarks with h | h
      · cases h
      · cases h
    exact Leads.acts (hfailed.weaken (fun _ _ _ h => h) (fun _ _ _ h => h.rejected))
  intro _
  refine leads_tip_bind ?_ (fun _ h hhealthy => (h hhealthy).elim)
  intro height' tipHash' _
  apply leads_ite
  · intro _
    exact leads_throw (rejected_of_refusal trivial)
  intro _
  apply leads_get_bind
  have hheard : Calm store input reached (reached.replace id
      { session with remoteHeight := payload.tipHeight, remoteTip := payload.tipHash }) :=
    calm_replace hreached (Move.heard hreached hinput ⟨rfl, rfl⟩) rfl
  have hmarked : Calm store input
      (reached.replace id
        { session with remoteHeight := payload.tipHeight, remoteTip := payload.tipHash })
      (reached.replace id
        { session with
          remoteHeight := payload.tipHeight
          remoteTip := payload.tipHash
          syncAfter :=
            if payload.blocks = [] then env.now + reached.config.retryDelay else 0
          error := if payload.blocks = [] then some .noProgress else none }) := by
    have hquietLater : Quiet
        { session with remoteHeight := payload.tipHeight, remoteTip := payload.tipHash }
        { session with
          remoteHeight := payload.tipHeight
          remoteTip := payload.tipHash
          syncAfter :=
            if payload.blocks = [] then env.now + reached.config.retryDelay else 0
          error := if payload.blocks = [] then some .noProgress else none } := by
      refine ⟨rfl, rfl, rfl, rfl, rfl, rfl, rfl, Or.inl rfl, Or.inl rfl, Or.inr ?_⟩
      simp only
      split
      · simp
      · simp
    have hcalm : Calm store input _ _ := calm_quiet (get?_replace_self hreached) hquietLater
    rw [replace_replace] at hcalm
    exact hcalm
  refine leads_modifySession_bind hreached
    ((Relation.ReflTransGen.single (Act.calm hheard)).tail (Act.calm hmarked)) ?_
  apply leads_ite
  · intro _
    have hask : Leads (Talk (Says input)) (Node.request env id .getStatus)
        (reached.replace id
          { session with
            remoteHeight := payload.tipHeight
            remoteTip := payload.tipHash
            syncAfter :=
              if payload.blocks = [] then env.now + reached.config.retryDelay else 0
            error := if payload.blocks = [] then some .noProgress else none })
        (fun _ _ => True) Unhealthy :=
      request_leads (get?_replace_self hreached) trivial (fun _ => trivial)
    exact Leads.acts (Leads.calm (hask.discard.weaken (fun _ _ _ _ => trivial)
      (fun _ _ _ h => h.rejected)))
  · intro _
    exact leads_pure trivial

/-!
## Snapshot pages
-/

theorem send_calm {id : Str} {packet : Packet} {known : Session}
    (hknown : node.sessions.get? id = some known)
    (hsaid : Says input id node.chain known packet.payload) :
    Leads (Calm store input) (discard (send id packet)) node (fun _ _ => True) Rejected := by
  have hsend : Leads (Talk (Says input)) (send id packet) node (fun _ _ => True) Rejected := by
    refine (send_leads hknown hsaid).weaken (fun _ _ _ _ => trivial) ?_
    rintro e node' _ ⟨_, hencode⟩
    exact rejected_of_refusal (raises_encodeMessage _ (frame_pos node.config) e hencode)
  exact Leads.calm hsend.discard

omit [Crypto] in
theorem collectPage_raises {config : NodeConfig} {requestId : Option Str} {total : Nat}
    (items : List Bytes) : forall (index : Nat) (result : MempoolPayload),
      Raises Refusal (collectPage config requestId total items index result) := by
  induction items with
  | nil =>
      intro index result
      exact raises_ok _
  | cons item rest ih =>
      intro index result
      unfold collectPage
      simp only
      split
      · exact ih _ _
      · rename_i e hencode
        split
        · exact raises_ok _
        · exact raises_error (raises_encodeMessage _ (frame_pos config) e hencode)

theorem snapshotItem_raises {config : NodeConfig} {requestId : Option Str}
    {tipHash token : Str} {count : Nat} (transaction : Transaction) :
    Raises Refusal (snapshotItem config requestId tipHash token count transaction) := by
  unfold snapshotItem
  refine raises_bind (raises_pack (item_pos config) (raises_encodeTransaction transaction))
    fun encoded hencoded => ?_
  refine raises_bind (raises_encodeMessage _ (frame_pos config)) fun _ _ => ?_
  rcases packTransaction_eq_ok_iff.mp hencoded with ⟨_, _, _, htext⟩
  rw [htext, Base64.decode_encode]
  exact raises_ok _

omit [Crypto] in
theorem accounted_set {globalBytes : Nat} {sync : SyncManager} {id : Str}
    {snapshot later : ExportSnapshot} (hexport : sync.exports.get? id = some snapshot)
    (hsize : later.size = snapshot.size) (h : sync.Accounted globalBytes) :
    ({ sync with exports := sync.exports.set id later } : SyncManager).Accounted globalBytes := by
  have htotal := Dict.total_set (fun snapshot : ExportSnapshot => (snapshot.size : Int))
    sync.exports id later
  have herased := Dict.total_erase (fun snapshot : ExportSnapshot => (snapshot.size : Int))
    (Dict.mem_keys_of_get? hexport)
  rw [Dict.weightAt_of_get? _ hexport, ← hsize] at herased
  refine ⟨?_, h.bounded⟩
  change sync.snapshotBytes = (sync.exports.set id later).total _
  rw [h.sum, htotal]
  omega

omit [Crypto] in
theorem accounted_insert {globalBytes size : Nat} {sync : SyncManager} {id : Str}
    {snapshot : ExportSnapshot} (hfresh : sync.exports.get? id = none)
    (hsize : snapshot.size = size) (hroom : sync.snapshotBytes + size ≤ globalBytes)
    (h : sync.Accounted globalBytes) :
    ({ sync with
        exports := sync.exports.set id snapshot
        snapshotBytes := sync.snapshotBytes + size } : SyncManager).Accounted globalBytes := by
  have htotal := Dict.total_set (fun snapshot : ExportSnapshot => (snapshot.size : Int))
    sync.exports id snapshot
  have herased : sync.exports.erase id = sync.exports := Dict.erase_of_get?_none hfresh
  rw [herased, hsize] at htotal
  have hsum := h.sum
  refine ⟨?_, hroom⟩
  change sync.snapshotBytes + (size : Int) = (sync.exports.set id snapshot).total _
  omega

theorem servePage_leads {env : Env} {id : Str} {payload : GetMempoolPayload}
    {requestId : Option Str} {tipHash : Str} {snapshot : ExportSnapshot} {known : Session}
    (hknown : node.sessions.get? id = some known)
    (hexport : node.sync.exports.get? id = some snapshot) :
    Leads (Calm store input) (servePage env id payload requestId tipHash snapshot) node
      (fun _ _ => True) Rejected := by
  unfold servePage
  apply leads_ite
  · intro _
    exact leads_throw (rejected_of_refusal trivial)
  intro _
  apply leads_get_bind
  apply leads_lift_bind
  · intro page hpage
    apply leads_ite
    · intro _
      refine leads_bind (dropExport_leads id).true ?_
      intro _ dropped hmoves _
      rcases (calm_steady hmoves).session hknown with ⟨session, hsession⟩
      exact Leads.calm (sendError_leads hsession ⟨by decide, fun h => by cases h⟩)
    · intro _
      unfold modifySync
      refine leads_modify_bind (Relation.ReflTransGen.single (calm_synced ?_ ?_)) ?_
      · exact accounted_set hexport rfl
      · exact fun _ h => h
      · refine leads_bind (send_calm hknown trivial) ?_
        intro _ sent _ _
        apply leads_ite
        · intro _
          exact (dropExport_leads id).true
        · intro _
          exact leads_pure trivial
  · intro e he
    exact rejected_of_refusal (collectPage_raises _ _ _ e he)

/-- The reservation of a snapshot is given back when it cannot be built, so nothing
between the two can be seen. -/
theorem openSnapshot_eq (env : Env) (id : Str) (requestId : Option Str) (tipHash : Str)
    (count size : Nat) :
    (openSnapshot env id requestId tipHash count size : NodeM disk _) node =
      (do
        let token <- drawToken
        let node <- get
        match node.chain.mempool.getTransactions.mapM
            (snapshotItem node.config requestId tipHash token count) with
        | .ok items =>
            let snapshot : ExportSnapshot :=
              { token := token
                tip := tipHash
                items := items
                size := size
                cursor := 0
                created := env.now
                touched := env.now }
            modifySync (fun sync =>
              { sync with
                exports := sync.exports.set id snapshot
                snapshotBytes := sync.snapshotBytes + size })
            return some snapshot
        | .error e =>
            if isPolicyLimit e then
              sendError id requestId .policyLimit
              return none
            else throw e : NodeM disk (Option ExportSnapshot)) node := by
  have hreserved : (modifySync (fun sync =>
      { sync with snapshotBytes := sync.snapshotBytes + size }) : NodeM disk PUnit) node =
    .ok ⟨⟩ { node with
      sync := { node.sync with snapshotBytes := node.sync.snapshotBytes + size } } := rfl
  have hdrawn : forall node : Node disk, (drawToken : NodeM disk Str) node =
      .ok (node.entropy.token node.drawn) { node with drawn := node.drawn + 1 } :=
    fun _ => rfl
  have hget : forall node : Node disk, (get : NodeM disk (Node disk)) node = .ok node node :=
    fun _ => rfl
  unfold openSnapshot
  rw [run_bind_ok hreserved, run_bind_ok (hdrawn _), run_bind_ok (hdrawn node),
    run_bind_ok (hget _), run_bind_ok (hget _)]
  simp only
  cases node.chain.mempool.getTransactions.mapM
      (snapshotItem node.config requestId tipHash (node.entropy.token node.drawn) count) with
  | ok items => rfl
  | error e =>
      simp only
      have hreturned : (modifySync (fun sync =>
          { sync with snapshotBytes := sync.snapshotBytes - size }) : NodeM disk PUnit)
          { node with
            sync := { node.sync with snapshotBytes := node.sync.snapshotBytes + size }
            drawn := node.drawn + 1 } =
        .ok ⟨⟩ { node with drawn := node.drawn + 1 } := by
        have hsum : node.sync.snapshotBytes + (size : Int) - size = node.sync.snapshotBytes := by
          omega
        unfold modifySync
        change EStateM.Result.ok _ _ = _
        simp only [hsum]
      rw [run_bind_ok hreturned]

theorem openSnapshot_leads {env : Env} {id : Str} {requestId : Option Str} {tipHash : Str}
    {count size : Nat} {known : Session} (hknown : node.sessions.get? id = some known)
    (hfresh : node.sync.exports.get? id = none)
    (hroom : node.sync.snapshotBytes + size ≤ node.config.snapshotGlobalBytes) :
    Leads (Calm store input) (openSnapshot env id requestId tipHash count size) node
      (fun answer node' => forall snapshot, answer = some snapshot ->
        node'.sync.exports.get? id = some snapshot) Rejected := by
  unfold Leads
  rw [openSnapshot_eq]
  change Leads (Calm store input) _ node _ _
  apply leads_drawToken_bind (Talk.calm Talk.drew)
  apply leads_get_bind
  simp only
  split
  · rename_i items hitems
    unfold modifySync
    refine leads_modify_bind (Relation.ReflTransGen.single (calm_synced ?_ (fun _ h => h))) ?_
    · intro haccounted
      exact accounted_insert hfresh rfl hroom haccounted
    · refine leads_pure ?_
      intro snapshot hsnapshot
      rw [← Option.some.inj hsnapshot]
      change (node.sync.exports.set id _).get? id = _
      rw [Dict.get?_set, if_pos rfl]
  · rename_i e hitems
    apply leads_ite
    · intro _
      have herror : Leads (Calm store input) (sendError id requestId .policyLimit)
          { node with drawn := node.drawn + 1 } (fun _ _ => True) Rejected :=
        Leads.calm (sendError_leads hknown ⟨by decide, fun h => by cases h⟩)
      refine leads_bind herror ?_
      intro _ _ _ _
      refine leads_pure ?_
      intro snapshot hsnapshot
      cases hsnapshot
    · intro _
      exact leads_throw (rejected_of_refusal (raises_mapM snapshotItem_raises _ e hitems))

theorem serveFirst_leads {env : Env} {id : Str} {payload : GetMempoolPayload}
    {requestId : Option Str} {tipHash : Str} {known : Session}
    (hknown : node.sessions.get? id = some known) :
    Leads (Calm store input) (serveFirst env id payload requestId tipHash) node
      (fun _ _ => True) Rejected := by
  unfold serveFirst
  apply leads_get_bind
  apply leads_session_bind hknown
  apply leads_ite
  · intro _
    exact Leads.calm (sendError_leads hknown ⟨by decide, fun h => by cases h⟩)
  intro havailable
  have hfresh : node.sync.exports.get? id = none := by
    cases hexport : node.sync.exports.get? id with
    | none => rfl
    | some snapshot => exact absurd (Or.inl (by rw [hexport]; rfl)) havailable
  refine leads_quiet_bind hknown
    ⟨rfl, rfl, rfl, rfl, rfl, rfl, rfl, Or.inl rfl, Or.inl rfl, Or.inl rfl⟩ ?_
  generalize hmarked : ({ known with
    nextExport := env.now + node.config.snapshotCooldown } : Session) = marked
  have hself : (node.replace id marked).sessions.get? id = some marked :=
    get?_replace_self hknown
  have herror : forall code : ErrorCode, code ≠ .forkUnsupported -> code ≠ .unknownAnchor ->
      Leads (Calm store input) (sendError id requestId code) (node.replace id marked)
        (fun _ _ => True) Rejected :=
    fun code hfork hanchor =>
      Leads.calm (sendError_leads hself ⟨hfork, fun h => absurd h hanchor⟩)
  apply leads_lift_bind
  · intro stats hstats
    apply leads_ite
    · intro _
      exact herror _ (by decide) (by decide)
    intro _
    apply leads_ite
    · intro _
      exact herror _ (by decide) (by decide)
    intro hroom
    have hopen : Leads (Calm store input)
        (openSnapshot env id requestId tipHash stats.1 stats.2) (node.replace id marked)
        (fun answer node' => forall snapshot, answer = some snapshot ->
          node'.sync.exports.get? id = some snapshot) Rejected :=
      openSnapshot_leads hself hfresh (not_lt.mp hroom)
    refine leads_bind hopen ?_
    intro answer opened hmoves hexport
    cases answer with
    | none => exact leads_pure trivial
    | some snapshot =>
        rcases (calm_steady hmoves).session hself with ⟨session, hsession⟩
        exact servePage_leads hsession (hexport snapshot rfl)
  · intro e he hhealthy
    unfold Blockchain.getMempoolStats at he
    have husable : Blockchain.ensureUsable node.chain = .ok () := hhealthy.usable
    rw [husable] at he
    cases he

theorem serveMempool_leads {env : Env} {id : Str} {payload : GetMempoolPayload}
    {requestId : Option Str} {known : Session} (hknown : node.sessions.get? id = some known) :
    Leads (Calm store input) (serveMempool env id payload requestId) node
      (fun _ _ => True) Rejected := by
  unfold serveMempool
  refine leads_tip_bind ?_ (fun _ h hhealthy => (h hhealthy).elim)
  intro height tipHash htip
  have herror : forall (later : Node disk) (code : ErrorCode),
      (exists session, later.sessions.get? id = some session) ->
      code ≠ .forkUnsupported -> code ≠ .unknownAnchor ->
      Leads (Calm store input) (sendError id requestId code) later
        (fun _ _ => True) Rejected := by
    rintro later code ⟨session, hsession⟩ hfork hanchor
    exact Leads.calm (sendError_leads hsession ⟨hfork, fun h => absurd h hanchor⟩)
  apply leads_ite
  · intro _
    refine leads_bind (dropExport_leads id).true ?_
    intro _ dropped hmoves _
    exact herror dropped _ ((calm_steady hmoves).session hknown) (by decide) (by decide)
  intro _
  refine leads_bind (expireExport_leads env id) ?_
  intro _ expired hmoves _
  rcases (calm_steady hmoves).session hknown with ⟨session, hsession⟩
  split
  · exact serveFirst_leads hsession
  · rename_i token _
    apply leads_get_bind
    split
    · exact herror expired _ ⟨session, hsession⟩ (by decide) (by decide)
    · rename_i snapshot hexport
      apply leads_ite
      · intro _
        exact herror expired _ ⟨session, hsession⟩ (by decide) (by decide)
      · intro _
        exact servePage_leads hsession hexport

theorem acceptPage_leads {id : Str} {payload : MempoolPayload} {requestId : Option Str}
    (hinput : input = .remote id { payload := .mempool payload, requestId := requestId })
    {encoded : Str} (hitem : encoded ∈ payload.transactions) :
    Leads (Act store input) (acceptPage store id encoded) node (fun _ _ => True) Rejected := by
  unfold acceptPage
  apply leads_get_bind
  apply leads_lift_bind
  · intro transaction htransaction
    have hsubmits : input.Submits node.config.maxItemBytes transaction := by
      rw [hinput]
      exact ⟨encoded, hitem, htransaction⟩
    exact (submitTransaction_leads (Offered.submit hsubmits)).discard
  · intro e he
    exact rejected_unpack (fun data => raises_decodeTransaction data) he

theorem receiveMempool_leads {env : Env} {id : Str} {expected : GetMempoolPayload}
    {payload : MempoolPayload} {requestId : Option Str} {known : Session}
    (hknown : node.sessions.get? id = some known)
    (hinput : input = .remote id { payload := .mempool payload, requestId := requestId }) :
    Leads (Act store input) (receiveMempool store env id expected payload) node
      (fun _ _ => True) Rejected := by
  unfold receiveMempool
  refine leads_tip_bind ?_ (fun _ h hhealthy => (h hhealthy).elim)
  intro height tipHash htip
  apply leads_get_bind
  split
  · exact leads_pure trivial
  rename_i download hdownload
  apply leads_ite
  · intro _
    exact leads_pure trivial
  intro _
  apply leads_ite
  · intro _
    exact leads_throw (rejected_of_refusal trivial)
  intro hmatches
  have htipHash : payload.tipHash = download.tip := by
    unfold pageMatches at hmatches
    simp only [Bool.not_eq_false, Bool.and_eq_true, decide_eq_true_eq] at hmatches
    exact hmatches.left.left
  apply leads_ite
  · intro _
    exact leads_throw (rejected_of_refusal trivial)
  intro _
  simp only
  apply leads_ite
  · intro _
    exact leads_throw (rejected_of_refusal trivial)
  intro _
  have hpage : Leads (Act store input) (payload.transactions.forM (acceptPage store id)) node
      (fun _ _ => True) Rejected :=
    leads_forM trivial (fun encoded hitem _ _ _ => acceptPage_leads hinput hitem)
  refine leads_bind hpage ?_
  intro _ accepted hacts _
  rcases (moves_steady (acts_moves hacts)).session hknown with ⟨session, hsession⟩
  have hfinish : Leads (Calm store input)
      (do
        modifySync (fun sync =>
          { sync with
            downloads :=
              if payload.done then sync.downloads.erase id
              else sync.downloads.set id
                { download with
                  token := some payload.snapshotId
                  cursor := payload.nextCursor
                  count := download.count + payload.transactions.length
                  size := download.size + (payload.transactions.map rawSize).sum } })
        modifySession id (fun session =>
          if payload.done then
            { session with
              error := none
              nextMempool := env.now + node.config.mempoolRefreshInterval
              syncState := .idle }
          else { session with error := none })) accepted (fun _ _ => True) Rejected := by
    refine leads_modifySync_bind rfl rfl ?_ ?_
    · intro hvalid hhealthy other found hfound
      have hpayload : payload.Valid := (hvalid id _ hinput).payload
      by_cases hdone : payload.done = true
      · simp only [hdone, if_true] at hfound
        rw [Dict.get?_erase] at hfound
        split at hfound
        · cases hfound
        · exact hhealthy other found hfound
      · simp only [hdone, if_false, Bool.false_eq_true] at hfound
        rw [Dict.get?_set] at hfound
        split at hfound
        · rw [← Option.some.inj hfound]
          constructor
          · rw [← htipHash]
            exact hpayload.tipHash
          · intro token htoken
            rw [← Option.some.inj htoken]
            exact hpayload.snapshotId
          · intro hnone
            cases hnone
          · exact hpayload.nextCursor
        · exact hhealthy other found hfound
    · generalize hsynced : ({ accepted with sync := _ } : Node disk) = synced
      have hlater : synced.sessions.get? id = some session := by
        rw [← hsynced]
        exact hsession
      apply leads_quiet hlater
      split
      · exact ⟨rfl, rfl, rfl, rfl, rfl, rfl, rfl, Or.inl rfl, Or.inr (by simp),
          Or.inr (by simp)⟩
      · exact ⟨rfl, rfl, rfl, rfl, rfl, rfl, rfl, Or.inl rfl, Or.inl rfl, Or.inr (by simp)⟩
  exact Leads.acts hfinish

end Chain

end Node

end Network

end PyChain
