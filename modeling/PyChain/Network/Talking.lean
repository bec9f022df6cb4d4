import PyChain.Network.Moves

/-!
# Messages and local admission

Which moves the methods make that every handler uses: sending, broadcasting,
requesting, and offering an item to the chain.
-/

namespace PyChain

open Foundation

namespace Network

namespace Node

variable {disk : Type}

/-!
## Primitives
-/

section Primitives

variable {move : Node disk -> Node disk -> Prop} {node : Node disk} {alpha beta : Type}
  {post : beta -> Node disk -> Prop} {raised : PyError -> Node disk -> Prop}

theorem leads_lift {post : alpha -> Node disk -> Prop} {x : Except PyError alpha}
    (hok : forall a, x = .ok a -> post a node) (herror : forall e, x = .error e -> raised e node) :
    Leads move (lift x) node post raised := by
  cases x with
  | ok a => exact leads_pure (hok a rfl)
  | error e => exact leads_throw (herror e rfl)

theorem leads_lift_bind {x : Except PyError alpha} {next : alpha -> NodeM disk beta}
    (hok : forall a, x = .ok a -> Leads move (next a) node post raised)
    (herror : forall e, x = .error e -> raised e node) :
    Leads move (lift x >>= next) node post raised := by
  have hlift : Leads move (lift x) node (fun a node' => x = .ok a ∧ node' = node) raised :=
    leads_lift (fun a ha => ⟨ha, rfl⟩) herror
  refine leads_bind hlift ?_
  rintro a node' _ ⟨ha, hnode⟩
  rw [hnode]
  exact hok a ha

theorem session_run {id : Str} {known : Session} (h : node.sessions.get? id = some known) :
    session id node = .ok known node := by
  unfold session
  rw [run_bind_ok (rfl : (get : NodeM disk (Node disk)) node = .ok node node), h]
  rfl

theorem leads_session_bind {id : Str} {known : Session} {next : Session -> NodeM disk beta}
    (hknown : node.sessions.get? id = some known)
    (h : Leads move (next known) node post raised) :
    Leads move (session id >>= next) node post raised := by
  have hrun : Leads move (session id) node (fun s node' => s = known ∧ node' = node) raised :=
    leads_of_ok (session_run hknown) Relation.ReflTransGen.refl ⟨rfl, rfl⟩
  refine leads_bind hrun ?_
  rintro s node' _ ⟨hs, hnode⟩
  rw [hs, hnode]
  exact h

theorem leads_modifySession {id : Str} {known : Session} {f : Session -> Session}
    {post : PUnit -> Node disk -> Prop}
    (hknown : node.sessions.get? id = some known)
    (hmove : Relation.ReflTransGen move node (node.replace id (f known)))
    (hpost : post ⟨⟩ (node.replace id (f known))) :
    Leads move (modifySession id f) node post raised :=
  leads_of_ok (modifySession_run hknown f) hmove hpost

theorem leads_modifySession_bind {id : Str} {known : Session} {f : Session -> Session}
    {next : PUnit -> NodeM disk beta} (hknown : node.sessions.get? id = some known)
    (hmove : Relation.ReflTransGen move node (node.replace id (f known)))
    (h : Leads move (next ⟨⟩) (node.replace id (f known)) post raised) :
    Leads move (modifySession id f >>= next) node post raised := by
  have hrun : Leads move (modifySession id f) node
      (fun _ node' => node' = node.replace id (f known)) raised :=
    leads_modifySession hknown hmove rfl
  refine leads_bind hrun ?_
  intro _ node' _ hnode
  rw [hnode]
  exact h

theorem leads_drawToken_bind {next : Str -> NodeM disk beta}
    (hmove : move node { node with drawn := node.drawn + 1 })
    (h : Leads move (next (node.entropy.token node.drawn))
      { node with drawn := node.drawn + 1 } post raised) :
    Leads move (drawToken >>= next) node post raised := by
  have hrun : Leads move drawToken node
      (fun token node' => token = node.entropy.token node.drawn ∧
        node' = { node with drawn := node.drawn + 1 }) raised :=
    leads_of_ok rfl (Relation.ReflTransGen.single hmove) ⟨rfl, rfl⟩
  refine leads_bind hrun ?_
  rintro token node' _ ⟨htoken, hnode⟩
  rw [htoken, hnode]
  exact h

theorem leads_drawJitter_bind {next : Rat -> NodeM disk beta}
    (hmove : move node { node with drawn := node.drawn + 1 })
    (h : forall jitter, Leads move (next jitter)
      { node with drawn := node.drawn + 1 } post raised) :
    Leads move (drawJitter >>= next) node post raised := by
  have hrun : Leads move drawJitter node
      (fun _ node' => node' = { node with drawn := node.drawn + 1 }) raised :=
    leads_of_ok rfl (Relation.ReflTransGen.single hmove) rfl
  refine leads_bind hrun ?_
  intro jitter node' _ hnode
  rw [hnode]
  exact h jitter

end Primitives

section Chain

variable [Crypto] {store : Option (ChainStore disk)} {input : EventKind} {node : Node disk}

/-!
## Talking
-/

omit [Crypto] in
theorem frame_pos (config : NodeConfig) : 0 < config.maxFrameBytes :=
  config.sizes_pos _ (by simp)

omit [Crypto] in
theorem item_pos (config : NodeConfig) : 0 < config.maxItemBytes :=
  config.sizes_pos _ (by simp)

/-!
## Copies of a message
-/

/-- Every session has got at most so many copies of a packet. -/
def Passed (packet : Packet) (copies : Str -> Nat) (node next : Node disk) : Prop :=
  forall id session, node.sessions.get? id = some session ->
    exists later, next.sessions.get? id = some later ∧
      exists n, n ≤ copies id ∧
        later.peer.queue = session.peer.queue ++ List.replicate n packet

omit [Crypto] in
theorem passed_of_sessions {packet : Packet} {copies : Str -> Nat} {next : Node disk}
    (h : next.sessions = node.sessions) : Passed packet copies node next := by
  intro id session hsession
  rw [h]
  exact ⟨session, hsession, 0, Nat.zero_le _, (List.append_nil _).symm⟩

omit [Crypto] in
theorem Passed.mono {packet : Packet} {copies more : Str -> Nat} {next : Node disk}
    (h : Passed packet copies node next) (hle : forall id, copies id ≤ more id) :
    Passed packet more node next := by
  intro id session hsession
  rcases h id session hsession with ⟨later, hlater, n, hn, hqueue⟩
  exact ⟨later, hlater, n, hn.trans (hle id), hqueue⟩

omit [Crypto] in
theorem Passed.trans {packet : Packet} {copies more : Str -> Nat} {middle next : Node disk}
    (h : Passed packet copies node middle) (h' : Passed packet more middle next) :
    Passed packet (fun id => copies id + more id) node next := by
  intro id session hsession
  rcases h id session hsession with ⟨later, hlater, n, hn, hqueue⟩
  rcases h' id later hlater with ⟨last, hlast, m, hm, hqueue'⟩
  refine ⟨last, hlast, n + m, Nat.add_le_add hn hm, ?_⟩
  rw [hqueue', hqueue, List.append_assoc, List.replicate_append_replicate]

omit [Crypto] in
theorem passed_replace {packet : Packet} {id : Str} {session later : Session} {n : Nat}
    (hsession : node.sessions.get? id = some session)
    (hqueue : later.peer.queue = session.peer.queue ++ List.replicate n packet) :
    Passed packet (fun other => if other = id then n else 0) node (node.replace id later) := by
  intro other known hknown
  rw [get?_replace hsession]
  by_cases hsame : other = id
  · rw [if_pos hsame]
    rw [hsame, hsession] at hknown
    rw [← Option.some.inj hknown]
    refine ⟨later, rfl, n, ?_, hqueue⟩
    simp only
    rw [if_pos hsame]
  · rw [if_neg hsame]
    exact ⟨known, hknown, 0, Nat.zero_le _, (List.append_nil _).symm⟩

omit [Crypto] in
theorem queue_beginClose (peer : PeerConnection) : peer.beginClose.queue = peer.queue := by
  unfold PeerConnection.beginClose
  split
  · rfl
  · rfl

section Speaking

variable {speech : Str -> Blockchain -> Session -> Payload -> Prop} {id : Str}
  {packet : Packet} {known : Session}

omit [Crypto] in
theorem send_leads (hknown : node.sessions.get? id = some known)
    (hspeech : speech id node.chain known packet.payload) :
    Leads (Talk speech) (send id packet) node
      (fun _ => Passed packet (fun other => if other = id then 1 else 0) node)
      (fun e node' => node' = node ∧
        encodeMessage packet.toMessage node.config.maxFrameBytes = .error e) := by
  unfold send
  apply leads_get_bind
  apply leads_session_bind hknown
  apply leads_ite
  · intro _
    exact leads_pure (passed_of_sessions rfl)
  · intro hopen
    rcases not_or.mp hopen with ⟨hrunning, hclosed⟩
    have hrunning' : node.lifecycle = .running := not_not.mp hrunning
    have hclosed' : known.peer.closed = false := by simpa using hclosed
    unfold PeerConnection.send
    rw [if_neg hclosed]
    apply leads_lift_bind
    · intro outcome houtcome
      rcases bind_eq_ok_iff.mp houtcome with ⟨frame, _, hsend⟩
      split at hsend
      · cases hsend
        refine leads_modifySession_bind hknown ?_ (leads_pure ?_)
        · exact Relation.ReflTransGen.single (Talk.overflowed hknown hclosed')
        · refine (passed_replace (n := 0) hknown ?_).mono ?_
          · rw [List.replicate_zero, List.append_nil]
            exact queue_beginClose known.peer
          · intro other
            split
            · exact Nat.zero_le _
            · exact Nat.le_refl _
      · cases hsend
        refine leads_modifySession_bind hknown ?_ ?_
        · exact Relation.ReflTransGen.single (Talk.queued hknown hrunning' hclosed' hspeech)
        · refine leads_modify_bind (Relation.ReflTransGen.single (Talk.counted _))
            (leads_pure ?_)
          have hqueue : (known.peer.queue ++ [packet]) =
              known.peer.queue ++ List.replicate 1 packet := rfl
          have hpassed : Passed packet (fun other => if other = id then 1 else 0) node
              (node.replace id
                { known with
                  peer := { known.peer with queue := known.peer.queue ++ [packet] } }) :=
            passed_replace hknown hqueue
          exact hpassed
    · intro e he
      rcases bind_eq_error_iff.mp he with hencode | ⟨frame, _, hsend⟩
      · exact ⟨rfl, hencode⟩
      · split at hsend
        · cases hsend
        · cases hsend

omit [Crypto] in
theorem sendError_leads {requestId : Option Str} {code : ErrorCode}
    (hknown : node.sessions.get? id = some known)
    (hspeech : speech id node.chain known (.error code code.text)) :
    Leads (Talk speech) (sendError id requestId code) node (fun _ _ => True) Rejected := by
  refine (send_leads hknown hspeech).discard.weaken (fun _ _ _ _ => trivial) ?_
  rintro e node' _ ⟨_, hencode⟩
  exact rejected_of_refusal (raises_encodeMessage _ (frame_pos node.config) e hencode)

omit [Crypto] in
theorem leads_loggingPolicyLimit {move : Node disk -> Node disk -> Prop}
    {act : NodeM disk Unit} {post : Unit -> Node disk -> Prop}
    {caught raised : PyError -> Node disk -> Prop} (h : Leads move act node post caught)
    (hlogged : forall e node', Relation.ReflTransGen move node node' -> caught e node' ->
      post () node')
    (hraised : forall e node', Relation.ReflTransGen move node node' -> caught e node' ->
      isPolicyLimit e = false -> raised e node') :
    Leads move (loggingPolicyLimit act) node post raised := by
  refine leads_tryCatch h ?_
  intro e node' hmove hcaught
  by_cases hpolicy : isPolicyLimit e = true
  · rw [if_pos hpolicy]
    exact leads_pure (hlogged e node' hmove hcaught)
  · rw [if_neg hpolicy]
    exact leads_throw (hraised e node' hmove hcaught (by simpa using hpolicy))

omit [Crypto] in
theorem broadcastTo_leads {source : Option Str}
    (hknown : node.sessions.get? id = some known)
    (hspeech : speech id node.chain known packet.payload) :
    Leads (Talk speech) (broadcastTo packet source id) node
      (fun _ => Passed packet (fun other => if other = id then 1 else 0) node)
      (fun e node' => Rejected e node' ∧ node' = node) := by
  unfold broadcastTo
  apply leads_session_bind hknown
  apply leads_ite
  · intro _
    refine leads_loggingPolicyLimit (send_leads hknown hspeech).discard ?_ ?_
    · rintro e node' _ ⟨hnode, _⟩
      rw [hnode]
      exact passed_of_sessions rfl
    · rintro e later _ ⟨hnode, hencode⟩ _
      exact ⟨rejected_of_refusal (raises_encodeMessage _ (frame_pos node.config) e hencode),
        hnode⟩
  · intro _
    exact leads_pure (passed_of_sessions rfl)

omit [Crypto] in
theorem broadcastAll_leads {source : Option Str} (ids : List Str) :
    forall node : Node disk, (forall id, id ∈ ids -> id ∈ node.sessions.keys) ->
      (forall id session, speech id node.chain session packet.payload) ->
      Leads (Talk speech) (ids.forM (broadcastTo packet source)) node
        (fun _ => Passed packet (fun id => ids.count id) node)
        (fun e node' => Rejected e node' ∧
          Passed packet (fun id => ids.count id) node node') := by
  induction ids with
  | nil =>
      intro node _ _
      exact leads_pure (passed_of_sessions rfl)
  | cons first rest ih =>
      intro node hids hspeech
      rw [List.forM_eq_forM, List.forM_cons]
      rcases Dict.exists_get?_of_mem_keys (hids first List.mem_cons_self) with
        ⟨known, hknown⟩
      have hcount : forall id, (if id = first then 1 else 0) + rest.count id ≤
          (first :: rest).count id := by
        intro id
        rw [List.count_cons]
        by_cases hsame : id = first
        · simp [hsame, Nat.add_comm]
        · simp [hsame, Ne.symm hsame]
      have hfirst : Leads (Talk speech) (broadcastTo packet source first) node
          (fun _ => Passed packet (fun other => if other = first then 1 else 0) node)
          (fun e node' => Rejected e node' ∧
            Passed packet (fun id => (first :: rest).count id) node node') := by
        refine (broadcastTo_leads hknown (hspeech first known)).weaken (fun _ _ _ h => h) ?_
        rintro e node' _ ⟨hrejected, hnode⟩
        rw [hnode] at hrejected ⊢
        exact ⟨hrejected, passed_of_sessions rfl⟩
      refine leads_bind hfirst ?_
      intro _ node' hmove hpassed
      have hlater := ih node' (by
        intro id hid
        rw [(talk_steady hmove).keys]
        exact hids id (List.mem_cons_of_mem _ hid)) (by
        rw [(talk_apart hmove).chain]
        exact hspeech)
      refine hlater.weaken ?_ ?_
      · intro _ last _ h
        exact (hpassed.trans h).mono hcount
      · rintro e last _ ⟨hrejected, h⟩
        exact ⟨hrejected, (hpassed.trans h).mono hcount⟩

omit [Crypto] in
theorem broadcast_leads {source : Option Str}
    (hspeech : forall id session, speech id node.chain session packet.payload) :
    Leads (Talk speech) (broadcast packet source) node
      (fun _ => Passed packet (fun _ => 1) node)
      (fun e node' => Rejected e node' ∧ Passed packet (fun _ => 1) node node') := by
  unfold broadcast
  apply leads_get_bind
  have hcount : forall id, node.sessions.keys.count id ≤ 1 :=
    fun id => List.nodup_iff_count_le_one.mp node.sessions.nodupKeys id
  refine (broadcastAll_leads node.sessions.keys node (fun _ h => h) hspeech).weaken ?_ ?_
  · intro _ _ _ h
    exact h.mono hcount
  · rintro e _ _ ⟨hrejected, h⟩
    exact ⟨hrejected, h.mono hcount⟩

end Speaking

omit [Crypto] in
theorem request_isControl (request : Request) : request.payload.type.isControl = true := by
  cases request with
  | _ => rfl

omit [Crypto] in
theorem request_valid {request : Request} {requestId : Str} (h : request.payload.Valid)
    (hid : isToken requestId = true) :
    ({ payload := request.payload, requestId := some requestId } : Packet).Valid := by
  refine ⟨h, ?_⟩
  refine ⟨?_, hid⟩
  cases request with
  | _ => rfl

theorem request_leads {env : Env} {id : Str} {request : Request} {known : Session}
    (hknown : node.sessions.get? id = some known)
    (hsaid : Says input id node.chain known request.payload)
    (hvalid : node.Healthy -> request.payload.Valid) :
    Leads (Talk (Says input)) (Node.request env id request) node (fun _ _ => True) Unhealthy := by
  unfold Node.request
  apply leads_get_bind
  apply leads_session_bind hknown
  apply leads_ite
  · intro _
    exact leads_pure trivial
  · intro _
    apply leads_drawToken_bind Talk.drew
    have hdrawn : ({ node with drawn := node.drawn + 1 } : Node disk).sessions.get? id =
      some known := hknown
    refine leads_bind ((send_leads hdrawn hsaid).weaken (fun _ _ _ h => h) ?_) ?_
    · rintro e node' _ ⟨hnode, hencode⟩ hhealthy
      rw [hnode] at hhealthy
      rcases hhealthy.admits _ (request_valid (hvalid { hhealthy with })
        (node.entropy.token_valid _)) (request_isControl request) with ⟨frame, hframe⟩
      rw [hframe] at hencode
      cases hencode
    · intro sent node' hmove _
      rcases (talk_steady hmove).session hdrawn with ⟨later, hlater⟩
      apply leads_ite
      · intro _
        refine leads_modifySession_bind hlater ?_ (leads_pure trivial)
        apply Relation.ReflTransGen.single
        refine Talk.quiet hlater ?_
        exact ⟨rfl, rfl, rfl, rfl, rfl, rfl, rfl, Or.inl rfl, Or.inl rfl, Or.inl rfl⟩
      · intro _
        exact leads_pure trivial

/-!
## The chain
-/

section Run

variable {alpha : Type} {post : alpha -> Node disk -> Prop}
  {raised : PyError -> Node disk -> Prop}

theorem tipIs_of_latest {chain : Blockchain} {height : Int} {latest : Block}
    (hheight : chain.height = .ok height) (hlatest : chain.getLatestBlock = .ok latest) :
    TipIs chain height.toNat latest.hash := by
  unfold Blockchain.height at hheight
  unfold Blockchain.getLatestBlock at hlatest
  rcases bind_eq_ok_iff.mp hheight with ⟨_, _, heq⟩
  rcases bind_eq_ok_iff.mp hlatest with ⟨_, _, hlast⟩
  cases heq
  split at hlast
  · cases hlast
  · rename_i block hblock
    cases hlast
    refine ⟨latest, hblock, ?_, rfl⟩
    have hpos := List.length_pos_of_mem (List.mem_of_getLast? hblock)
    omega

omit [Crypto] in
theorem height_total {chain : Blockchain} (husable : Blockchain.ensureUsable chain = .ok ()) :
    chain.height = .ok ((chain.blocks.length : Int) - 1) := by
  unfold Blockchain.height
  rw [husable]
  rfl

omit [Crypto] in
theorem getLatestBlock_total {chain : Blockchain}
    (husable : Blockchain.ensureUsable chain = .ok ()) (hnonempty : chain.blocks ≠ []) :
    exists latest, chain.getLatestBlock = .ok latest := by
  unfold Blockchain.getLatestBlock
  rw [husable]
  cases hlast : chain.blocks.getLast? with
  | none => exact absurd (List.getLast?_eq_none_iff.mp hlast) hnonempty
  | some block => exact ⟨block, rfl⟩

theorem leads_tip_bind {move : Node disk -> Node disk -> Prop}
    {next : Nat × Str -> NodeM disk alpha}
    (hok : forall height tipHash, TipIs node.chain height tipHash ->
      Leads move (next (height, tipHash)) node post raised)
    (hraised : forall e, ¬ node.Healthy -> raised e node) :
    Leads move (tip >>= next) node post raised := by
  have hrun : Leads move tip node
      (fun current node' => TipIs node.chain current.1 current.2 ∧ node' = node) raised := by
    unfold tip
    apply leads_get_bind
    apply leads_lift_bind
    · intro height hheight
      apply leads_lift_bind
      · intro latest hlatest
        exact leads_pure ⟨tipIs_of_latest hheight hlatest, rfl⟩
      · intro e he
        apply hraised
        intro hhealthy
        rcases getLatestBlock_total hhealthy.usable hhealthy.nonempty with ⟨latest, hlatest⟩
        rw [hlatest] at he
        cases he
    · intro e he
      apply hraised
      intro hhealthy
      rw [height_total hhealthy.usable] at he
      cases he
  refine leads_bind hrun ?_
  rintro ⟨height, tipHash⟩ node' _ ⟨htip, hnode⟩
  rw [hnode]
  exact hok height tipHash htip

theorem leads_statusPayload_bind {move : Node disk -> Node disk -> Prop}
    {next : StatusPayload -> NodeM disk alpha}
    (hok : forall payload : StatusPayload, TipIs node.chain payload.height payload.tipHash ->
      Leads move (next payload) node post raised)
    (hraised : forall e, ¬ node.Healthy -> raised e node) :
    Leads move (statusPayload >>= next) node post raised := by
  have hassoc : (statusPayload >>= next : NodeM disk alpha) =
      tip >>= fun current => next { height := current.1, tipHash := current.2 } := by
    unfold statusPayload
    rw [bind_assoc]
    simp only [pure_bind]
  rw [hassoc]
  apply leads_tip_bind
  · intro height tipHash htip
    exact hok _ htip
  · exact hraised

end Run

theorem prepare_total {chain : Blockchain} {call : Blockchain.Call}
    {config : NodeConfig} (h : Offered input config chain call) {e : PyError} :
    Blockchain.prepare (Blockchain.live chain) call ≠ .error e := by
  intro herror
  cases h with
  | submit _ =>
      simp only [Blockchain.prepare] at herror
      split at herror
      · cases herror
      · cases herror
  | @block block height wallClock htip _ =>
      rcases htip with ⟨last, hlast, _, _⟩
      have hlast' : (Blockchain.live chain).blocks.getLast? = some last := hlast
      have hclock : resolveCurrentTime { currentTime := none, wallClock := wallClock } =
        .ok (wallClock : Int) := rfl
      rcases validateAndApplyBlock_ok block last (Blockchain.live chain).state hclock with
        ⟨answer, hanswer⟩
      unfold Blockchain.prepare at herror
      simp only [hlast', hanswer] at herror
      cases answer with
      | none => cases herror
      | some state =>
          simp only at herror
          split at herror
          · cases herror
          · cases herror

theorem perform_raises {chain : Blockchain} {call : Blockchain.Call}
    {config : NodeConfig} (h : Offered input config chain call) {d : disk} {e : PyError}
    (herror : (Blockchain.perform store call chain d).1 = .error e) :
    Blockchain.ensureUsable (Blockchain.perform store call chain d).2.1 ≠ .ok () := by
  cases husable : Blockchain.ensureUsable chain with
  | error e' =>
      rw [Blockchain.perform_unusable store call chain d husable, husable]
      simp
  | ok _ =>
      rw [Blockchain.perform_eq store call chain d husable] at herror ⊢
      cases hprepare : Blockchain.prepare (Blockchain.live chain) call with
      | error e' => exact absurd hprepare (prepare_total h)
      | ok prepared =>
          rw [hprepare] at herror
          cases prepared with
          | none => cases herror
          | some transition =>
              have hfailed := Blockchain.commitTrue_raises store herror
              intro hok
              rw [((Blockchain.ensureUsable_eq_ok_iff _).mp hok).right] at hfailed
              cases hfailed

theorem performCall_run (call : Blockchain.Call) :
    performCall store call node =
      match (Blockchain.perform store call node.chain node.disk).1 with
      | .ok answer => .ok answer (node.called store call)
      | .error e => .error e (node.called store call) := by
  change (lift (Blockchain.perform store call node.chain node.disk).1 : NodeM disk Bool)
    (node.called store call) = _
  generalize (Blockchain.perform store call node.chain node.disk).1 = outcome
  cases outcome with
  | ok answer => rfl
  | error e => rfl

theorem leads_performCall_bind {call : Blockchain.Call} {alpha : Type}
    {next : Bool -> NodeM disk alpha} {post : alpha -> Node disk -> Prop}
    {raised : PyError -> Node disk -> Prop}
    (hoffered : Offered input node.config node.chain call)
    (hfalse : Leads (Act store input) (next false) (node.called store call) post raised)
    (htrue : Leads (Move store input) (next true) (node.called store call)
      (fun a node' => post a node' ∧ node'.chain = (node.called store call).chain ∧
        Echoes call (node.called store call) node')
      (fun e node' => raised e node' ∧ node'.chain = (node.called store call).chain ∧
        Echoes call (node.called store call) node'))
    (hraised : forall e, ¬ (node.called store call).Healthy ->
      raised e (node.called store call)) :
    Leads (Act store input) (performCall store call >>= next) node post raised := by
  have hrun : performCall store call node = _ := performCall_run call
  cases hanswer : (Blockchain.perform store call node.chain node.disk).1 with
  | error e =>
      simp only [hanswer] at hrun
      refine leads_of_error (run_bind_error hrun next) (Relation.ReflTransGen.single ?_) ?_
      · apply Act.refused hoffered
        rw [hanswer]
        intro h
        cases h
      · apply hraised
        intro hhealthy
        exact perform_raises hoffered hanswer hhealthy.usable
  | ok answer =>
      simp only [hanswer] at hrun
      cases answer with
      | false =>
          have hact : Act store input node (node.called store call) := by
            apply Act.refused hoffered
            rw [hanswer]
            intro h
            cases h
          have hcalled : Leads (Act store input) (performCall store call) node
              (fun answer node' => answer = false ∧ node' = node.called store call) raised :=
            leads_of_ok hrun (Relation.ReflTransGen.single hact) ⟨rfl, rfl⟩
          refine leads_bind hcalled ?_
          rintro answer node' _ ⟨hfalse', hnode⟩
          rw [hfalse', hnode]
          exact hfalse
      | true =>
          have hbind := run_bind_ok hrun next
          unfold Leads at htrue ⊢
          rw [hbind]
          cases hnext : next true (node.called store call) with
          | ok a node' =>
              rw [hnext] at htrue
              rcases htrue with ⟨hmoves, hpost, hchain, hechoes⟩
              exact ⟨Relation.ReflTransGen.single
                (Act.accepted hoffered hanswer hmoves hchain hechoes), hpost⟩
          | error e node' =>
              rw [hnext] at htrue
              rcases htrue with ⟨hmoves, herror, hchain, hechoes⟩
              exact ⟨Relation.ReflTransGen.single
                (Act.accepted hoffered hanswer hmoves hchain hechoes), herror⟩

/-!
## Snapshots
-/

theorem calm_synced {sync : SyncManager}
    (haccounted : node.sync.Accounted node.config.snapshotGlobalBytes ->
      sync.Accounted node.config.snapshotGlobalBytes)
    (hhealthy : (forall id packet, input = .remote id packet -> packet.Valid) ->
      node.sync.Healthy -> sync.Healthy) :
    Calm store input node { node with sync := sync } :=
  ⟨Move.synced haccounted hhealthy, rfl, silent_of_sessions rfl⟩

theorem calm_replace {id : Str} {session later : Session}
    (hsession : node.sessions.get? id = some session)
    (hmove : Move store input node (node.replace id later))
    (hqueue : later.peer.queue = session.peer.queue) :
    Calm store input node (node.replace id later) := by
  refine ⟨hmove, rfl, silent_replace hsession ?_⟩
  unfold relays
  rw [hqueue]

theorem calm_quietAll {f : Session -> Session} (h : forall session, Quiet session (f session)) :
    Calm store input node { node with sessions := node.sessions.mapValues f } := by
  refine ⟨Move.quietAll h, rfl, ?_⟩
  intro id session hsession
  refine ⟨f session, ?_, ?_⟩
  · rw [Dict.get?_mapValues, hsession]
    rfl
  · unfold relays
    rw [(h session).peer]

omit [Crypto] in
theorem accounted_erase {globalBytes : Nat} {sync : SyncManager} {id : Str}
    {snapshot : ExportSnapshot} (hexport : sync.exports.get? id = some snapshot)
    (h : sync.Accounted globalBytes) :
    ({ sync with
        exports := sync.exports.erase id
        snapshotBytes := sync.snapshotBytes - snapshot.size } : SyncManager).Accounted
      globalBytes := by
  have htotal := Dict.total_erase (fun snapshot : ExportSnapshot => (snapshot.size : Int))
    (Dict.mem_keys_of_get? hexport)
  rw [Dict.weightAt_of_get? _ hexport] at htotal
  have hsum := h.sum
  have hbounded := h.bounded
  constructor
  · change sync.snapshotBytes - snapshot.size = (sync.exports.erase id).total _
    omega
  · change sync.snapshotBytes - (snapshot.size : Int) ≤ _
    omega

theorem dropExport_leads (id : Str) {raised : PyError -> Node disk -> Prop} :
    Leads (Calm store input) (dropExport id) node
      (fun _ node' => node'.sync.exports.get? id = none) raised := by
  unfold dropExport modifySync
  apply leads_modify
  · cases hexport : node.sync.exports.get? id with
    | none =>
        simp only [hexport]
        exact Relation.ReflTransGen.refl
    | some snapshot =>
        simp only [hexport]
        apply Relation.ReflTransGen.single
        exact calm_synced (accounted_erase hexport) (fun _ h => h)
  · cases hexport : node.sync.exports.get? id with
    | none =>
        simp only [hexport]
    | some snapshot =>
        simp only [hexport]
        rw [Dict.get?_erase, if_pos rfl]

theorem expireExport_leads (env : Env) (id : Str) {raised : PyError -> Node disk -> Prop} :
    Leads (Calm store input) (expireExport env id) node (fun _ _ => True) raised := by
  unfold expireExport
  apply leads_get_bind
  cases node.sync.exports.get? id with
  | none => exact leads_pure trivial
  | some snapshot =>
      apply leads_ite
      · intro _
        exact (dropExport_leads id).true
      · intro _
        exact leads_pure trivial

theorem tipChanged_leads {raised : PyError -> Node disk -> Prop} :
    Leads (Calm store input) tipChanged node (fun _ _ => True) raised := by
  unfold tipChanged
  apply leads_get_bind
  have hloop : Leads (Calm store input) (node.sync.exports.keys.forM dropExport) node
      (fun _ _ => True) raised :=
    leads_forM trivial (fun id _ _ _ _ => (dropExport_leads id).true)
  refine leads_bind hloop ?_
  intro _ node' _ _
  apply leads_modify _ trivial
  have hquiet : Calm store input node'
      { node' with
        sessions := node'.sessions.mapValues (fun session => { session with nextMempool := 0 }) } :=
    calm_quietAll (fun _ =>
      ⟨rfl, rfl, rfl, rfl, rfl, rfl, rfl, Or.inl rfl, Or.inl rfl, Or.inl rfl⟩)
  refine (Relation.ReflTransGen.single hquiet).tail (calm_synced ?_ ?_)
  · intro h
    exact ⟨h.sum, h.bounded⟩
  · intro _ _ id download hdownload
    have hempty : (Dict.empty : Dict Str PendingDownload).get? id = some download := hdownload
    rw [Dict.get?_empty] at hempty
    cases hempty

/-!
## Local admission
-/

theorem Leads.calm {alpha : Type} {act : NodeM disk alpha} {post : alpha -> Node disk -> Prop}
    {raised : PyError -> Node disk -> Prop}
    (h : Leads (Talk (Says input)) act node post raised) :
    Leads (Calm store input) act node post raised :=
  h.mono (fun _ _ => Talk.calm)

theorem Leads.acts {alpha : Type} {act : NodeM disk alpha} {post : alpha -> Node disk -> Prop}
    {raised : PyError -> Node disk -> Prop} (h : Leads (Calm store input) act node post raised) :
    Leads (Act store input) act node post raised :=
  h.mono (fun _ _ => Act.calm)

theorem Leads.moves {alpha : Type} {act : NodeM disk alpha} {post : alpha -> Node disk -> Prop}
    {raised : PyError -> Node disk -> Prop} (h : Leads (Calm store input) act node post raised) :
    Leads (Move store input) act node
      (fun a node' => post a node' ∧ node'.chain = node.chain ∧ Silent node node')
      (fun e node' => raised e node' ∧ node'.chain = node.chain ∧ Silent node node') := by
  refine Leads.mono (h.weaken ?_ ?_) (fun _ _ hstep => hstep.left)
  · intro a node' hmoves hpost
    exact ⟨hpost, calm_chain hmoves, calm_silent hmoves⟩
  · intro e node' hmoves hraised
    exact ⟨hraised, calm_chain hmoves, calm_silent hmoves⟩

/-!
## Local admission
-/

omit [Crypto] in
theorem rejected_pack {alpha : Type} {value : alpha} {encoder : alpha -> Except PyError Bytes}
    {config : NodeConfig} (h : Raises Corruption (encoder value)) {e : PyError}
    (he : pack value encoder config.maxItemBytes = .error e) : Rejected e node :=
  rejected_of_refusal (raises_pack (item_pos config) h e he)

theorem Silent.echoes {call : Blockchain.Call} {next : Node disk} (h : Silent node next) :
    Echoes call node next := by
  intro id session hsession
  rcases h id session hsession with ⟨later, hlater, heq⟩
  exact ⟨later, hlater, Or.inl heq⟩

theorem Echoes.after {call : Blockchain.Call} {middle next : Node disk}
    (h : Silent node middle) (hconfig : middle.config = node.config)
    (h' : Echoes call middle next) : Echoes call node next := by
  intro id session hsession
  rcases h id session hsession with ⟨later, hlater, heq⟩
  rcases h' id later hlater with ⟨last, hlast, hcases⟩
  rw [heq, hconfig] at hcases
  exact ⟨last, hlast, hcases⟩

theorem Echoes.before {call : Blockchain.Call} {middle next : Node disk}
    (h : Echoes call node middle) (h' : Silent middle next) : Echoes call node next := by
  intro id session hsession
  rcases h id session hsession with ⟨later, hlater, hcases⟩
  rcases h' id later hlater with ⟨last, hlast, heq⟩
  rw [← heq] at hcases
  exact ⟨last, hlast, hcases⟩

theorem Passed.echoes {call : Blockchain.Call} {packet : Packet} {next : Node disk}
    (h : Passed packet (fun _ => 1) node next)
    (hrelay : Relays node.config call packet.payload) (hkind : packet.payload.isRelay = true) :
    Echoes call node next := by
  intro id session hsession
  rcases h id session hsession with ⟨later, hlater, n, hn, hqueue⟩
  refine ⟨later, hlater, ?_⟩
  unfold relays
  rw [hqueue, List.map_append, List.filter_append]
  rcases Nat.le_one_iff_eq_zero_or_eq_one.mp hn with rfl | rfl
  · exact Or.inl (List.append_nil _)
  · apply Or.inr
    refine ⟨packet.payload, hrelay, ?_⟩
    rw [List.replicate_one, List.map_singleton, List.filter_singleton, hkind]
    rfl

/-- The gossip that follows a call: its item is packed and broadcast, unless that
exceeds a limit. -/
theorem relay_leads {call : Blockchain.Call} {packed : Except PyError Str}
    (message : Str -> Packet) {source : Option Str}
    (hrelay : forall encoded, packed = .ok encoded ->
      Relays node.config call (message encoded).payload)
    (hkind : forall encoded, (message encoded).payload.isRelay = true)
    (hraises : forall e, packed = .error e -> Rejected e node) :
    Leads (Move store input)
      (loggingPolicyLimit do
        let encoded <- lift packed
        broadcast (message encoded) source) node
      (fun _ node' => node'.chain = node.chain ∧ Echoes call node node')
      (fun e node' => Rejected e node' ∧ node'.chain = node.chain ∧
        Echoes call node node') := by
  have hbody : Leads (Move store input)
      (do
        let encoded <- lift packed
        broadcast (message encoded) source) node
      (fun _ node' => node'.chain = node.chain ∧ Echoes call node node')
      (fun e node' => Rejected e node' ∧ node'.chain = node.chain ∧
        Echoes call node node') := by
    apply leads_lift_bind
    · intro encoded hencoded
      have hbroadcast : Leads (Talk (fun _ _ _ payload => payload.isRelay = true))
          (broadcast (message encoded) source) node
          (fun _ => Passed (message encoded) (fun _ => 1) node)
          (fun e node' => Rejected e node' ∧
            Passed (message encoded) (fun _ => 1) node node') :=
        broadcast_leads (fun _ _ => hkind encoded)
      refine Leads.mono (hbroadcast.weaken ?_ ?_) (fun _ _ => Move.relayed)
      · intro _ node' hmoves hpassed
        exact ⟨(talk_apart hmoves).chain, hpassed.echoes (hrelay encoded hencoded)
          (hkind encoded)⟩
      · rintro e node' hmoves ⟨hrejected, hpassed⟩
        exact ⟨hrejected, (talk_apart hmoves).chain,
          hpassed.echoes (hrelay encoded hencoded) (hkind encoded)⟩
    · intro e he
      exact ⟨hraises e he, rfl, (Silent.refl node).echoes⟩
  refine leads_loggingPolicyLimit hbody ?_ ?_
  · rintro e node' _ ⟨_, hchain, hechoes⟩
    exact ⟨hchain, hechoes⟩
  · intro e node' _ h _
    exact h

theorem submitTransaction_leads {transaction : Transaction} {source : Option Str}
    (hoffered : Offered input node.config node.chain (.submitTransaction transaction)) :
    Leads (Act store input) (submitTransaction store transaction source) node
      (fun _ _ => True) Rejected := by
  unfold submitTransaction
  refine leads_performCall_bind hoffered ?_ ?_ (fun _ h hhealthy => (h hhealthy).elim)
  · exact leads_pure trivial
  · rw [if_pos rfl]
    generalize node.called store (.submitTransaction transaction) = called
    refine leads_modify_bind (Relation.ReflTransGen.single (Move.talk (Talk.counted _))) ?_
    apply leads_get_bind
    generalize hcounted : ({ called with
      counters :=
        { called.counters with
          transactionsAccepted := called.counters.transactionsAccepted + 1 } } : Node disk) =
      counted
    have hchain : counted.chain = called.chain := by
      rw [← hcounted]
    have hconfig : counted.config = called.config := by
      rw [← hcounted]
    have hsilent : Silent called counted := by
      rw [← hcounted]
      exact silent_of_sessions rfl
    have hrelay : Leads (Move store input)
        (loggingPolicyLimit do
          let encoded <- lift (packTransaction transaction counted.config.maxItemBytes)
          broadcast { payload := .newTransaction encoded, requestId := none } source) counted
        (fun _ node' => node'.chain = counted.chain ∧
          Echoes (.submitTransaction transaction) counted node')
        (fun e node' => Rejected e node' ∧ node'.chain = counted.chain ∧
          Echoes (.submitTransaction transaction) counted node') :=
      relay_leads (fun encoded => { payload := .newTransaction encoded, requestId := none })
        (fun _ hencoded => hencoded) (fun _ => rfl)
        (fun _ he => rejected_pack (raises_encodeTransaction transaction) he)
    refine leads_bind (hrelay.weaken (fun _ _ _ h => h) ?_) ?_
    · rintro e node' _ ⟨hrejected, hsame, hechoes⟩
      exact ⟨hrejected, hsame.trans hchain, hechoes.after hsilent hconfig⟩
    · rintro _ node' _ ⟨hsame, hechoes⟩
      exact leads_pure ⟨trivial, hsame.trans hchain, hechoes.after hsilent hconfig⟩

theorem announce_leads {block : Block} {wallClock : Nat} {source : Option Str} :
    Leads (Move store input)
      (do
        modifyCounters (fun counters =>
          { counters with blocksAccepted := counters.blocksAccepted + 1 })
        tipChanged
        let node <- get
        loggingPolicyLimit do
          let encoded <- lift (packBlock block node.config.maxItemBytes)
          broadcast { payload := .newBlock encoded, requestId := none } source
        let status <- statusPayload
        broadcast { payload := .status status, requestId := none } none
        return true) node
      (fun _ node' => True ∧ node'.chain = node.chain ∧
        Echoes (.addBlock block { currentTime := none, wallClock := wallClock }) node node')
      (fun e node' => Rejected e node' ∧ node'.chain = node.chain ∧
        Echoes (.addBlock block { currentTime := none, wallClock := wallClock }) node
          node') := by
  have hcounted : Leads (Calm store input)
      (modifyCounters (fun counters =>
        { counters with blocksAccepted := counters.blocksAccepted + 1 })) node
      (fun _ _ => True)
      (fun e node' => Rejected e node' ∧ node'.chain = node.chain ∧
        Echoes (.addBlock block { currentTime := none, wallClock := wallClock }) node
          node') :=
    leads_modify (Relation.ReflTransGen.single (Talk.counted _).calm) trivial
  refine leads_bind ((Leads.moves hcounted).weaken (fun _ _ _ h => h) (fun _ _ _ h => h.left)) ?_
  rintro _ counted hmoves' ⟨_, hchain, hsilent⟩
  have hchanged : Leads (Calm store input) tipChanged counted (fun _ _ => True)
      (fun e node' => Rejected e node' ∧ node'.chain = node.chain ∧
        Echoes (.addBlock block { currentTime := none, wallClock := wallClock }) node
          node') := tipChanged_leads
  refine leads_bind ((Leads.moves hchanged).weaken (fun _ _ _ h => h) (fun _ _ _ h => h.left)) ?_
  rintro _ changed hmoves ⟨_, hchain', hsilent'⟩
  apply leads_get_bind
  have hbefore : Silent node changed := hsilent.trans hsilent'
  have hchain'' : changed.chain = node.chain := hchain'.trans hchain
  have hconfig : changed.config = node.config :=
    (moves_steady hmoves).config.trans (moves_steady hmoves').config
  have hrelay : Leads (Move store input)
      (loggingPolicyLimit do
        let encoded <- lift (packBlock block changed.config.maxItemBytes)
        broadcast { payload := .newBlock encoded, requestId := none } source) changed
      (fun _ node' => node'.chain = changed.chain ∧
        Echoes (.addBlock block { currentTime := none, wallClock := wallClock }) changed node')
      (fun e node' => Rejected e node' ∧ node'.chain = changed.chain ∧
        Echoes (.addBlock block { currentTime := none, wallClock := wallClock }) changed
          node') :=
    relay_leads (fun encoded => { payload := .newBlock encoded, requestId := none })
      (fun _ hencoded => hencoded) (fun _ => rfl)
      (fun _ he => rejected_pack (raises_encodeBlock block) he)
  refine leads_bind (hrelay.weaken (fun _ _ _ h => h) ?_) ?_
  · rintro e node' _ ⟨hrejected, hsame, hechoes⟩
    exact ⟨hrejected, hsame.trans hchain'', hechoes.after hbefore hconfig⟩
  rintro _ relayed _ ⟨hsame, hechoes⟩
  have hechoes' := hechoes.after hbefore hconfig
  have hsame' := hsame.trans hchain''
  refine leads_statusPayload_bind ?_ ?_
  · intro status hstatus
    have hbroadcast : Leads (Calm store input)
        (broadcast { payload := .status status, requestId := none } none) relayed
        (fun _ _ => True) Rejected :=
      Leads.calm ((broadcast_leads (fun _ _ => hstatus)).weaken (fun _ _ _ _ => trivial)
        (fun _ _ _ h => h.left))
    refine leads_bind ((Leads.moves hbroadcast).weaken (fun _ _ _ h => h) ?_) ?_
    · rintro e node' _ ⟨hrejected, hlater, hsilent''⟩
      exact ⟨hrejected, hlater.trans hsame', hechoes'.before hsilent''⟩
    · rintro _ node' _ ⟨_, hlater, hsilent''⟩
      exact leads_pure ⟨trivial, hlater.trans hsame', hechoes'.before hsilent''⟩
  · intro e h
    exact ⟨fun hhealthy => (h hhealthy).elim, hsame', hechoes'⟩

theorem acceptBlock_leads {env : Env} {block : Block} {source : Option Str}
    (hsource : forall id, source = some id ->
      exists known, node.sessions.get? id = some known)
    (hbrings : input.Brings node.config.maxItemBytes block) :
    Leads (Act store input) (acceptBlock store env block source) node
      (fun _ _ => True) Rejected := by
  unfold acceptBlock
  refine leads_tip_bind ?_ (fun _ h hhealthy => (h hhealthy).elim)
  intro height tipHash htip
  apply leads_ite
  · intro _
    cases source with
    | none => exact leads_pure trivial
    | some id =>
        apply leads_get_bind
        apply leads_lift_bind
        · intro found _
          have hrequest : Leads (Act store input) (discard (Node.request env id .getStatus))
              node (fun _ _ => True) Rejected := by
            rcases hsource id rfl with ⟨known, hknown⟩
            have hask : Leads (Talk (Says input)) (Node.request env id .getStatus) node
                (fun _ _ => True) Unhealthy :=
              request_leads hknown trivial (fun _ => trivial)
            exact Leads.acts (Leads.calm (hask.discard.weaken (fun _ _ _ _ => trivial)
              (fun _ _ _ h => h.rejected)))
          apply leads_ite
          · intro _
            exact leads_bind hrequest (fun _ _ _ _ => leads_pure trivial)
          · intro _
            exact leads_pure trivial
        · intro e he hhealthy
          unfold Blockchain.getBlockByHash at he
          rw [hhealthy.usable] at he
          cases he
  · intro hlinked
    have hoffered : Offered input node.config node.chain
        (.addBlock block { currentTime := none, wallClock := env.wallClock }) := by
      have hprevious : block.previousBlockHash = tipHash := not_not.mp hlinked
      rw [← hprevious] at htip
      exact Offered.block htip hbrings
    refine leads_performCall_bind hoffered ?_ ?_ (fun _ h hhealthy => (h hhealthy).elim)
    · exact leads_pure trivial
    · rw [if_pos rfl]
      exact announce_leads

end Chain

end Node

end Network

end PyChain
