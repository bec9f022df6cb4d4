import Mathlib.Algebra.Order.BigOperators.Group.List
import PyChain.Blockchain.Soundness
import PyChain.Network.Synchronising

/-!
# The caps of an incoming snapshot

The pages of a snapshot are checked against the caps by the size their items seem to
have, before the items are read.  An item that is a signed transaction has the size it
seems to have; text that is all padding seems to have less than none.
-/

namespace PyChain

open Foundation

namespace Network

theorem rawSize_encode (data : Bytes) : rawSize (Base64.encode data) = data.length := by
  unfold rawSize
  rw [Base64.encode_padding, Base64.encode_length]
  omega

/-!
## Sizes
-/

/-- The size that some items seem to have. -/
def pageSize (items : List Str) : Int :=
  (items.map rawSize).sum

/-- The size of the canonical encodings. -/
def encodedSize (transactions : List Transaction) : Nat :=
  (transactions.map (fun transaction => transaction.encoding.length)).sum

theorem pageSize_cons (encoded : Str) (items : List Str) :
    pageSize (encoded :: items) = rawSize encoded + pageSize items := rfl

theorem pageSize_append (items later : List Str) :
    pageSize (items ++ later) = pageSize items + pageSize later := by
  unfold pageSize
  rw [List.map_append, List.sum_append]

theorem encodedSize_cons (transaction : Transaction) (transactions : List Transaction) :
    encodedSize (transaction :: transactions) =
      transaction.encoding.length + encodedSize transactions := rfl

theorem encodedSize_append (transactions later : List Transaction) :
    encodedSize (transactions ++ later) = encodedSize transactions + encodedSize later := by
  unfold encodedSize
  rw [List.map_append, List.sum_append]

/-!
## Items
-/

section Items

variable [Crypto] {maxItemBytes : Nat} {encoded : Str} {items : List Str}

/-- The text is a signed transaction. -/
def unpacks (maxItemBytes : Nat) (encoded : Str) : Bool :=
  match unpackTransaction encoded maxItemBytes with
  | .ok _ => true
  | .error _ => false

/-- The items from the first one on that is no signed transaction. -/
def malformed (maxItemBytes : Nat) (items : List Str) : List Str :=
  items.dropWhile (unpacks maxItemBytes)

theorem unpacks_of_ok {transaction : Transaction}
    (h : unpackTransaction encoded maxItemBytes = .ok transaction) :
    unpacks maxItemBytes encoded = true := by
  unfold unpacks
  rw [h]

theorem rawSize_of_unpack {transaction : Transaction}
    (h : unpackTransaction encoded maxItemBytes = .ok transaction) :
    rawSize encoded = transaction.encoding.length := by
  rcases unpack_eq_ok_iff.mp h with ⟨_, _, _, data, _, _, hspelling, _, hdecode⟩
  rw [← hspelling, rawSize_encode, (Codec.decodeTransaction_eq_ok_iff.mp hdecode).left]

theorem rawSize_nonneg (h : unpacks maxItemBytes encoded = true) : 0 ≤ rawSize encoded := by
  unfold unpacks at h
  split at h
  next transaction hunpack =>
    rw [rawSize_of_unpack hunpack]
    exact Int.natCast_nonneg _
  next => cases h

theorem pageSize_takeWhile_nonneg (maxItemBytes : Nat) (items : List Str) :
    0 ≤ pageSize (items.takeWhile (unpacks maxItemBytes)) := by
  unfold pageSize
  apply List.sum_nonneg
  intro size hsize
  rcases List.mem_map.mp hsize with ⟨encoded, hencoded, heq⟩
  rw [← heq]
  exact rawSize_nonneg (List.mem_takeWhile_imp hencoded)

/-- The items before the first malformed one are not larger than the page, as long as
the rest does not seem to have a negative size. -/
theorem pageSize_takeWhile_le (h : 0 ≤ pageSize (malformed maxItemBytes items)) :
    pageSize (items.takeWhile (unpacks maxItemBytes)) ≤ pageSize items := by
  have hsplit : items.takeWhile (unpacks maxItemBytes) ++ malformed maxItemBytes items = items :=
    List.takeWhile_append_dropWhile
  have hsum := pageSize_append (items.takeWhile (unpacks maxItemBytes))
    (malformed maxItemBytes items)
  rw [hsplit] at hsum
  omega

end Items

namespace Node

variable {disk : Type} [Crypto] (store : Option (ChainStore disk))

/-!
## What is handed on
-/

/-- The transactions of some items that are submitted, in order. -/
def handed (id : Str) : List Str -> Node disk -> List Transaction
  | [], _ => []
  | encoded :: rest, node =>
      match unpackTransaction encoded node.config.maxItemBytes with
      | .error _ => []
      | .ok transaction =>
          transaction ::
            match submitTransaction store transaction (some id) node with
            | .ok _ next => handed id rest next
            | .error _ _ => []

/-- The download a page is for, when the page is within the limits. -/
def admitPage (id : Str) (expected : GetMempoolPayload) (payload : MempoolPayload) :
    NodeM disk (Option PendingDownload) := do
  let current <- tip
  let node <- get
  match node.sync.downloads.get? id with
  | none => return none
  | some download =>
      if current.2 ≠ expected.tipHash then return none
      else if pageMatches download payload = false then
        throw (protocolError "MEMPOOL snapshot, tip or cursor mismatch")
      else if expected.limit < payload.transactions.length ∨
          payload.nextCursor ≠ download.cursor + payload.transactions.length ∨
          (payload.transactions = [] ∧ payload.done = false) then
        throw (protocolError "MEMPOOL pagination makes no progress")
      else if node.config.snapshotMaxTransactions <
              download.count + payload.transactions.length ∨
            (node.config.snapshotMaxBytes : Int) <
              download.size + pageSize payload.transactions then
        throw (policyLimitError "Incoming pending snapshot exceeds node policy")
      else return some download

/-- What a download knows after a page. -/
def extended (download : PendingDownload) (payload : MempoolPayload) : PendingDownload :=
  { download with
    token := some payload.snapshotId
    cursor := payload.nextCursor
    count := download.count + payload.transactions.length
    size := download.size + pageSize payload.transactions }

/-- Account for a page that has been submitted. -/
def settlePage (env : Env) (refresh : Rat) (id : Str) (download : PendingDownload)
    (payload : MempoolPayload) : NodeM disk Unit := do
  modifySync (fun sync =>
    { sync with
      downloads :=
        if payload.done then sync.downloads.erase id
        else sync.downloads.set id (extended download payload) })
  modifySession id (fun session =>
    if payload.done then
      { session with
        error := none
        nextMempool := env.now + refresh
        syncState := .idle }
    else { session with error := none })

theorem receiveMempool_eq (env : Env) (id : Str) (expected : GetMempoolPayload)
    (payload : MempoolPayload) :
    receiveMempool store env id expected payload =
      (do
        let admitted <- admitPage id expected payload
        let node <- get
        match admitted with
        | none => pure ()
        | some download => do
            payload.transactions.forM (acceptPage store id)
            settlePage env node.config.mempoolRefreshInterval id download payload) := by
  funext node
  unfold receiveMempool admitPage
  simp only [bind_assoc]
  cases htip : tip node with
  | error e last => rw [run_bind_error htip, run_bind_error htip]
  | ok current last =>
      rw [run_bind_ok htip, run_bind_ok htip]
      have hget : (get : NodeM disk (Node disk)) last = .ok last last := rfl
      rw [run_bind_ok hget, run_bind_ok hget]
      cases hdownload : last.sync.downloads.get? id with
      | none => rfl
      | some download =>
          dsimp only
          by_cases hstale : current.2 ≠ expected.tipHash
          · rw [if_pos hstale, if_pos hstale]
            rfl
          rw [if_neg hstale, if_neg hstale]
          by_cases hmatches : pageMatches download payload = false
          · rw [if_pos hmatches, if_pos hmatches]
            rfl
          rw [if_neg hmatches, if_neg hmatches]
          by_cases hprogress : expected.limit < payload.transactions.length ∨
              payload.nextCursor ≠ download.cursor + payload.transactions.length ∨
              (payload.transactions = [] ∧ payload.done = false)
          · rw [if_pos hprogress, if_pos hprogress]
            rfl
          rw [if_neg hprogress, if_neg hprogress]
          by_cases hlimits : last.config.snapshotMaxTransactions <
                download.count + payload.transactions.length ∨
              (last.config.snapshotMaxBytes : Int) <
                download.size + pageSize payload.transactions
          · rw [if_pos hlimits]
            exact if_pos hlimits ▸ rfl
          · rw [if_neg hlimits]
            exact if_neg hlimits ▸ rfl

section Handing

variable {id encoded : Str} {items : List Str} {node next : Node disk}

theorem submitTransaction_config (transaction : Transaction) (source : Option Str)
    (node : Node disk) :
    (finalState (submitTransaction store transaction source) node).config = node.config := by
  have hsubmits : (EventKind.command (.submit transaction)).Submits node.config.maxItemBytes
      transaction := rfl
  have hleads : Leads (Act store (.command (.submit transaction)))
      (submitTransaction store transaction source) node (fun _ _ => True) Rejected :=
    submitTransaction_leads (Offered.submit hsubmits)
  exact (moves_steady (acts_moves hleads.final)).config

theorem acceptPage_of_error {e : PyError}
    (h : unpackTransaction encoded node.config.maxItemBytes = .error e) :
    acceptPage store id encoded node = .error e node := by
  unfold acceptPage
  rw [run_bind_ok (rfl : (get : NodeM disk (Node disk)) node = .ok node node), h]
  rfl

theorem acceptPage_of_ok (id : Str) {transaction : Transaction}
    (h : unpackTransaction encoded node.config.maxItemBytes = .ok transaction) :
    acceptPage store id encoded node =
      discard (submitTransaction store transaction (some id)) node := by
  unfold acceptPage
  rw [run_bind_ok (rfl : (get : NodeM disk (Node disk)) node = .ok node node), h]
  rfl

theorem discard_ok {transaction : Transaction} {accepted : Bool}
    (h : submitTransaction store transaction (some id) node = .ok accepted next) :
    (discard (submitTransaction store transaction (some id)) : NodeM disk PUnit) node =
      .ok ⟨⟩ next := by
  change EStateM.map (fun _ => PUnit.unit) _ node = _
  unfold EStateM.map
  rw [h]

theorem discard_error {transaction : Transaction} {e : PyError}
    (h : submitTransaction store transaction (some id) node = .error e next) :
    (discard (submitTransaction store transaction (some id)) : NodeM disk PUnit) node =
      .error e next := by
  change EStateM.map (fun _ => PUnit.unit) _ node = _
  unfold EStateM.map
  rw [h]

/-- The loop over a page submits what is handed on, in order, and does nothing else
besides. -/
theorem forM_acceptPage (id : Str) (items : List Str) :
    forall node, exists outcome, items.forM (acceptPage store id) node =
      (do
        (handed store id items node).forM (fun transaction =>
          discard (submitTransaction store transaction (some id)))
        lift outcome : NodeM disk PUnit) node := by
  induction items with
  | nil => exact fun node => ⟨.ok ⟨⟩, rfl⟩
  | cons encoded rest ih =>
      intro node
      change exists outcome,
        (acceptPage store id encoded >>= fun _ => rest.forM (acceptPage store id)) node = _
      rw [handed]
      cases hunpack : unpackTransaction encoded node.config.maxItemBytes with
      | error e =>
          refine ⟨.error e, ?_⟩
          rw [run_bind_error (acceptPage_of_error store hunpack)]
          rfl
      | ok transaction =>
          dsimp only
          have haccept := acceptPage_of_ok store id hunpack
          cases hsubmit : submitTransaction store transaction (some id) node with
          | error e last =>
              have hdiscard := discard_error store hsubmit
              refine ⟨.ok ⟨⟩, ?_⟩
              rw [run_bind_error (haccept.trans hdiscard)]
              change _ = ((discard (submitTransaction store transaction (some id)) >>= fun _ =>
                _) >>= fun _ => _) node
              rw [bind_assoc, run_bind_error hdiscard]
          | ok accepted later =>
              have hdiscard := discard_ok store hsubmit
              rcases ih later with ⟨outcome, houtcome⟩
              refine ⟨outcome, ?_⟩
              rw [run_bind_ok (haccept.trans hdiscard)]
              change _ = ((discard (submitTransaction store transaction (some id)) >>= fun _ =>
                (handed store id rest later).forM _) >>= fun _ => lift outcome) node
              rw [bind_assoc, run_bind_ok hdiscard]
              exact houtcome

theorem handed_le (id : Str) (items : List Str) :
    forall node, (handed store id items node).length ≤ items.length ∧
      (encodedSize (handed store id items node) : Int) ≤
        pageSize (items.takeWhile (unpacks node.config.maxItemBytes)) := by
  induction items with
  | nil => exact fun node => ⟨le_refl _, le_refl _⟩
  | cons encoded rest ih =>
      intro node
      rw [handed]
      cases hunpack : unpackTransaction encoded node.config.maxItemBytes with
      | error e =>
          dsimp only
          exact ⟨Nat.zero_le _, pageSize_takeWhile_nonneg _ _⟩
      | ok transaction =>
          dsimp only
          rw [List.takeWhile_cons_of_pos (unpacks_of_ok hunpack), pageSize_cons,
            encodedSize_cons, List.length_cons, List.length_cons, rawSize_of_unpack hunpack]
          have hconfig := submitTransaction_config store transaction (some id) node
          cases hsubmit : submitTransaction store transaction (some id) node with
          | error e last =>
              dsimp only
              have hnonneg := pageSize_takeWhile_nonneg node.config.maxItemBytes rest
              constructor
              · exact Nat.succ_le_succ (Nat.zero_le _)
              · rw [show encodedSize [] = 0 from rfl]
                omega
          | ok accepted later =>
              dsimp only
              rw [finalState_of_ok hsubmit] at hconfig
              have hlater := ih later
              rw [hconfig] at hlater
              constructor
              · exact Nat.succ_le_succ hlater.left
              · have hsize := hlater.right
                omega

theorem handed_all (id : Str) (items : List Str) :
    forall node next, items.forM (acceptPage store id) node = .ok ⟨⟩ next ->
      (handed store id items node).length = items.length ∧
        (encodedSize (handed store id items node) : Int) = pageSize items := by
  induction items with
  | nil => exact fun node next _ => ⟨rfl, rfl⟩
  | cons encoded rest ih =>
      intro node next hrun
      change (acceptPage store id encoded >>= fun _ => rest.forM (acceptPage store id)) node = _
        at hrun
      rw [handed]
      cases hunpack : unpackTransaction encoded node.config.maxItemBytes with
      | error e =>
          rw [run_bind_error (acceptPage_of_error store hunpack)] at hrun
          cases hrun
      | ok transaction =>
          dsimp only
          rw [pageSize_cons, encodedSize_cons, List.length_cons, List.length_cons,
            rawSize_of_unpack hunpack]
          have haccept := acceptPage_of_ok store id hunpack
          cases hsubmit : submitTransaction store transaction (some id) node with
          | error e last =>
              rw [run_bind_error (haccept.trans (discard_error store hsubmit))] at hrun
              cases hrun
          | ok accepted later =>
              rw [run_bind_ok (haccept.trans (discard_ok store hsubmit))] at hrun
              rcases ih later next hrun with ⟨hlength, hsize⟩
              dsimp only
              constructor
              · rw [hlength]
              · omega

end Handing

/-!
## Responses
-/

section Admission

variable {id : Str} {expected : GetMempoolPayload} {payload : MempoolPayload}
  {node next : Node disk}

theorem tip_state {current : Nat × Str} (h : tip node = .ok current next) : next = node := by
  unfold tip at h
  rw [run_bind_ok (rfl : (get : NodeM disk (Node disk)) node = .ok node node)] at h
  cases hheight : node.chain.height with
  | error e =>
      rw [hheight] at h
      cases h
  | ok height =>
      cases hlatest : node.chain.getLatestBlock with
      | error e =>
          rw [hheight, hlatest] at h
          cases h
      | ok latest =>
          rw [hheight, hlatest] at h
          cases h
          rfl

/-- A page that is admitted keeps its download within the caps, by the size it seems
to have. -/
theorem admitPage_ok {admitted : Option PendingDownload}
    (h : admitPage id expected payload node = .ok admitted next) :
    next = node ∧ forall download, admitted = some download ->
      node.sync.downloads.get? id = some download ∧
        download.count + payload.transactions.length ≤ node.config.snapshotMaxTransactions ∧
        download.size + pageSize payload.transactions ≤ node.config.snapshotMaxBytes := by
  unfold admitPage at h
  cases htip : tip node with
  | error e last =>
      rw [run_bind_error htip] at h
      cases h
  | ok current last =>
      rw [run_bind_ok htip, tip_state htip,
        run_bind_ok (rfl : (get : NodeM disk (Node disk)) node = .ok node node)] at h
      have hnothing : (pure none : NodeM disk (Option PendingDownload)) node =
          .ok admitted next -> next = node ∧ forall download, admitted = some download ->
            node.sync.downloads.get? id = some download ∧
              download.count + payload.transactions.length ≤
                node.config.snapshotMaxTransactions ∧
              download.size + pageSize payload.transactions ≤ node.config.snapshotMaxBytes := by
        intro hpure
        cases hpure
        refine ⟨rfl, ?_⟩
        intro download hsome
        cases hsome
      cases hfound : node.sync.downloads.get? id with
      | none =>
          rw [hfound] at h hnothing
          exact hnothing h
      | some found =>
          rw [hfound] at h hnothing
          dsimp only at h
          by_cases hstale : current.2 ≠ expected.tipHash
          · rw [if_pos hstale] at h
            exact hnothing h
          rw [if_neg hstale] at h
          by_cases hmatches : pageMatches found payload = false
          · rw [if_pos hmatches] at h
            cases h
          rw [if_neg hmatches] at h
          by_cases hprogress : expected.limit < payload.transactions.length ∨
              payload.nextCursor ≠ found.cursor + payload.transactions.length ∨
              (payload.transactions = [] ∧ payload.done = false)
          · rw [if_pos hprogress] at h
            cases h
          rw [if_neg hprogress] at h
          by_cases hlimits : node.config.snapshotMaxTransactions <
                found.count + payload.transactions.length ∨
              (node.config.snapshotMaxBytes : Int) < found.size + pageSize payload.transactions
          · rw [if_pos hlimits] at h
            cases h
          rw [if_neg hlimits] at h
          cases h
          refine ⟨rfl, ?_⟩
          intro download hsome
          rw [← Option.some.inj hsome]
          exact ⟨rfl, by omega, by omega⟩

omit [Crypto] in
theorem settlePage_run (env : Env) (refresh : Rat) (id : Str) (download : PendingDownload)
    (payload : MempoolPayload) (node : Node disk) :
    exists next, settlePage env refresh id download payload node = .ok ⟨⟩ next ∧
      next.sync.downloads.get? id =
        if payload.done then none else some (extended download payload) := by
  refine ⟨_, rfl, ?_⟩
  change (if payload.done = true then node.sync.downloads.erase id
    else node.sync.downloads.set id (extended download payload)).get? id = _
  by_cases hdone : payload.done = true
  · rw [if_pos hdone, if_pos hdone, Dict.get?_erase, if_pos rfl]
  · rw [if_neg hdone, if_neg hdone, Dict.get?_set, if_pos rfl]

end Admission

/-- A response to a request for a page, at the node that handles it. -/
structure Response (disk : Type) where
  env : Env
  node : Node disk
  expected : GetMempoolPayload
  payload : MempoolPayload

namespace Response

/-- The transactions of a response that are submitted. -/
def handed (id : Str) (response : Response disk) : List Transaction :=
  match admitPage id response.expected response.payload response.node with
  | .ok (some _) _ => Node.handed store id response.payload.transactions response.node
  | _ => []

/-- The download after a response; none when it is done, or the response is refused. -/
def left (id : Str) (response : Response disk) : Option PendingDownload :=
  match receiveMempool store response.env id response.expected response.payload
      response.node with
  | .ok _ next => next.sync.downloads.get? id
  | .error _ _ => none

/-- No malformed items that seem to have a negative size. -/
def Plausible (config : NodeConfig) (response : Response disk) : Prop :=
  0 ≤ pageSize (malformed config.maxItemBytes response.payload.transactions)

instance (config : NodeConfig) (response : Response disk) :
    Decidable (response.Plausible config) :=
  inferInstanceAs (Decidable (0 ≤ _))

end Response

/-- Responses under one download.  Between two of them the node may do whatever leaves
the download alone. -/
def Receives (config : NodeConfig) (id : Str) :
    Option PendingDownload -> List (Response disk) -> Prop
  | _, [] => True
  | none, _ :: _ => False
  | some download, response :: rest =>
      response.node.config = config ∧
        response.node.sync.downloads.get? id = some download ∧
        Receives config id (response.left store id) rest

/-- All transactions that are submitted from a download. -/
def allHanded (id : Str) (responses : List (Response disk)) : List Transaction :=
  responses.flatMap (Response.handed store id)

section Downloads

variable {config : NodeConfig} {id : Str} {download : PendingDownload}

/-- What one response hands on, and what the download is then. -/
inductive Served (config : NodeConfig) (id : Str) (download : PendingDownload)
    (response : Response disk) : Prop where
  | stale : response.handed store id = [] -> response.left store id = some download ->
      Served config id download response
  | refused : response.handed store id = [] -> response.left store id = none ->
      Served config id download response
  | cut :
      download.count + (response.handed store id).length ≤ config.snapshotMaxTransactions ->
      (response.Plausible config ->
        download.size + encodedSize (response.handed store id) ≤ config.snapshotMaxBytes) ->
      response.left store id = none -> Served config id download response
  | whole (next : PendingDownload) :
      next.count = download.count + (response.handed store id).length ->
      next.size = download.size + encodedSize (response.handed store id) ->
      next.count ≤ config.snapshotMaxTransactions -> next.size ≤ config.snapshotMaxBytes ->
      (response.left store id = none ∨ response.left store id = some next) ->
      Served config id download response

theorem response_served {response : Response disk} (hconfig : response.node.config = config)
    (hdownload : response.node.sync.downloads.get? id = some download) :
    Served store config id download response := by
  rcases response with ⟨env, node, expected, payload⟩
  have hconfig : node.config = config := hconfig
  have hdownload : node.sync.downloads.get? id = some download := hdownload
  have hleft := receiveMempool_eq store env id expected payload
  cases houtcome : admitPage id expected payload node with
  | error e last =>
      apply Served.refused
      · unfold Response.handed
        rw [houtcome]
      · unfold Response.left
        rw [hleft, run_bind_error houtcome]
  | ok admitted last =>
      rcases admitPage_ok houtcome with ⟨hlast, hadmitted⟩
      rw [hlast] at houtcome
      have hget : (get : NodeM disk (Node disk)) node = .ok node node := rfl
      cases admitted with
      | none =>
          apply Served.stale
          · unfold Response.handed
            rw [houtcome]
          · unfold Response.left
            rw [hleft, run_bind_ok houtcome, run_bind_ok hget]
            exact hdownload
      | some found =>
          rcases hadmitted found rfl with ⟨hfound, hcount, hsize⟩
          rw [hdownload] at hfound
          rw [← Option.some.inj hfound, hconfig] at hcount hsize
          rw [← Option.some.inj hfound] at houtcome
          have hhanded : Response.handed store id ⟨env, node, expected, payload⟩ =
              Node.handed store id payload.transactions node := by
            unfold Response.handed
            rw [houtcome]
          cases hloop : payload.transactions.forM (acceptPage store id) node with
          | error e stopped =>
              rcases handed_le store id payload.transactions node with ⟨hlength, hencoded⟩
              rw [hconfig] at hencoded
              apply Served.cut
              · rw [hhanded]
                omega
              · intro hsizes
                have htaken := pageSize_takeWhile_le hsizes
                rw [hhanded]
                dsimp only at htaken
                omega
              · unfold Response.left
                rw [hleft, run_bind_ok houtcome, run_bind_ok hget]
                dsimp only
                rw [run_bind_error hloop]
          | ok done settled =>
              rcases handed_all store id payload.transactions node settled hloop with
                ⟨hlength, hencoded⟩
              rcases settlePage_run env node.config.mempoolRefreshInterval id download payload
                settled with ⟨final, hfinal, hafter⟩
              refine Served.whole (extended download payload) ?_ ?_ hcount hsize ?_
              · rw [hhanded, hlength]
                rfl
              · rw [hhanded, hencoded]
                rfl
              · have hleftEq : Response.left store id ⟨env, node, expected, payload⟩ =
                    if payload.done then none else some (extended download payload) := by
                  unfold Response.left
                  rw [hleft, run_bind_ok houtcome, run_bind_ok hget]
                  dsimp only
                  rw [run_bind_ok hloop, hfinal]
                  exact hafter
                rw [hleftEq]
                by_cases hdone : payload.done = true
                · rw [if_pos hdone]
                  exact Or.inl rfl
                · rw [if_neg hdone]
                  exact Or.inr rfl

theorem receives_none {responses : List (Response disk)}
    (h : Receives store config id none responses) : responses = [] := by
  cases responses with
  | nil => rfl
  | cons response rest => exact h.elim

theorem receives_within_caps (responses : List (Response disk)) :
    forall download, Receives store config id (some download) responses ->
      download.count ≤ config.snapshotMaxTransactions ->
      download.size ≤ config.snapshotMaxBytes ->
      download.count + (allHanded store id responses).length ≤ config.snapshotMaxTransactions ∧
        ((forall response, response ∈ responses -> response.Plausible config) ->
          download.size + encodedSize (allHanded store id responses) ≤
            config.snapshotMaxBytes) := by
  induction responses with
  | nil =>
      intro download _ hcount hsize
      refine ⟨hcount, ?_⟩
      intro _
      rw [show encodedSize (allHanded store id []) = 0 from rfl]
      omega
  | cons response rest ih =>
      intro download hreceives hcount hsize
      rcases hreceives with ⟨hconfig, hdownload, hrest⟩
      have hcons : allHanded store id (response :: rest) =
          response.handed store id ++ allHanded store id rest := List.flatMap_cons
      rw [hcons, List.length_append, encodedSize_append]
      have hlast : response.left store id = none -> allHanded store id rest = [] := by
        intro hnone
        rw [hnone] at hrest
        rw [receives_none store hrest]
        rfl
      cases response_served store hconfig hdownload with
      | stale hnothing hleft =>
          rw [hleft] at hrest
          rcases ih download hrest hcount hsize with ⟨hlater, hbytes⟩
          rw [hnothing]
          refine ⟨by rw [List.length_nil, Nat.zero_add]; exact hlater, ?_⟩
          intro hsizes
          have hrestBytes := hbytes (fun later hmem => hsizes later (List.mem_cons_of_mem _ hmem))
          rw [show encodedSize [] = 0 from rfl, Nat.zero_add]
          exact hrestBytes
      | refused hnothing hleft =>
          rw [hnothing, hlast hleft]
          refine ⟨hcount, ?_⟩
          intro _
          rw [show encodedSize [] + encodedSize [] = 0 from rfl]
          omega
      | cut hlength hbytes hleft =>
          rw [hlast hleft]
          refine ⟨hlength, ?_⟩
          intro hsizes
          have hpage := hbytes (hsizes response List.mem_cons_self)
          rw [show encodedSize [] = 0 from rfl]
          omega
      | whole next hnextCount hnextSize hcountLe hsizeLe hleft =>
          rcases hleft with hleft | hleft
          · rw [hlast hleft]
            constructor
            · rw [List.length_nil]
              omega
            · intro _
              rw [show encodedSize [] = 0 from rfl]
              omega
          · rw [hleft] at hrest
            rcases ih next hrest hcountLe hsizeLe with ⟨hlater, hbytes⟩
            constructor
            · omega
            · intro hsizes
              have hrestBytes := hbytes
                (fun later hmem => hsizes later (List.mem_cons_of_mem _ hmem))
              omega

/-- The transactions submitted from one download keep the cap on their number, and the
cap on their bytes unless a page has malformed items of negative size. -/
theorem download_within_caps {tipHash : Str} {responses : List (Response disk)}
    (h : Receives store config id (some (PendingDownload.start tipHash)) responses) :
    (allHanded store id responses).length ≤ config.snapshotMaxTransactions ∧
      ((forall response, response ∈ responses -> response.Plausible config) ->
        encodedSize (allHanded store id responses) ≤ config.snapshotMaxBytes) := by
  have hcaps := receives_within_caps store responses (PendingDownload.start tipHash) h
    (Nat.zero_le _) (Int.natCast_nonneg _)
  rw [show (PendingDownload.start tipHash).count = 0 from rfl,
    show (PendingDownload.start tipHash).size = 0 from rfl, Nat.zero_add] at hcaps
  refine ⟨hcaps.left, ?_⟩
  intro hsizes
  have hbytes := hcaps.right hsizes
  omega

end Downloads

/-!
## Refused responses
-/

section Refusal

variable {env : Env} {id : Str} {packet : Packet} {session : Session} {node : Node disk}

/-- A response that is refused closes its session. -/
theorem handleRemote_refused {e : PyError} {last : Node disk}
    (hsession : node.sessions.get? id = some session) (hopen : session.peer.closed = false)
    (hrun : remote store env id packet node = .error e last) (hrejects : rejectsPeer e = true) :
    exists next, handleRemote store env id packet node = .ok ⟨⟩ next ∧
      forall later, next.sessions.get? id = some later -> later.peer.closed = true := by
  unfold handleRemote
  rw [run_bind_ok (rfl : (get : NodeM disk (Node disk)) node = .ok node node), hsession]
  dsimp only
  rw [hopen, if_neg Bool.false_ne_true, run_tryCatch_error hrun, hrejects, if_pos rfl]
  refine ⟨_, rfl, ?_⟩
  intro later hlater
  have hmodified : ((last.sessions.modify id (fun session =>
      { session with error := some (.rejected e) })).modify id (fun session =>
        { session with peer := { session.peer with closed := true } })).get? id = some later :=
    hlater
  rw [Dict.modify_modify, Dict.get?_modify, if_pos rfl] at hmodified
  rcases Option.map_eq_some_iff.mp hmodified with ⟨known, _, heq⟩
  rw [← heq]

/-- Nothing is received from a session that is closed. -/
theorem handleRemote_closed (hsession : node.sessions.get? id = some session)
    (hclosed : session.peer.closed = true) :
    handleRemote store env id packet node = .ok ⟨⟩ node := by
  unfold handleRemote
  rw [run_bind_ok (rfl : (get : NodeM disk (Node disk)) node = .ok node node), hsession]
  dsimp only
  rw [hclosed, if_pos rfl]
  rfl

end Refusal

end Node

end Network

/-!
# A page of padding
-/

namespace Sample

open Network

/-- A node that takes snapshots of a hundred bytes. -/
def smallSnapshots : NodeConfig :=
  { NodeConfig.default_ with
    snapshotMaxBytes := 100
    sizes_pos := by decide
    durations_pos := NodeConfig.default_.durations_pos }

def peerId : Str :=
  List.replicate 32 '1'

/-- A node in the middle of a download, with an empty chain. -/
def downloading (config : NodeConfig) : Node Unit :=
  { config := config
    nodeId := List.replicate 32 '2'
    endpoint := { host := str "127.0.0.1", port := 5000 }
    lifecycle := .running
    failure := none
    chain := start
    disk := ()
    sessions := Dict.empty
    events := []
    inboundEvents := 0
    inboundBytes := 0
    closedPeers := []
    dialTasks := []
    manager := { entries := Dict.empty, selfEndpoint := none }
    sync :=
      { SyncManager.empty with
        downloads := Dict.empty.set peerId (PendingDownload.start GENESIS_HASH) }
    tickQueued := false
    counters := ⟨0, 0, 0, 0⟩
    entropy :=
      { token := fun _ => List.replicate 32 '3'
        jitter := fun _ => 1
        token_valid := fun _ => by decide }
    drawn := 0 }

def pageAt (cursor : Nat) (transactions : List Str) (done : Bool) : MempoolPayload :=
  { tipHash := GENESIS_HASH
    snapshotId := List.replicate 32 '4'
    cursor := cursor
    transactions := transactions
    nextCursor := cursor + transactions.length
    done := done }

/-- The only page of a snapshot. -/
def pageOf (transactions : List Str) : MempoolPayload :=
  pageAt 0 transactions true

def pageResponse (config : NodeConfig) (transactions : List Str) : Node.Response Unit :=
  { env := { now := 0, wallClock := 1788652920 }
    node := downloading config
    expected :=
      { tipHash := GENESIS_HASH, snapshotId := none, cursor := 0, limit := MAX_MEMPOOL_PAGE }
    payload := pageOf transactions }

/-- A transfer, and padding that seems to take its bytes back. -/
def paddedPage : List Str :=
  [Base64.encode transfer.encoding, List.replicate (4 * transfer.encoding.length) '=']

def firstPage : Node.Response Unit :=
  { pageResponse NodeConfig.default_ [] with
    payload := pageAt 0 [Base64.encode transfer.encoding] false }

/-- The second page, whose last item is no transaction, under the download that the
first one leaves. -/
def secondPage : Node.Response Unit :=
  { env := firstPage.env
    node :=
      { downloading NodeConfig.default_ with
        sync :=
          { SyncManager.empty with
            downloads := Dict.empty.set peerId
              (Node.extended (PendingDownload.start GENESIS_HASH) firstPage.payload) } }
    expected :=
      { tipHash := GENESIS_HASH
        snapshotId := some (List.replicate 32 '4')
        cursor := 1
        limit := MAX_MEMPOOL_PAGE }
    payload := pageAt 1 [Base64.encode parent.encoding, str "AAAA"] true }

theorem pages_received :
    @Node.allHanded Unit crypto none peerId [firstPage, secondPage] = [transfer, parent] ∧
      @Node.Response.left Unit crypto none peerId firstPage =
        secondPage.node.sync.downloads.get? peerId ∧
      @malformed crypto MAX_ITEM_BYTES secondPage.payload.transactions = [str "AAAA"] ∧
      @Node.Response.Plausible Unit crypto NodeConfig.default_ firstPage ∧
      @Node.Response.Plausible Unit crypto NodeConfig.default_ secondPage := by
  decide +kernel

end Sample

namespace Network

namespace Node

/-- The schemas accept a page of a transfer and padding, and the transfer is submitted
although it is larger than the cap. -/
theorem padded_page_exceeds :
    ({ payload := .mempool (Sample.pageOf Sample.paddedPage)
       requestId := some (List.replicate 32 '5') } : Packet).Valid ∧
      @Receives Unit Sample.crypto none Sample.smallSnapshots Sample.peerId
        (some (PendingDownload.start GENESIS_HASH))
        [Sample.pageResponse Sample.smallSnapshots Sample.paddedPage] ∧
      @allHanded Unit Sample.crypto none Sample.peerId
        [Sample.pageResponse Sample.smallSnapshots Sample.paddedPage] = [Sample.transfer] ∧
      ¬ encodedSize (@allHanded Unit Sample.crypto none Sample.peerId
        [Sample.pageResponse Sample.smallSnapshots Sample.paddedPage]) ≤
          Sample.smallSnapshots.snapshotMaxBytes := by
  have hhanded : @allHanded Unit Sample.crypto none Sample.peerId
      [Sample.pageResponse Sample.smallSnapshots Sample.paddedPage] = [Sample.transfer] := by
    decide +kernel
  refine ⟨⟨?_, by decide, by decide⟩, ⟨rfl, by decide +kernel, trivial⟩, hhanded, ?_⟩
  · constructor
    · decide
    · decide
    · decide +kernel
    · decide
    · decide
    · decide +kernel
    · decide
    · decide
  · rw [hhanded]
    decide +kernel

theorem download_within_caps_pages :
    @allHanded Unit Sample.crypto none Sample.peerId [Sample.firstPage, Sample.secondPage] =
        [Sample.transfer, Sample.parent] ∧
      (@allHanded Unit Sample.crypto none Sample.peerId
        [Sample.firstPage, Sample.secondPage]).length ≤
          NodeConfig.default_.snapshotMaxTransactions ∧
      encodedSize (@allHanded Unit Sample.crypto none Sample.peerId
        [Sample.firstPage, Sample.secondPage]) ≤ NodeConfig.default_.snapshotMaxBytes := by
  rcases Sample.pages_received with ⟨hhanded, hleft, _, hfirst, hsecond⟩
  have hreceives : @Receives Unit Sample.crypto none NodeConfig.default_ Sample.peerId
      (some (PendingDownload.start GENESIS_HASH)) [Sample.firstPage, Sample.secondPage] := by
    refine ⟨rfl, rfl, ?_⟩
    rw [hleft]
    exact ⟨rfl, rfl, trivial⟩
  have hcaps := @download_within_caps Unit Sample.crypto none _ _ _ _ hreceives
  refine ⟨hhanded, hcaps.left, hcaps.right ?_⟩
  intro response hresponse
  rcases List.mem_cons.mp hresponse with hfirstPage | hrest
  · rw [hfirstPage]
    exact hfirst
  · rw [List.mem_singleton.mp hrest]
    exact hsecond

end Node

end Network

end PyChain
