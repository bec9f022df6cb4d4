import PyChain.Network.NodeState

/-!
# Synchronisation

Anchored block batches and paged snapshots of the pending pool.  A batch and a
page are built by a pure loop that stops at the frame limit; the methods around
them check the request, answer it and account for live snapshots.
-/

namespace PyChain

open Foundation

namespace Network

/-- The size of the bytes behind a base64 text, from its length and padding. -/
def rawSize (encoded : Str) : Int :=
  (encoded.length / 4 * 3 : Nat) - ((encoded.reverse.takeWhile (fun c => c = '=')).length : Int)

namespace Node

variable {disk : Type}

/-!
## Snapshots
-/

def dropExport (id : Str) : NodeM disk Unit :=
  modifySync (fun sync =>
    match sync.exports.get? id with
    | none => sync
    | some snapshot =>
        { sync with
          exports := sync.exports.erase id
          snapshotBytes := sync.snapshotBytes - snapshot.size })

/-- What goes when a connection goes. -/
def syncDisconnected (id : Str) : NodeM disk Unit := do
  dropExport id
  modifySync (fun sync =>
    { sync with
      downloads := sync.downloads.erase id
      source := if sync.source = some id then none else sync.source })

/-- A new tip ends every snapshot and makes every session due for a new one. -/
def tipChanged : NodeM disk Unit := do
  let node <- get
  node.sync.exports.keys.forM dropExport
  modify (fun node =>
    { node with
      sync := { node.sync with downloads := Dict.empty }
      sessions := node.sessions.mapValues (fun session => { session with nextMempool := 0 }) })

def snapshotExpired (config : NodeConfig) (now : Rat) (snapshot : ExportSnapshot) : Bool :=
  decide (config.snapshotIdleTimeout ≤ now - snapshot.touched) ||
    decide (config.snapshotLifetime ≤ now - snapshot.created)

def expireExport (env : Env) (id : Str) : NodeM disk Unit := do
  let node <- get
  match node.sync.exports.get? id with
  | none => pure ()
  | some snapshot =>
      if snapshotExpired node.config env.now snapshot = true then dropExport id

section Chain

variable [Crypto] (store : Option (ChainStore disk)) (env : Env)

/-!
## Local admission
-/

def submitTransaction (transaction : Transaction) (source : Option Str) :
    NodeM disk Bool := do
  let accepted <- performCall store (.submitTransaction transaction)
  if accepted then
    modifyCounters (fun counters =>
      { counters with transactionsAccepted := counters.transactionsAccepted + 1 })
    let node <- get
    loggingPolicyLimit do
      let encoded <- lift (packTransaction transaction node.config.maxItemBytes)
      broadcast { payload := .newTransaction encoded, requestId := none } source
  return accepted

def acceptBlock (block : Block) (source : Option Str) : NodeM disk Bool := do
  let current <- tip
  if block.previousBlockHash ≠ current.2 then
    match source with
    | none => return false
    | some id =>
        let node <- get
        let known <- lift (node.chain.getBlockByHash block.hash)
        if known = none then
          discard (request env id .getStatus)
        return false
  else
    let accepted <- performCall store
      (.addBlock block { currentTime := none, wallClock := env.wallClock })
    if accepted then
      modifyCounters (fun counters =>
        { counters with blocksAccepted := counters.blocksAccepted + 1 })
      tipChanged
      let node <- get
      loggingPolicyLimit do
        let encoded <- lift (packBlock block node.config.maxItemBytes)
        broadcast { payload := .newBlock encoded, requestId := none } source
      let status <- statusPayload
      broadcast { payload := .status status, requestId := none } none
    return accepted

/-!
## Requests of a tick
-/

/-- Sessions a batch can be asked from. -/
def syncCandidate (now : Rat) (height : Nat) (session : Session) : Bool :=
  decide (height < session.remoteHeight) && decide (session.syncAfter ≤ now) &&
    decide (session.syncState ≠ .diverged) && !session.hasRequest .getBlocks

/-- The highest advertised tip first, then the smallest node id. -/
def candidateLe (a b : Session) : Bool :=
  decide (b.remoteHeight < a.remoteHeight) ||
    (decide (a.remoteHeight = b.remoteHeight) &&
      decide (a.peer.nodeId.getD [] ≤ b.peer.nodeId.getD []))

/-- The first smallest candidate.  Node ids are compared, so they must be there
when there is a choice. -/
def bestCandidate : List (Str × Session) -> Except PyError (Option (Str × Session))
  | [] => .ok none
  | [candidate] => .ok (some candidate)
  | candidate :: rest =>
      if (candidate :: rest).any (fun item => item.2.peer.nodeId.isNone) then
        .error (.typeError "'<' not supported between instances of 'NoneType' and 'str'")
      else
        .ok (some (rest.foldl
          (fun best item => if candidateLe best.2 item.2 then best else item) candidate))

def requestBlocks (height : Nat) (tipHash : Str) : NodeM disk Unit := do
  let node <- get
  let candidates := node.sessions.items.filter
    (fun item => item.2.live && syncCandidate env.now height item.2)
  match <- lift (bestCandidate candidates) with
  | none => pure ()
  | some (id, _) =>
      let requested <- request env id
        (.getBlocks
          { anchorHeight := height, anchorHash := tipHash, limit := node.config.blockBatchSize })
      if requested.isSome then
        modifySync (fun sync => { sync with source := some id })
        modifySession id (fun session => { session with syncState := .blockSync })

/-- Whether a session is due for a page of the pending pool. -/
def mempoolDue (now : Rat) (height : Nat) (tipHash : Str) (session : Session) : Bool :=
  decide (session.remoteHeight = height) && decide (session.remoteTip = tipHash) &&
    decide (session.syncState ≠ .diverged) && decide (session.nextMempool ≤ now) &&
    !session.hasRequest .getMempool

def requestMempool (height : Nat) (tipHash id : Str) : NodeM disk Unit := do
  modifySession id (fun session =>
    if session.remoteHeight = height ∧ session.remoteTip ≠ tipHash then
      { session with
        syncState := .diverged
        error := some (.failed (.remote .forkUnsupported)) }
    else session)
  let session <- session id
  if mempoolDue env.now height tipHash session = true then
    let node <- get
    let download := (node.sync.downloads.get? id).getD (PendingDownload.start tipHash)
    let requested <- request env id
      (.getMempool
        { tipHash := download.tip
          snapshotId := download.token
          cursor := download.cursor
          limit := node.config.mempoolPageSize })
    if requested.isSome then
      modifySync (fun sync => { sync with downloads := sync.downloads.set id download })
      modifySession id (fun session => { session with syncState := .mempoolSync })

def syncTick : NodeM disk Unit := do
  let node <- get
  node.sync.exports.keys.forM (expireExport env)
  let current <- tip
  let node <- get
  let ids := (node.sessions.items.filter (fun item => item.2.live)).map Prod.fst
  modifySync (fun sync =>
    { sync with
      source :=
        match sync.source with
        | none => none
        | some id => if id ∈ ids then some id else none })
  let node <- get
  if node.sync.source = none then
    requestBlocks env current.1 current.2
  ids.forM (requestMempool env current.1 current.2)

/-!
## Failures
-/

omit [Crypto] in
def failedRequest (id : Str) (request : Request) (code : FailureCode) : NodeM disk Unit := do
  let node <- get
  modifySession id (fun session => { session with error := some (.failed code) })
  match request with
  | .getBlocks payload =>
      modifySync (fun sync => { sync with source := none })
      modifySession id (fun session =>
        { session with
          syncAfter := env.now + node.config.retryDelay
          syncState :=
            if code = .remote .forkUnsupported then .diverged else .idle })
      if code = .remote .unknownAnchor then
        modifySession id (fun session =>
          { session with rejectedAnchor := some (payload.anchorHeight, payload.anchorHash) })
        discard (Node.request env id .getStatus)
  | .getMempool _ =>
      modifySync (fun sync => { sync with downloads := sync.downloads.erase id })
      modifySession id (fun session =>
        { session with
          nextMempool := env.now + node.config.retryDelay
          syncState := .idle })
      if code = .remote .staleTip then
        discard (Node.request env id .getStatus)
  | .getStatus => pure ()
  | .getPeers => pure ()

/-!
## Block batches
-/

/-- One turn of the batch loop: the batch with one more block. -/
def extendBatch (config : NodeConfig) (requestId : Option Str) (height index : Nat)
    (block : Block) (result : BlocksPayload) : Except PyError BlocksPayload := do
  let encoded <- packBlock block config.maxItemBytes
  let trial : BlocksPayload :=
    { result with
      blocks := result.blocks ++ [encoded]
      more := decide (index < height) }
  let _ <- encodeMessage
    ({ payload := .blocks trial, requestId := requestId } : Packet).toMessage
    config.maxFrameBytes
  return trial

/-- The batch loop: stop at the frame limit, but not before the first block. -/
def collectBlocks (config : NodeConfig) (requestId : Option Str) (height : Nat) :
    List Block -> Nat -> BlocksPayload -> Except PyError (Option BlocksPayload)
  | [], _, result => .ok (some result)
  | block :: rest, index, result =>
      match extendBatch config requestId height index block result with
      | .ok trial => collectBlocks config requestId height rest (index + 1) trial
      | .error e =>
          if isPolicyLimit e then
            if result.blocks = [] then .ok none else .ok (some result)
          else .error e

/-- The answer to a request for blocks: an error code or a batch. -/
def blocksReply (config : NodeConfig) (chain : Blockchain) (payload : GetBlocksPayload)
    (requestId : Option Str) : Except PyError (Except ErrorCode BlocksPayload) := do
  match <- chain.getBlockByHeight payload.anchorHeight with
  | none => return .error .unknownAnchor
  | some anchor =>
      if anchor.hash ≠ payload.anchorHash then return .error .unknownAnchor
      else
        let height <- chain.height
        let latest <- chain.getLatestBlock
        let empty : BlocksPayload :=
          { anchorHeight := payload.anchorHeight
            anchorHash := payload.anchorHash
            tipHeight := height.toNat
            tipHash := latest.hash
            blocks := []
            more := false }
        let candidates := (chain.blocks.drop (payload.anchorHeight + 1)).take payload.limit
        match <- collectBlocks config requestId height.toNat candidates
            (payload.anchorHeight + 1) empty with
        | none => return .error .policyLimit
        | some result =>
            return .ok
              { result with
                more := decide (payload.anchorHeight + result.blocks.length < height.toNat) }

def serveBlocks (id : Str) (payload : GetBlocksPayload) (requestId : Option Str) :
    NodeM disk Unit := do
  let node <- get
  match <- lift (blocksReply node.config node.chain payload requestId) with
  | .error code => sendError id requestId code
  | .ok result => discard (send id { payload := .blocks result, requestId := requestId })

/-- The consistency of a batch with its request. -/
def batchConsistent (height limit : Nat) (payload : BlocksPayload) : Bool :=
  decide (payload.blocks.length ≤ limit) &&
    decide (height + payload.blocks.length ≤ payload.tipHeight) &&
    decide (height ≤ payload.tipHeight) &&
    decide (payload.more = decide (height + payload.blocks.length < payload.tipHeight)) &&
    decide (¬ (payload.more = true ∧ payload.blocks = []))

/-- Accept the blocks of a batch in order; false when one is refused. -/
def acceptBatch (id : Str) : List Str -> NodeM disk Bool
  | [] => return true
  | encoded :: rest => do
      let node <- get
      let block <- lift (unpackBlock encoded node.config.maxItemBytes)
      let current <- tip
      if block.previousBlockHash ≠ current.2 then
        throw (protocolError "BLOCKS does not extend the accepted prefix")
      else if <- acceptBlock store env block (some id) then acceptBatch id rest
      else return false

def receiveBlocks (id : Str) (expected : GetBlocksPayload) (payload : BlocksPayload) :
    NodeM disk Unit := do
  modifySync (fun sync => { sync with source := none })
  modifySession id (fun session => { session with syncState := .idle })
  if payload.anchorHeight ≠ expected.anchorHeight ∨
      payload.anchorHash ≠ expected.anchorHash then
    throw (protocolError "BLOCKS does not echo the requested anchor")
  else
    let current <- tip
    if current ≠ (expected.anchorHeight, expected.anchorHash) then return ()
    else if batchConsistent current.1 expected.limit payload = false then
      throw (protocolError "BLOCKS metadata is inconsistent or makes no progress")
    else if (<- acceptBatch store env id payload.blocks) = false then
      failedRequest env id (.getBlocks expected) (.remote .badMessage)
    else
      let reached <- tip
      if payload.more = false ∧ reached.2 ≠ payload.tipHash then
        throw (protocolError "BLOCKS final hash differs from advertised snapshot")
      else
        let node <- get
        modifySession id (fun session =>
          { session with
            remoteHeight := payload.tipHeight
            remoteTip := payload.tipHash
            syncAfter :=
              if payload.blocks = [] then env.now + node.config.retryDelay else 0
            error := if payload.blocks = [] then some .noProgress else none })
        if payload.more = false then
          discard (request env id .getStatus)

/-!
## Snapshot pages
-/

/-- One item of a snapshot: its bytes, if it fits a page at the largest cursor. -/
def snapshotItem (config : NodeConfig) (requestId : Option Str) (tipHash token : Str)
    (count : Nat) (transaction : Transaction) : Except PyError Bytes := do
  let encoded <- packTransaction transaction config.maxItemBytes
  let probe : MempoolPayload :=
    { tipHash := tipHash
      snapshotId := token
      cursor := count
      transactions := [encoded]
      nextCursor := count + 1
      done := false }
  let _ <- encodeMessage
    ({ payload := .mempool probe, requestId := requestId } : Packet).toMessage
    config.maxFrameBytes
  match Base64.decode encoded with
  | none => .error (.valueError "invalid base64")
  | some data => return data

/-- The page loop: stop at the frame limit. -/
def collectPage (config : NodeConfig) (requestId : Option Str) (total : Nat) :
    List Bytes -> Nat -> MempoolPayload -> Except PyError MempoolPayload
  | [], _, result => .ok result
  | item :: rest, index, result =>
      let trial : MempoolPayload :=
        { result with
          transactions := result.transactions ++ [Base64.encode item]
          nextCursor := index + 1
          done := decide (index + 1 = total) }
      match encodeMessage
          ({ payload := .mempool trial, requestId := requestId } : Packet).toMessage
          config.maxFrameBytes with
      | .ok _ => collectPage config requestId total rest (index + 1) trial
      | .error e => if isPolicyLimit e then .ok result else .error e

/-- The page of a snapshot at its cursor. -/
def snapshotPage (config : NodeConfig) (requestId : Option Str) (tipHash : Str) (limit : Nat)
    (snapshot : ExportSnapshot) : Except PyError MempoolPayload :=
  collectPage config requestId snapshot.items.length
    ((snapshot.items.drop snapshot.cursor).take limit) snapshot.cursor
    { tipHash := tipHash
      snapshotId := snapshot.token
      cursor := snapshot.cursor
      transactions := []
      nextCursor := snapshot.cursor
      done := decide (snapshot.cursor = snapshot.items.length) }

/-- Answer one page of a live snapshot. -/
def servePage (id : Str) (payload : GetMempoolPayload) (requestId : Option Str) (tipHash : Str)
    (snapshot : ExportSnapshot) : NodeM disk Unit := do
  if payload.cursor ≠ snapshot.cursor then
    throw (protocolError "GET_MEMPOOL cursor is not the next snapshot page")
  else
    let node <- get
    let result <- lift (snapshotPage node.config requestId tipHash payload.limit snapshot)
    if result.transactions = [] ∧ result.done = false then
      dropExport id
      sendError id requestId .policyLimit
    else
      modifySync (fun sync =>
        { sync with
          exports := sync.exports.set id
            { snapshot with cursor := result.nextCursor, touched := env.now } })
      discard (send id { payload := .mempool result, requestId := requestId })
      if result.done = true then dropExport id

/-- Build a snapshot of the pool for a session; its bytes are reserved first and
given back when it cannot be built. -/
def openSnapshot (id : Str) (requestId : Option Str) (tipHash : Str) (count size : Nat) :
    NodeM disk (Option ExportSnapshot) := do
  modifySync (fun sync => { sync with snapshotBytes := sync.snapshotBytes + size })
  let token <- drawToken
  let node <- get
  match node.chain.mempool.getTransactions.mapM
      (snapshotItem node.config requestId tipHash token count) with
  | .ok items =>
      let snapshot : ExportSnapshot :=
        { token := token
          tip := tipHash
          items := items
          size := size
          cursor := 0
          created := env.now
          touched := env.now }
      modifySync (fun sync => { sync with exports := sync.exports.set id snapshot })
      return some snapshot
  | .error e =>
      modifySync (fun sync => { sync with snapshotBytes := sync.snapshotBytes - size })
      if isPolicyLimit e then
        sendError id requestId .policyLimit
        return none
      else throw e

/-- The first page of a new snapshot, within the limits of the node. -/
def serveFirst (id : Str) (payload : GetMempoolPayload) (requestId : Option Str)
    (tipHash : Str) : NodeM disk Unit := do
  let node <- get
  let session <- session id
  if (node.sync.exports.get? id).isSome ∨ env.now < session.nextExport then
    sendError id requestId .busy
  else
    modifySession id (fun session =>
      { session with nextExport := env.now + node.config.snapshotCooldown })
    let stats <- lift node.chain.getMempoolStats
    if node.config.snapshotMaxTransactions < stats.1 ∨
        node.config.snapshotMaxBytes < stats.2 then
      sendError id requestId .policyLimit
    else if (node.config.snapshotGlobalBytes : Int) < node.sync.snapshotBytes + stats.2 then
      sendError id requestId .busy
    else
      match <- openSnapshot env id requestId tipHash stats.1 stats.2 with
      | none => pure ()
      | some snapshot => servePage env id payload requestId tipHash snapshot

def serveMempool (id : Str) (payload : GetMempoolPayload) (requestId : Option Str) :
    NodeM disk Unit := do
  let current <- tip
  if payload.tipHash ≠ current.2 then
    dropExport id
    sendError id requestId .staleTip
  else
    expireExport env id
    match payload.snapshotId with
    | none => serveFirst env id payload requestId current.2
    | some token =>
        let node <- get
        match node.sync.exports.get? id with
        | none => sendError id requestId .snapshotExpired
        | some snapshot =>
            if snapshot.token ≠ token then sendError id requestId .snapshotExpired
            else servePage env id payload requestId current.2 snapshot

/-- Submit the transactions of a page in order. -/
def acceptPage (id : Str) (encoded : Str) : NodeM disk Unit := do
  let node <- get
  let transaction <- lift (unpackTransaction encoded node.config.maxItemBytes)
  discard (submitTransaction store transaction (some id))

/-- The consistency of a page with the download it belongs to. -/
def pageMatches (download : PendingDownload) (payload : MempoolPayload) : Bool :=
  decide (payload.tipHash = download.tip) && decide (payload.cursor = download.cursor) &&
    (match download.token with
      | none => true
      | some token => decide (payload.snapshotId = token))

def receiveMempool (id : Str) (expected : GetMempoolPayload) (payload : MempoolPayload) :
    NodeM disk Unit := do
  let current <- tip
  let node <- get
  match node.sync.downloads.get? id with
  | none => return ()
  | some download =>
      if current.2 ≠ expected.tipHash then return ()
      else if pageMatches download payload = false then
        throw (protocolError "MEMPOOL snapshot, tip or cursor mismatch")
      else if expected.limit < payload.transactions.length ∨
          payload.nextCursor ≠ download.cursor + payload.transactions.length ∨
          (payload.transactions = [] ∧ payload.done = false) then
        throw (protocolError "MEMPOOL pagination makes no progress")
      else
        let pageSize := (payload.transactions.map rawSize).sum
        if node.config.snapshotMaxTransactions <
              download.count + payload.transactions.length ∨
            (node.config.snapshotMaxBytes : Int) < download.size + pageSize then
          throw (policyLimitError "Incoming pending snapshot exceeds node policy")
        else
          payload.transactions.forM (acceptPage store id)
          modifySync (fun sync =>
            { sync with
              downloads :=
                if payload.done then sync.downloads.erase id
                else sync.downloads.set id
                  { download with
                    token := some payload.snapshotId
                    cursor := payload.nextCursor
                    count := download.count + payload.transactions.length
                    size := download.size + pageSize } })
          modifySession id (fun session =>
            if payload.done then
              { session with
                error := none
                nextMempool := env.now + node.config.mempoolRefreshInterval
                syncState := .idle }
            else { session with error := none })

end Chain

end Node

end Network

end PyChain
