import BerryKeep.UploadAssembly

/-!
Upload sessions. A client announces a size, uploads the chunks in any order and
asks for the object to be made of them. The sessions live in a table under one
lock, the store under another, and no request holds both: a chunk is stored
between two sections under the session lock, and a completion leaves the mark
`finalizing` on the session while it works on the store. Each section is one
step here; requests on the same session may interleave in any way and may be
dropped between two sections.
-/
namespace BerryKeepUploadSessions
open FiniteTable TextOperations StatefulProgram BerryKeepContentCodec BerryKeepStoragePool
  BerryKeepVersionGraph BerryKeepCurrentNamespace BerryKeepNodeStore BerryKeepStoreOperations
  BerryKeepUploadAssembly

def uploadSessionTtlSecs : Nat := 24 * 60 * 60

structure UploadSessionStartRequest where
  key : String
  totalSizeBytes : Nat
  state : Option String
  parent : List String
  versionId : Option String
  objectId : Option String
  expectedRevision : Option String
  chunkRefs : List UploadChunkRef

structure UploadSessionCompleteResponse where
  objectId : String
  snapshotId : String
  versionId : String
  manifestHash : String
  state : VersionConsistencyState
  newChunks : Nat
  dedupReusedChunks : Nat
  createdNewVersion : Bool
  totalSizeBytes : Nat
  deriving DecidableEq

inductive UploadAssemblyMode where
  | fixedSequence
  | multipart
  deriving DecidableEq

structure UploadSessionRecord where
  uploadId : String
  ownerDeviceId : Option String
  key : String
  totalSizeBytes : Nat
  chunkSizeBytes : Nat
  chunkCount : Nat
  state : VersionConsistencyState
  parentVersionIds : List String
  explicitVersionId : Option String
  objectId : Option String
  expectedRevision : Option String
  assemblyMode : UploadAssemblyMode
  receivedChunks : List (Option UploadChunkRef)
  updatedAtUnix : Nat
  expiresAtUnix : Nat
  finalizing : Bool
  completed : Bool
  completedResult : Option UploadSessionCompleteResponse

abbrev UploadSessionStore := Table String UploadSessionRecord

def pruneExpiredUploadSessions (sessions : UploadSessionStore) (now : Nat) : UploadSessionStore :=
  sessions.retain fun _ session => decide (now < session.expiresAtUnix)

structure UploadSessionView where
  uploadId : String
  key : String
  totalSizeBytes : Nat
  chunkSizeBytes : Nat
  chunkCount : Nat
  receivedIndexes : List Nat
  expiresAtUnix : Nat
  completed : Bool
  completedResult : Option UploadSessionCompleteResponse
  deriving DecidableEq

def uploadSessionView (session : UploadSessionRecord) : UploadSessionView where
  uploadId := session.uploadId
  key := session.key
  totalSizeBytes := session.totalSizeBytes
  chunkSizeBytes := session.chunkSizeBytes
  chunkCount := session.chunkCount
  receivedIndexes := session.receivedChunks.zipIdx.filterMap fun (entry, index) =>
    entry.map fun _ => index
  expiresAtUnix := session.expiresAtUnix
  completed := session.completed
  completedResult := session.completedResult

def expiresAt (now : Nat) : Nat := min (now + uploadSessionTtlSecs) (2 ^ 64 - 1)

def UploadSessionRecord.refreshed (session : UploadSessionRecord) (now : Nat) :
    UploadSessionRecord :=
  { session with updatedAtUnix := now, expiresAtUnix := expiresAt now }

def UploadSessionRecord.withChunk (session : UploadSessionRecord) (index : Nat)
    (next_ref : UploadChunkRef) (now : Nat) : UploadSessionRecord :=
  { session with receivedChunks := session.receivedChunks.set index (some next_ref) }.refreshed now

def UploadSessionRecord.marked (session : UploadSessionRecord) (now : Nat) : UploadSessionRecord :=
  { session with finalizing := true }.refreshed now

def UploadSessionRecord.ownedBy (session : UploadSessionRecord) (device : Option String) : Bool :=
  session.ownerDeviceId.all fun owner_device_id => decide (device = some owner_device_id)

def UploadSessionStartRequest.chunkCount (request : UploadSessionStartRequest) : Nat :=
  uploadChunkCount request.totalSizeBytes chunkSize

def UploadSessionStartRequest.expectedSize (request : UploadSessionStartRequest) (index : Nat) :
    Option Nat :=
  expectedUploadChunkSize request.totalSizeBytes chunkSize request.chunkCount index

def requestedState : Option String → Option VersionConsistencyState
  | none => some .confirmed
  | some text =>
    if text = "confirmed" then some .confirmed
    else if text = "provisional" then some .provisional
    else none

structure StartPlan where
  key : String
  state : VersionConsistencyState
  receivedChunks : List (Option UploadChunkRef)

def planStart (codec : Codec) (st : ContentStore) (request : UploadSessionStartRequest) :
    Option StartPlan :=
  if trim request.key = "" then none
  else match requestedState request.state with
    | none => none
    | some version_state =>
      if request.chunkRefs ≠ [] ∧ request.chunkRefs.length ≠ request.chunkCount then none
      else if ¬∀ row ∈ request.chunkRefs.zipIdx,
          request.expectedSize row.2 = some row.1.sizeBytes then none
      else if request.chunkRefs = [] then
        some ⟨trim request.key, version_state, List.replicate request.chunkCount none⟩
      else match availableUploadChunkRefs codec st request.chunkRefs with
        | .error _ => none
        | .ok received_chunks => some ⟨trim request.key, version_state, received_chunks⟩

def newSession (upload_id : String) (owner_device_id : Option String)
    (request : UploadSessionStartRequest) (plan : StartPlan) (now : Nat) : UploadSessionRecord where
  uploadId := upload_id
  ownerDeviceId := owner_device_id
  key := plan.key
  totalSizeBytes := request.totalSizeBytes
  chunkSizeBytes := chunkSize
  chunkCount := request.chunkCount
  state := plan.state
  parentVersionIds := request.parent
  explicitVersionId := request.versionId
  objectId := request.objectId
  expectedRevision := request.expectedRevision
  assemblyMode := .fixedSequence
  receivedChunks := plan.receivedChunks
  updatedAtUnix := now
  expiresAtUnix := expiresAt now
  finalizing := false
  completed := false
  completedResult := none

def sessionFor (sessions : UploadSessionStore) (upload_id : String) (device : Option String) :
    Except Nat UploadSessionRecord :=
  match sessions.get upload_id with
  | none => .error 404
  | some session => if session.ownedBy device then .ok session else .error 403

def chunkSession (sessions : UploadSessionStore) (upload_id : String) (device : Option String) :
    Except Nat UploadSessionRecord := do
  let session ← sessionFor sessions upload_id device
  if session.completed || session.finalizing then .error 409
  else if session.assemblyMode ≠ .fixedSequence then .error 409
  else .ok session

def commitChunk (sessions : UploadSessionStore) (upload_id : String) (index : Nat)
    (device : Option String) (next_ref : UploadChunkRef) (now : Nat) :
    Except Nat UploadSessionStore := do
  let session ← chunkSession sessions upload_id device
  if ((session.receivedChunks[index]?).join).any fun existing => existing ≠ next_ref then .error 409
  else .ok (sessions.put upload_id (session.withChunk index next_ref now))

structure FinalizePlan where
  key : String
  totalSizeBytes : Nat
  parentVersionIds : List String
  state : VersionConsistencyState
  explicitVersionId : Option String
  objectId : Option String
  expectedRevision : Option String
  chunkRefs : List UploadChunkRef

def UploadSessionRecord.finalizePlan (session : UploadSessionRecord) : FinalizePlan where
  key := session.key
  totalSizeBytes := session.totalSizeBytes
  parentVersionIds := session.parentVersionIds
  state := session.state
  explicitVersionId := session.explicitVersionId
  objectId := session.objectId
  expectedRevision := session.expectedRevision
  chunkRefs := session.receivedChunks.filterMap id

structure UploadSessionChunkResponse where
  stored : Bool
  receivedIndex : Nat
  deriving DecidableEq

inductive Answer where
  | status (code : Nat)
  | created (view : UploadSessionView)
  | chunk (response : UploadSessionChunkResponse)
  | complete (response : UploadSessionCompleteResponse)
  deriving DecidableEq

def prepareComplete (sessions : UploadSessionStore) (upload_id : String) (device : Option String)
    (now : Nat) : Answer ⊕ FinalizePlan × UploadSessionStore :=
  match sessionFor sessions upload_id device with
  | .error status => .inl (.status status)
  | .ok session =>
    match if session.completed then session.completedResult else none with
    | some result => .inl (.complete result)
    | none =>
      if session.finalizing || session.receivedChunks.any Option.isNone then .inl (.status 409)
      else if session.assemblyMode ≠ .fixedSequence then .inl (.status 409)
      else .inr (session.finalizePlan, sessions.put upload_id (session.marked now))

def resolveUploadKey (codec : Codec) (s : Store) (plan : FinalizePlan) : Except Nat String :=
  match plan.objectId with
  | none => .ok plan.key
  | some object_id =>
    match currentPathForObjectId s object_id with
    | some current_path => .ok current_path
    | none => .error (if hasVersionsByObjectId codec s object_id then 409 else 404)

/-- The section of a completion under the store lock: the status of the refusal, or the key and
    the outcome of the put. -/
def finalizeInStore (codec : Codec) (plan : FinalizePlan) (s : Store) :
    Except Nat (String × PutResult) × Store :=
  match resolveUploadKey codec s plan with
  | .error status => (.error status, s)
  | .ok key =>
    if plan.expectedRevision.isSome ∧ currentRevision s key ≠ plan.expectedRevision then
      (.error 409, s)
    else
      match (putObjectFromChunks codec key plan.totalSizeBytes plan.chunkRefs
          ⟨plan.parentVersionIds, plan.state, true, true, plan.explicitVersionId⟩).run s with
      | (.error _, t) => (.error 500, t)
      | (.ok outcome, t) => (.ok (key, outcome), t)

def completeResponse (outcome : PutResult) (total_size_bytes : Nat) :
    UploadSessionCompleteResponse where
  objectId := outcome.objectId
  snapshotId := outcome.snapshotId
  versionId := outcome.versionId
  manifestHash := outcome.manifestHash
  state := outcome.state
  newChunks := outcome.newChunks
  dedupReusedChunks := outcome.dedupReusedChunks
  createdNewVersion := outcome.createdNewVersion
  totalSizeBytes := total_size_bytes

def UploadSessionRecord.unlocked (session : UploadSessionRecord) (now : Nat) :
    UploadSessionRecord :=
  if session.completed then session else { session with finalizing := false }.refreshed now

def UploadSessionRecord.finished (session : UploadSessionRecord)
    (response : UploadSessionCompleteResponse) (now : Nat) : UploadSessionRecord :=
  { session with
    completed := true
    finalizing := false
    completedResult := some response }.refreshed now

def UploadSessionStore.update (sessions : UploadSessionStore) (upload_id : String)
    (change : UploadSessionRecord → UploadSessionRecord) : UploadSessionStore :=
  match sessions.get upload_id with
  | none => sessions
  | some session => sessions.put upload_id (change session)

def deleteSession (sessions : UploadSessionStore) (upload_id : String) (device : Option String) :
    Except Nat UploadSessionStore := do
  let session ← sessionFor sessions upload_id device
  if session.finalizing then .error 409 else .ok (sessions.del upload_id)

inductive CallState where
  | starting (device : Option String) (request : UploadSessionStartRequest) (plan : StartPlan)
  | ingesting (upload_id : String) (index : Nat) (payload : Bytes) (device : Option String)
  | committing (upload_id : String) (index : Nat) (payload : Bytes) (device : Option String)
      (hash : String) (stored : Bool)
  | storing (upload_id : String) (plan : FinalizePlan)
  | resetting (upload_id : String) (status : Nat)
  | finishing (upload_id : String) (response : UploadSessionCompleteResponse)
  | answered (answer : Answer)
  | cancelled

structure AcceptedChunk where
  uploadId : String
  index : Nat
  payload : Bytes
  deriving DecidableEq

structure CreatedObject where
  uploadId : String
  key : String
  chunkRefs : List UploadChunkRef
  response : UploadSessionCompleteResponse
  chunks : Option (List Bytes)

def CreatedObject.content (c : CreatedObject) : Option Bytes := c.chunks.map List.flatten

/-- The sessions, the store and the requests under way. The last three fields record the start
    requests, the accepted chunks and the successful puts so far. -/
structure UploadServer where
  sessions : UploadSessionStore
  store : Store
  calls : Table Nat CallState
  started : Table String UploadSessionStartRequest
  accepted : List AcceptedChunk
  created : List CreatedObject

def UploadServer.new (store : Store) : UploadServer :=
  ⟨Table.empty, store, Table.empty, Table.empty, [], []⟩

inductive Step where
  | start (id : Nat) (device : Option String) (request : UploadSessionStartRequest)
  | startInsert (id : Nat) (upload_id : String) (now : Nat)
  | chunkPreflight (id : Nat) (upload_id : String) (index : Nat) (payload : Bytes)
      (device : Option String) (now : Nat)
  | chunkIngest (id : Nat)
  | chunkCommit (id : Nat) (now : Nat)
  | completePrepare (id : Nat) (upload_id : String) (device : Option String) (now : Nat)
  | completeStore (id : Nat)
  | completeReset (id : Nat) (now : Nat)
  | completeFinish (id : Nat) (now : Nat)
  | delete (id : Nat) (upload_id : String) (device : Option String) (now : Nat)
  | prune (now : Nat)
  | outside (store : Store)
  | cancel (id : Nat)

def UploadServer.setCall (server : UploadServer) (id : Nat) (call : CallState) : UploadServer :=
  { server with calls := server.calls.put id call }

def UploadServer.answer (server : UploadServer) (id : Nat) (answer : Answer) : UploadServer :=
  server.setCall id (.answered answer)

def UploadServer.answerOf (server : UploadServer) (id : Nat) : Option Answer :=
  match server.calls.get id with
  | some (.answered answer) => some answer
  | _ => none

def UploadServer.pruned (server : UploadServer) (now : Nat) : UploadServer :=
  { server with sessions := pruneExpiredUploadSessions server.sessions now }

/-- A section under a lock. A step that does not fit the state of its request does nothing;
    `prune` stands for the other requests that look at the table, `outside` for everything else
    that happens to the store. -/
def exec (codec : Codec) (step : Step) (server : UploadServer) : UploadServer :=
  match step with
  | .start id device request =>
    if server.calls.has id then server
    else match planStart codec server.store.content request with
      | none => server.answer id (.status 400)
      | some plan => server.setCall id (.starting device request plan)
  | .startInsert id upload_id now =>
    match server.calls.get id with
    | some (.starting device request plan) =>
      let session := newSession upload_id device request plan now
      { server.pruned now with
        sessions := (server.pruned now).sessions.put upload_id session
        started := server.started.put upload_id request }.answer id
          (.created (uploadSessionView session))
    | _ => server
  | .chunkPreflight id upload_id index payload device now =>
    if server.calls.has id then server
    else match chunkSession (server.pruned now).sessions upload_id device with
      | .error status => (server.pruned now).answer id (.status status)
      | .ok session =>
        if expectedUploadChunkSize session.totalSizeBytes session.chunkSizeBytes
            session.chunkCount index = some payload.length then
          (server.pruned now).setCall id (.ingesting upload_id index payload device)
        else (server.pruned now).answer id (.status 400)
  | .chunkIngest id =>
    match server.calls.get id with
    | some (.ingesting upload_id index payload device) =>
      match (ingestChunkAuto codec payload).run server.store with
      | (.error _, store) => { server with store := store }.answer id (.status 400)
      | (.ok (hash, stored), store) =>
        { server with store := store }.setCall id
          (.committing upload_id index payload device hash stored)
    | _ => server
  | .chunkCommit id now =>
    match server.calls.get id with
    | some (.committing upload_id index payload device hash stored) =>
      match commitChunk (server.pruned now).sessions upload_id index device
          ⟨hash, payload.length⟩ now with
      | .error status => (server.pruned now).answer id (.status status)
      | .ok sessions =>
        { server with
          sessions := sessions
          accepted := server.accepted ++ [AcceptedChunk.mk upload_id index payload] }.answer id
            (.chunk ⟨stored, index⟩)
    | _ => server
  | .completePrepare id upload_id device now =>
    if server.calls.has id then server
    else match prepareComplete (server.pruned now).sessions upload_id device now with
      | .inl answer => (server.pruned now).answer id answer
      | .inr (plan, sessions) =>
        { server with sessions := sessions }.setCall id (.storing upload_id plan)
  | .completeStore id =>
    match server.calls.get id with
    | some (.storing upload_id plan) =>
      match finalizeInStore codec plan server.store with
      | (.error status, store) =>
        { server with store := store }.setCall id (.resetting upload_id status)
      | (.ok (key, outcome), store) =>
        let response := completeResponse outcome plan.totalSizeBytes
        { server with
          store := store
          created := server.created ++ [CreatedObject.mk upload_id key plan.chunkRefs response
            (readChunks store.content plan.chunkRefs)] }.setCall id (.finishing upload_id response)
    | _ => server
  | .completeReset id now =>
    match server.calls.get id with
    | some (.resetting upload_id status) =>
      { server with
        sessions := server.sessions.update upload_id fun session => session.unlocked now }.answer id
          (.status status)
    | _ => server
  | .completeFinish id now =>
    match server.calls.get id with
    | some (.finishing upload_id response) =>
      { server with
        sessions := server.sessions.update upload_id fun session =>
          session.finished response now }.answer id (.complete response)
    | _ => server
  | .delete id upload_id device now =>
    if server.calls.has id then server
    else match deleteSession (server.pruned now).sessions upload_id device with
      | .error status => (server.pruned now).answer id (.status status)
      | .ok sessions => { server with sessions := sessions }.answer id (.status 204)
  | .prune now => server.pruned now
  | .outside store => { server with store := store }
  | .cancel id =>
    match server.calls.get id with
    | none | some (.answered _) => server
    | some _ => server.setCall id .cancelled

def FreshUploads (server : UploadServer) : Step → Prop
  | .startInsert _ upload_id _ => server.started.get upload_id = none
  | _ => True

section OneUpload

inductive Held where
  | storing (plan : FinalizePlan)
  | resetting
  | finishing (response : UploadSessionCompleteResponse)

def CallState.held (upload_id : String) : CallState → Option Held
  | .storing id plan => if id = upload_id then some (.storing plan) else none
  | .resetting id _ => if id = upload_id then some .resetting else none
  | .finishing id response => if id = upload_id then some (.finishing response) else none
  | _ => none

structure Upload where
  started : Option UploadSessionStartRequest
  session : Option UploadSessionRecord
  accepted : List AcceptedChunk
  created : List CreatedObject
  held : Nat → Option Held

def UploadServer.createdFor (server : UploadServer) (upload_id : String) : List CreatedObject :=
  server.created.filter fun c => c.uploadId = upload_id

def UploadServer.upload (server : UploadServer) (upload_id : String) : Upload where
  started := server.started.get upload_id
  session := server.sessions.get upload_id
  accepted := server.accepted.filter fun a => a.uploadId = upload_id
  created := server.createdFor upload_id
  held id := (server.calls.get id).bind (CallState.held upload_id)

/-- The received chunks have the expected sizes, come from an accepted chunk or from the start
    request, and keep every accepted chunk. -/
structure Agrees (codec : Codec) (request : UploadSessionStartRequest)
    (accepted : List AcceptedChunk) (received : List (Option UploadChunkRef)) : Prop where
  length : received.length = request.chunkCount
  sized : ∀ (i : Nat) (ref : UploadChunkRef), received[i]? = some (some ref) →
    request.expectedSize i = some ref.sizeBytes
  sourced : ∀ (i : Nat) (ref : UploadChunkRef), received[i]? = some (some ref) →
    (∃ a ∈ accepted, a.index = i ∧ chunkRefOf codec a.payload = ref) ∨
      request.chunkRefs[i]? = some ref
  kept : ∀ a ∈ accepted, received[a.index]? = some (some (chunkRefOf codec a.payload))

structure SessionOf (request : UploadSessionStartRequest) (session : UploadSessionRecord) :
    Prop where
  total : session.totalSizeBytes = request.totalSizeBytes
  size : session.chunkSizeBytes = chunkSize
  count : session.chunkCount = request.chunkCount

structure Built (codec : Codec) (request : UploadSessionStartRequest)
    (accepted : List AcceptedChunk) (c : CreatedObject) : Prop where
  agrees : Agrees codec request accepted (c.chunkRefs.map some)
  manifest : c.response.manifestHash =
    hashHex codec (codec.encodeManifest ⟨c.key, request.totalSizeBytes, c.chunkRefs⟩)
  reads : ∃ chunks, c.chunks = some chunks ∧ chunks.map (chunkRefOf codec) = c.chunkRefs

structure UploadOk (codec : Codec) (v : Upload) : Prop where
  unstarted : v.started = none →
    v.session = none ∧ v.accepted = [] ∧ v.created = [] ∧ ∀ id, v.held id = none
  session : ∀ session, v.session = some session → ∃ request, v.started = some request ∧
    SessionOf request session ∧ Agrees codec request v.accepted session.receivedChunks
  one_holder : ∀ id other held held', v.held id = some held → v.held other = some held' → id = other
  marked : ∀ id held session, v.held id = some held → v.session = some session →
    session.finalizing = true ∧ session.completed = false
  planned : ∀ id plan, v.held id = some (.storing plan) → ∃ request, v.started = some request ∧
    plan.totalSizeBytes = request.totalSizeBytes ∧
    Agrees codec request v.accepted (plan.chunkRefs.map some) ∧
    ∀ session, v.session = some session → session.receivedChunks = plan.chunkRefs.map some
  created : v.created = [] ∨ ∃ c request, v.created = [c] ∧ v.started = some request ∧
    Built codec request v.accepted c ∧ ∀ session, v.session = some session →
      session.receivedChunks = c.chunkRefs.map some ∧
        (session.finalizing = true ∨ session.completed = true)
  pending : ∀ id held, v.held id = some held →
    v.created = [] ∧ (∀ response, held ≠ .finishing response) ∨
      ∃ c, v.created = [c] ∧ held = .finishing c.response
  completed : ∀ session, v.session = some session → session.completed = true →
    ∃ c, v.created = [c] ∧ session.completedResult = some c.response

inductive Moves (codec : Codec) : Upload → Upload → Prop where
  -- nothing, or the session is gone, or a completion was dropped
  | quiet {v w : Upload} (started : w.started = v.started)
      (session : w.session = v.session ∨ w.session = none) (accepted : w.accepted = v.accepted)
      (created : w.created = v.created)
      (held : ∀ id held, w.held id = some held → v.held id = some held) : Moves codec v w
  | start {v : Upload} {request : UploadSessionStartRequest} {session : UploadSessionRecord}
      (fresh : v.started = none) (new : SessionOf request session)
      (received : Agrees codec request [] session.receivedChunks)
      (unfinished : session.completed = false) :
      Moves codec v { v with started := some request, session := some session }
  | accept {v : Upload} {session : UploadSessionRecord} {a : AcceptedChunk} (now : Nat)
      (found : v.session = some session) (unmarked : session.finalizing = false)
      (unfinished : session.completed = false)
      (sized : ∀ request, v.started = some request →
        request.expectedSize a.index = some a.payload.length)
      (same : ∀ ref, session.receivedChunks[a.index]? = some (some ref) →
        ref = chunkRefOf codec a.payload) :
      Moves codec v { v with
        session := some (session.withChunk a.index (chunkRefOf codec a.payload) now)
        accepted := v.accepted ++ [a] }
  | lock {v : Upload} {session : UploadSessionRecord} (id now : Nat)
      (found : v.session = some session) (unmarked : session.finalizing = false)
      (unfinished : session.completed = true → session.completedResult = none)
      (full : session.receivedChunks.any Option.isNone = false) :
      Moves codec v { v with
        session := some (session.marked now)
        held := Function.update v.held id (some (.storing session.finalizePlan)) }
  | fail {v : Upload} {id : Nat} {plan : FinalizePlan} (held : v.held id = some (.storing plan)) :
      Moves codec v { v with held := Function.update v.held id (some .resetting) }
  | create {v : Upload} {id : Nat} {plan : FinalizePlan} {c : CreatedObject}
      (held : v.held id = some (.storing plan)) (refs : c.chunkRefs = plan.chunkRefs)
      (manifest : c.response.manifestHash =
        hashHex codec (codec.encodeManifest ⟨c.key, plan.totalSizeBytes, c.chunkRefs⟩))
      (reads : ∃ chunks, c.chunks = some chunks ∧ chunks.map (chunkRefOf codec) = c.chunkRefs) :
      Moves codec v { v with
        created := v.created ++ [c]
        held := Function.update v.held id (some (.finishing c.response)) }
  | reset {v : Upload} {id : Nat} (now : Nat) (held : v.held id = some .resetting) :
      Moves codec v { v with
        session := v.session.map fun session => session.unlocked now
        held := Function.update v.held id none }
  | finish {v : Upload} {id : Nat} {response : UploadSessionCompleteResponse} (now : Nat)
      (held : v.held id = some (.finishing response)) :
      Moves codec v { v with
        session := v.session.map fun session => session.finished response now
        held := Function.update v.held id none }

end OneUpload

section Kept

theorem received_full {received : List (Option UploadChunkRef)}
    (full : received.any Option.isNone = false) : (received.filterMap id).map some = received := by
  induction received with
  | nil => rfl
  | cons entry received ih =>
    cases entry with
    | none => simp at full
    | some ref =>
      change some ref :: (received.filterMap id).map some = some ref :: received
      rw [ih (by simpa using full)]

variable {codec : Codec} {v w : Upload} {request : UploadSessionStartRequest}
  {session : UploadSessionRecord} {id : Nat}

theorem held_update {f : Nat → Option Held} {other : Nat} {value : Option Held} {held : Held}
    (found : Function.update f id value other = some held) :
    other = id ∧ value = some held ∨ other ≠ id ∧ f other = some held := by
  by_cases same : other = id
  · subst same
    rw [Function.update_self] at found
    exact .inl ⟨rfl, found⟩
  · rw [Function.update_of_ne same] at found
    exact .inr ⟨same, found⟩

theorem UploadOk.idle (ok : UploadOk codec v) (found : v.session = some session)
    (unmarked : session.finalizing = false) (unfinished : session.completed = false) :
    v.created = [] ∧ ∀ id, v.held id = none := by
  constructor
  · rcases ok.created with none | ⟨c, request, _, _, _, rest⟩
    · exact none
    · rcases (rest session found).2 with marked | completed
      · rw [unmarked] at marked; cases marked
      · rw [unfinished] at completed; cases completed
  · intro id
    cases held : v.held id with
    | none => rfl
    | some held' =>
      have marked := (ok.marked id held' session held found).1
      rw [unmarked] at marked
      cases marked

theorem ok_quiet (ok : UploadOk codec v) (started : w.started = v.started)
    (kept : w.session = v.session ∨ w.session = none) (accepted : w.accepted = v.accepted)
    (created : w.created = v.created)
    (held : ∀ id held, w.held id = some held → v.held id = some held) : UploadOk codec w := by
  have row : ∀ session, w.session = some session → v.session = some session := by
    intro session found
    rcases kept with same | gone
    · rw [← same, found]
    · rw [gone] at found; cases found
  constructor
  · intro fresh
    rw [started] at fresh
    obtain ⟨none, no_chunk, no_object, no_holder⟩ := ok.unstarted fresh
    refine ⟨?_, accepted.trans no_chunk, created.trans no_object, fun id => ?_⟩
    · rcases kept with same | gone
      · rw [same, none]
      · exact gone
    · cases found : w.held id with
      | none => rfl
      | some held' =>
        have before := held id held' found
        rw [no_holder id] at before
        cases before
  · intro session found
    rw [started, accepted]
    exact ok.session session (row session found)
  · intro id other first second found found'
    exact ok.one_holder id other first second (held _ _ found) (held _ _ found')
  · intro id held' session found present
    exact ok.marked id held' session (held _ _ found) (row session present)
  · intro id plan found
    rw [started, accepted]
    obtain ⟨request, begun, total, agrees, same⟩ := ok.planned id plan (held _ _ found)
    exact ⟨request, begun, total, agrees, fun session present => same session (row session present)⟩
  · rw [started, accepted, created]
    rcases ok.created with none | ⟨c, request, one, begun, built, rest⟩
    · exact .inl none
    · exact .inr ⟨c, request, one, begun, built, fun session present =>
        rest session (row session present)⟩
  · intro id held' found
    rw [created]
    exact ok.pending id held' (held _ _ found)
  · intro session found done
    rw [created]
    exact ok.completed session (row session found) done

theorem ok_start (ok : UploadOk codec v) (fresh : v.started = none) (new : SessionOf request session)
    (received : Agrees codec request [] session.receivedChunks)
    (unfinished : session.completed = false) :
    UploadOk codec { v with started := some request, session := some session } := by
  obtain ⟨_, no_chunk, no_object, no_holder⟩ := ok.unstarted fresh
  have none_held : ∀ {id held} {P : Prop}, v.held id = some held → P := by
    intro id held P found
    rw [no_holder id] at found
    cases found
  constructor
  · intro none
    cases none
  · intro other found
    cases found
    exact ⟨request, rfl, new, by rw [no_chunk]; exact received⟩
  · exact fun _ _ _ _ found _ => none_held found
  · exact fun _ _ _ found _ => none_held found
  · exact fun _ _ found => none_held found
  · exact .inl no_object
  · exact fun _ _ found => none_held found
  · intro other found done
    cases found
    rw [unfinished] at done
    cases done

theorem Agrees.accept {accepted : List AcceptedChunk} {received : List (Option UploadChunkRef)}
    {a : AcceptedChunk} (agrees : Agrees codec request accepted received)
    (sized : request.expectedSize a.index = some a.payload.length)
    (same : ∀ ref, received[a.index]? = some (some ref) → ref = chunkRefOf codec a.payload) :
    Agrees codec request (accepted ++ [a])
      (received.set a.index (some (chunkRefOf codec a.payload))) := by
  have inside : a.index < received.length := by
    rw [agrees.length]
    by_contra outside
    unfold UploadSessionStartRequest.expectedSize expectedUploadChunkSize at sized
    split at sized
    · cases sized
    · rw [if_pos (by omega)] at sized
      cases sized
  have at_index : ∀ {i : Nat} {ref : UploadChunkRef},
      (received.set a.index (some (chunkRefOf codec a.payload)))[i]? = some (some ref) →
      i = a.index ∧ ref = chunkRefOf codec a.payload ∨ received[i]? = some (some ref) := by
    intro i ref found
    by_cases here : i = a.index
    · subst here
      rw [List.getElem?_set_self inside] at found
      cases found
      exact .inl ⟨rfl, rfl⟩
    · rw [List.getElem?_set_ne (Ne.symm here)] at found
      exact .inr found
  constructor
  · rw [List.length_set, agrees.length]
  · intro i ref found
    rcases at_index found with ⟨rfl, rfl⟩ | before
    · exact sized
    · exact agrees.sized i ref before
  · intro i ref found
    rcases at_index found with ⟨rfl, rfl⟩ | before
    · exact .inl ⟨a, by simp, rfl, rfl⟩
    · rcases agrees.sourced i ref before with ⟨b, member, index, same_ref⟩ | named
      · exact .inl ⟨b, by simp [member], index, same_ref⟩
      · exact .inr named
  · intro b member
    rcases List.mem_append.mp member with earlier | last
    · have before := agrees.kept b earlier
      by_cases here : b.index = a.index
      · rw [here] at before ⊢
        rw [List.getElem?_set_self inside, same _ before]
      · rw [List.getElem?_set_ne (Ne.symm here), before]
    · rw [List.mem_singleton.mp last, List.getElem?_set_self inside]

theorem ok_accept {a : AcceptedChunk} (ok : UploadOk codec v) (now : Nat)
    (found : v.session = some session) (unmarked : session.finalizing = false)
    (unfinished : session.completed = false)
    (sized : ∀ request, v.started = some request →
      request.expectedSize a.index = some a.payload.length)
    (same : ∀ ref, session.receivedChunks[a.index]? = some (some ref) →
      ref = chunkRefOf codec a.payload) :
    UploadOk codec { v with
      session := some (session.withChunk a.index (chunkRefOf codec a.payload) now)
      accepted := v.accepted ++ [a] } := by
  obtain ⟨no_object, no_holder⟩ := ok.idle found unmarked unfinished
  obtain ⟨request, begun, of, agrees⟩ := ok.session session found
  have none_held : ∀ {id held} {P : Prop}, v.held id = some held → P := by
    intro id held P found
    rw [no_holder id] at found
    cases found
  constructor
  · intro fresh
    rw [begun] at fresh
    cases fresh
  · intro other changed
    cases changed
    exact ⟨request, begun, ⟨of.total, of.size, of.count⟩, agrees.accept (sized request begun) same⟩
  · exact fun _ _ _ _ found _ => none_held found
  · exact fun _ _ _ found _ => none_held found
  · exact fun _ _ found => none_held found
  · exact .inl no_object
  · exact fun _ _ found => none_held found
  · intro other changed done
    cases changed
    change session.completed = true at done
    rw [unfinished] at done
    cases done

theorem ok_lock (ok : UploadOk codec v) (id now : Nat) (found : v.session = some session)
    (unmarked : session.finalizing = false)
    (unfinished : session.completed = true → session.completedResult = none)
    (full : session.receivedChunks.any Option.isNone = false) :
    UploadOk codec { v with
      session := some (session.marked now)
      held := Function.update v.held id (some (.storing session.finalizePlan)) } := by
  obtain ⟨request, begun, of, agrees⟩ := ok.session session found
  have incomplete : session.completed = false := by
    cases done : session.completed with
    | false => rfl
    | true =>
      obtain ⟨c, _, recorded⟩ := ok.completed session found done
      rw [unfinished done] at recorded
      cases recorded
  obtain ⟨no_object, no_holder⟩ := ok.idle found unmarked incomplete
  have only : ∀ {other held},
      Function.update v.held id (some (.storing session.finalizePlan)) other = some held →
      other = id ∧ held = .storing session.finalizePlan := by
    intro other held here
    rcases held_update here with ⟨same, stored⟩ | ⟨_, before⟩
    · exact ⟨same, (Option.some.inj stored).symm⟩
    · rw [no_holder other] at before
      cases before
  have refs : session.finalizePlan.chunkRefs.map some = session.receivedChunks := received_full full
  constructor
  · intro fresh
    rw [begun] at fresh
    cases fresh
  · intro other changed
    cases changed
    exact ⟨request, begun, ⟨of.total, of.size, of.count⟩, agrees⟩
  · intro a b _ _ first second
    rw [(only first).1, (only second).1]
  · intro _ _ other _ changed
    cases changed
    exact ⟨rfl, incomplete⟩
  · intro other plan here
    obtain ⟨_, same⟩ := only here
    cases same
    refine ⟨request, begun, of.total, by rw [refs]; exact agrees, fun other changed => ?_⟩
    cases changed
    exact refs.symm
  · exact .inl no_object
  · intro other held here
    obtain ⟨_, rfl⟩ := only here
    exact .inl ⟨no_object, fun _ same => by cases same⟩
  · intro other changed done
    cases changed
    change session.completed = true at done
    rw [incomplete] at done
    cases done

theorem UploadOk.holder_moves (ok : UploadOk codec v) {held moved : Held} {value : Option Held}
    (here : v.held id = some held) {other : Nat}
    (found : Function.update v.held id value other = some moved) : other = id ∧ value = some moved := by
  rcases held_update found with same | ⟨apart, before⟩
  · exact same
  · exact absurd (ok.one_holder other id moved held before here) apart

theorem ok_fail (ok : UploadOk codec v) {plan : FinalizePlan}
    (held : v.held id = some (.storing plan)) :
    UploadOk codec { v with held := Function.update v.held id (some .resetting) } := by
  obtain ⟨request, begun, _⟩ := ok.planned id plan held
  constructor
  · intro fresh
    rw [begun] at fresh
    cases fresh
  · exact ok.session
  · intro a b _ _ first second
    rw [(ok.holder_moves held first).1, (ok.holder_moves held second).1]
  · exact fun _ _ session _ present => ok.marked id _ session held present
  · intro other plan here
    cases (ok.holder_moves held here).2
  · exact ok.created
  · intro other moved here
    cases (ok.holder_moves held here).2
    rcases ok.pending id _ held with ⟨none, _⟩ | ⟨c, _, same⟩
    · exact .inl ⟨none, fun _ same => by cases same⟩
    · cases same
  · exact ok.completed

theorem ok_create (ok : UploadOk codec v) {plan : FinalizePlan} {c : CreatedObject}
    (held : v.held id = some (.storing plan)) (refs : c.chunkRefs = plan.chunkRefs)
    (manifest : c.response.manifestHash =
      hashHex codec (codec.encodeManifest ⟨c.key, plan.totalSizeBytes, c.chunkRefs⟩))
    (reads : ∃ chunks, c.chunks = some chunks ∧ chunks.map (chunkRefOf codec) = c.chunkRefs) :
    UploadOk codec { v with
      created := v.created ++ [c]
      held := Function.update v.held id (some (.finishing c.response)) } := by
  obtain ⟨request, begun, total, agrees, rows⟩ := ok.planned id plan held
  have no_object : v.created = [] := by
    rcases ok.pending id _ held with ⟨none, _⟩ | ⟨_, _, same⟩
    · exact none
    · cases same
  rw [no_object, List.nil_append]
  rw [← refs] at agrees rows
  rw [total] at manifest
  constructor
  · intro fresh
    rw [begun] at fresh
    cases fresh
  · exact ok.session
  · intro a b _ _ first second
    rw [(ok.holder_moves held first).1, (ok.holder_moves held second).1]
  · exact fun _ _ session _ present => ok.marked id _ session held present
  · intro other plan here
    cases (ok.holder_moves held here).2
  · refine .inr ⟨c, request, rfl, begun, ⟨agrees, manifest, reads⟩, fun session present => ?_⟩
    exact ⟨rows session present, .inl (ok.marked id _ session held present).1⟩
  · intro other moved here
    cases (ok.holder_moves held here).2
    exact .inr ⟨c, rfl, rfl⟩
  · intro session present done
    rw [(ok.marked id _ session held present).2] at done
    cases done

theorem ok_release (ok : UploadOk codec v) {held : Held} (here : v.held id = some held)
    {change : UploadSessionRecord → UploadSessionRecord}
    (of : ∀ session request, SessionOf request session → SessionOf request (change session))
    (received : ∀ session, (change session).receivedChunks = session.receivedChunks)
    (still : ∀ session c, v.session = some session → v.created = [c] →
      (change session).finalizing = true ∨ (change session).completed = true)
    (result : ∀ session, v.session = some session → (change session).completed = true →
      ∃ c, v.created = [c] ∧ (change session).completedResult = some c.response) :
    UploadOk codec { v with
      session := v.session.map change
      held := Function.update v.held id none } := by
  have released : ∀ {other moved} {P : Prop}, Function.update v.held id none other = some moved →
      P := by
    intro other moved P found
    cases (ok.holder_moves here found).2
  constructor
  · intro fresh
    rw [(ok.unstarted fresh).2.2.2 id] at here
    cases here
  · intro changed found
    obtain ⟨session, present, rfl⟩ := Option.map_eq_some_iff.mp found
    obtain ⟨request, begun, before, agrees⟩ := ok.session session present
    exact ⟨request, begun, of session request before, by rw [received]; exact agrees⟩
  · exact fun _ _ _ _ found _ => released found
  · exact fun _ _ _ found _ => released found
  · exact fun _ _ found => released found
  · rcases ok.created with none | ⟨c, request, one, begun, built, rest⟩
    · exact .inl none
    · refine .inr ⟨c, request, one, begun, built, fun changed found => ?_⟩
      obtain ⟨session, present, rfl⟩ := Option.map_eq_some_iff.mp found
      exact ⟨by rw [received]; exact (rest session present).1, still session c present one⟩
  · exact fun _ _ found => released found
  · intro changed found done
    obtain ⟨session, present, rfl⟩ := Option.map_eq_some_iff.mp found
    exact result session present done

theorem ok_reset (ok : UploadOk codec v) (now : Nat) (held : v.held id = some .resetting) :
    UploadOk codec { v with
      session := v.session.map fun session => session.unlocked now
      held := Function.update v.held id none } := by
  have no_object : v.created = [] := by
    rcases ok.pending id _ held with ⟨none, _⟩ | ⟨_, _, same⟩
    · exact none
    · cases same
  refine ok_release ok held ?_ ?_ ?_ ?_
  · intro session request before
    unfold UploadSessionRecord.unlocked
    split
    · exact before
    · exact ⟨before.total, before.size, before.count⟩
  · intro session
    unfold UploadSessionRecord.unlocked
    split
    · rfl
    · rfl
  · intro session c _ one
    rw [no_object] at one
    cases one
  · intro session present done
    have unfinished := (ok.marked id _ session held present).2
    unfold UploadSessionRecord.unlocked at done
    rw [if_neg (by simp [unfinished])] at done
    change session.completed = true at done
    rw [unfinished] at done
    cases done

theorem ok_finish (ok : UploadOk codec v) {response : UploadSessionCompleteResponse} (now : Nat)
    (held : v.held id = some (.finishing response)) :
    UploadOk codec { v with
      session := v.session.map fun session => session.finished response now
      held := Function.update v.held id none } := by
  refine ok_release ok held (fun _ _ before => ⟨before.total, before.size, before.count⟩)
    (fun _ => rfl) (fun _ _ _ _ => .inr rfl) fun session present done => ?_
  rcases ok.pending id _ held with ⟨_, other⟩ | ⟨c, one, same⟩
  · exact absurd rfl (other response)
  · cases same
    exact ⟨c, one, rfl⟩

theorem moves_ok (ok : UploadOk codec v) (moves : Moves codec v w) : UploadOk codec w := by
  cases moves with
  | quiet started session accepted created held =>
    exact ok_quiet ok started session accepted created held
  | start fresh new received unfinished => exact ok_start ok fresh new received unfinished
  | accept now found unmarked unfinished sized same =>
    exact ok_accept ok now found unmarked unfinished sized same
  | lock id now found unmarked unfinished full => exact ok_lock ok id now found unmarked unfinished full
  | fail held => exact ok_fail ok held
  | create held refs manifest reads => exact ok_create ok held refs manifest reads
  | reset now held => exact ok_reset ok now held
  | finish now held => exact ok_finish ok now held

end Kept

end BerryKeepUploadSessions
