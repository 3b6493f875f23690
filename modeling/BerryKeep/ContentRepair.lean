import BerryKeep.BundleExchange
import BerryKeep.ContentCleanup
import BerryKeep.ReplicationSubjects

/-!
Repair of retained content. A pass over a repair task gets the manifest, pins
all its chunks in the stored task, fetches the chunks whose file is missing or
has another size, then reads every chunk back outside the store lock, replaces
those with wrong bytes and marks the manifest as owned without another look.
What peers answer and when the pass is cancelled come from outside; a section
under the store lock is one step, and a pass that is cancelled within a section
leaves the writes that the section has made by then.
-/
namespace BerryKeepContentRepair
open FiniteTable TextOperations StatefulProgram BerryKeepContentCodec BerryKeepStoragePool
  BerryKeepVersionGraph BerryKeepNodeStore BerryKeepBundleExchange BerryKeepContentCleanup
  BerryKeepReplicationSubjects

structure RetainedReference where
  key : Option String
  manifestHash : String
  deriving DecidableEq, Repr

/-- A bundle without its manifest, which the store keeps under its hash. -/
structure PendingReplicationImport where
  key : String
  objectId : Option String
  versionId : Option String
  logicalPath : Option String
  parentVersionIds : List String
  state : VersionConsistencyState
  createdAtUnix : Option Nat
  copiedFromObjectId : Option String
  copiedFromVersionId : Option String
  copiedFromPath : Option String
  selectedIsPreferredHead : Bool

def PendingReplicationImport.restoreBundle (pending : PendingReplicationImport) (codec : Codec)
    (manifest_hash : String) (manifest_bytes : Bytes) : Except StoreError ReplicationExportBundle :=
  match validateManifest codec manifest_hash manifest_bytes with
  | .error error => .error error
  | .ok _ => .ok {
      key := pending.key
      objectId := pending.objectId
      versionId := pending.versionId
      logicalPath := pending.logicalPath
      parentVersionIds := pending.parentVersionIds
      state := pending.state
      createdAtUnix := pending.createdAtUnix
      copiedFromObjectId := pending.copiedFromObjectId
      copiedFromVersionId := pending.copiedFromVersionId
      copiedFromPath := pending.copiedFromPath
      selectedIsPreferredHead := pending.selectedIsPreferredHead
      manifestHash := manifest_hash
      manifestBytes := manifest_bytes }

structure RepairTask where
  reference : RetainedReference
  repairChunks : Bool
  chunks : List ChunkRef
  pendingReplicationImport : Option PendingReplicationImport

def RepairTask.hash (task : RepairTask) : String := task.reference.manifestHash

def RepairTask.pin (task : RepairTask) : ContentRepairTask := ⟨task.hash, task.chunks⟩

section StoreMethods

def persistContentRepairTask (task : RepairTask) : StoreM Unit :=
  modify fun s => { s with
    repairTasks := (s.repairTasks.filter fun row => row.manifestHash ≠ task.hash) ++ [task.pin] }

def deleteContentRepairTask (hash : String) : StoreM Unit :=
  modify fun s => { s with
    repairTasks := s.repairTasks.filter fun row => row.manifestHash ≠ hash }

def readManifestBytes (st : ContentStore) (hash : String) : Except StoreError (Option Bytes) :=
  match st.pool.contentPath .manifest hash with
  | .error error => .error error
  | .ok path => .ok ((st.fileAt path).map fun file => file.bytes)

def readValidManifest (codec : Codec) (st : ContentStore) (hash : String) :
    Except StoreError (Option (Bytes × ObjectManifest)) :=
  match readManifestBytes st hash with
  | .error error => .error error
  | .ok none => .ok none
  | .ok (some bytes) =>
    match validateManifest codec hash bytes with
    | .error error => .error error
    | .ok manifest => .ok (some (bytes, manifest))

def chunkPathExists (st : ContentStore) (hash : String) : Except StoreError Bool :=
  match st.pool.contentPath .chunk hash with
  | .error error => .error error
  | .ok path => .ok (st.fileAt path).isSome

def chunkPathMatchesSize (st : ContentStore) (hash : String) (size : Nat) :
    Except StoreError Bool :=
  match st.pool.contentPath .chunk hash with
  | .error error => .error error
  | .ok path => .ok ((st.fileAt path).any fun file => file.bytes.length == size)

def chunkVerified (codec : Codec) (st : ContentStore) (chunk : ChunkRef) : Except StoreError Bool :=
  match st.pool.contentPath .chunk chunk.hash with
  | .error error => .error error
  | .ok path => .ok ((st.fileAt path).any fun file =>
      file.bytes.length == chunk.sizeBytes && hashHex codec file.bytes == chunk.hash)

def installRecoveryManifest (codec : Codec) (hash : String) (payload : Bytes) : StoreM Unit := do
  let _ ← lift (validateManifest codec hash payload)
  let _ ← persistStorageContent codec .manifest hash payload

def ingestVerifiedChunk (codec : Codec) (hash : String) (payload : Bytes) : StoreM Bool := do
  let outcome ← persistStorageContent codec .chunk hash payload
  return outcome.stored

def noteCachedChunkFetch (hash : String) : StoreM Unit :=
  modify fun s => { s with cachedChunks := s.cachedChunks.insert hash }

-- Permanent protection is established before the temporary pin goes.
def finishVerifiedContentRepair (codec : Codec) (task : RepairTask) : StoreM Unit := do
  onlyIf task.repairChunks (markManifestLocallyOwned codec task.hash)
  deleteContentRepairTask task.hash

end StoreMethods

section Chunks

inductive ExistingChunkCheck where
  | verifyContent
  | matchMetadata
  | replace
  deriving DecidableEq, Repr

def keepsExisting (codec : Codec) (st : ContentStore) (chunk : ChunkRef) :
    ExistingChunkCheck → Bool
  | .verifyContent => (chunkVerified codec st chunk).toOption = some true
  | .matchMetadata => (chunkPathMatchesSize st chunk.hash chunk.sizeBytes).toOption = some true
  | .replace => false

inductive RecoveryError where
  | noContentSource (message : String)
  | failed (error : StoreError)
  deriving DecidableEq, Repr

inductive ChunkStage where
  | checking
  | asking (sources : List String) (last_error : String)
  | installing (source : String) (bytes : Bytes)

structure ChunkJob where
  chunk : ChunkRef
  stage : ChunkStage

def installChunk (codec : Codec) (chunk : ChunkRef) (cache : Bool) (bytes : Bytes) : StoreM Unit := do
  let _ ← ingestVerifiedChunk codec chunk.hash bytes
  onlyIf cache (noteCachedChunkFetch chunk.hash)

/-- One step of `recover_chunk`: the look at the file, an answer, or the installation. -/
def recoverChunk (codec : Codec) (chunk : ChunkRef) (sources : List String) (cache : Bool)
    (existing_chunk_check : ExistingChunkCheck) (reply : Except String Bytes) (s : Store) :
    ChunkStage → (ChunkStage ⊕ Except RecoveryError Bool) × Store
  | .checking =>
    if keepsExisting codec s.content chunk existing_chunk_check then (.inr (.ok false), s)
    else (.inl (.asking sources "no online content source"), s)
  | .asking [] last_error =>
    (.inr (.error (.noContentSource ("chunk " ++ chunk.hash ++ " unresolved: " ++ last_error))), s)
  | .asking (source :: rest) _ =>
    match reply with
    | .ok bytes =>
      if bytes.length = chunk.sizeBytes ∧ hashHex codec bytes = chunk.hash then
        (.inl (.installing source bytes), s)
      else (.inl (.asking rest ("source " ++ source ++ " returned invalid size or hash")), s)
    | .error error => (.inl (.asking rest error), s)
  | .installing _ bytes =>
    match (installChunk codec chunk cache bytes).run s with
    | (.ok (), t) => (.inr (.ok true), t)
    | (.error error, t) => (.inr (.error (.failed error)), t)

def maxRecoveryErrors : Nat := 16

structure ChunkRecoveryResult where
  recovered : Nat
  remaining : List String
  errors : List RecoveryError
  hasLocalError : Bool

def ChunkRecoveryResult.empty : ChunkRecoveryResult := ⟨0, [], [], false⟩

def ChunkRecoveryResult.note (result : ChunkRecoveryResult) (hash : String) :
    Except RecoveryError Bool → ChunkRecoveryResult
  | .ok true => { result with recovered := result.recovered + 1 }
  | .ok false => result
  | .error error =>
    { result with
      remaining := result.remaining ++ [hash]
      errors := if result.errors.length < maxRecoveryErrors then result.errors ++ [error]
        else result.errors
      hasLocalError := result.hasLocalError || match error with
        | .noContentSource _ => false
        | .failed _ => true }

/-- One job for each hash; of several entries the last one counts. -/
def uniqueJobs (chunks : List ChunkRef) : Table String ChunkJob :=
  chunks.foldl (fun jobs chunk => jobs.put chunk.hash ⟨chunk, .checking⟩) Table.empty

end Chunks

section Passes

inductive PassError where
  | stopped (error : RecoveryError)
  | stillMissing (recovered missing : Nat) (errors : List RecoveryError) (local_error : Bool)

/-- Where a pass waits. Jobs that have ended are taken out of the table of a transfer. -/
inductive Phase where
  | idle
  | checkManifest
  | askManifest (sources all_sources : List String)
  | askExport (sources : List String)
  | prepare (bytes : Bytes) (rest prepared : List ChunkRef)
  | persist (bytes : Bytes)
  | transfer (existing_chunk_check : ExistingChunkCheck) (sources : List String)
      (jobs : Table String ChunkJob) (result : ChunkRecoveryResult) (recovered : Nat)
  | readManifest (recovered : Nat)
  | verify (recovered : Nat) (rest invalid : List ChunkRef)
  | finish (recovered : Nat)
  | commit (recovered : Nat) (bundle : ReplicationExportBundle)
  | ended (outcome : Except PassError Nat)

structure System where
  store : Store
  task : RepairTask
  phase : Phase

inductive Event where
  /-- The worker takes the task up, with the work set it was stored with. -/
  | take (chunks : List ChunkRef)
  | proceed (nodes : List String) (reply : Except String Bytes)
  | chunk (hash : String) (reply : Except String Bytes)
  /-- A pass is dropped, within the section that it was in after some of its writes. -/
  | cancel (hash : String) (writes : Nat)
  /-- The worker stores the task again after a pass that failed. -/
  | postpone
  | cleanup (retention_secs : Nat) (dry_run : Bool)

def System.fail (sys : System) (error : RecoveryError) : System :=
  { sys with phase := .ended (.error (.stopped error)) }

def noSource (hash : String) : RecoveryError :=
  .noContentSource ("no source supplied the expected manifest " ++ hash)

def System.withManifest (sys : System) (codec : Codec) (bytes : Bytes) : System :=
  match validateManifest codec sys.task.hash bytes with
  | .error error => sys.fail (.failed error)
  | .ok manifest => { sys with phase := .prepare bytes manifest.chunks [] }

def System.prepareChunk (sys : System) (bytes : Bytes) (chunk : ChunkRef)
    (rest prepared : List ChunkRef) : System :=
  if sys.task.repairChunks then { sys with phase := .prepare bytes rest (prepared ++ [chunk]) }
  else match chunkPathExists sys.store.content chunk.hash with
    | .error error => sys.fail (.failed error)
    | .ok true => { sys with phase := .prepare bytes rest (prepared ++ [chunk]) }
    | .ok false => { sys with phase := .prepare bytes rest prepared }

/-- The chunks are pinned and the manifest is installed under one lock. -/
def persistPrepared (codec : Codec) (task : RepairTask) (bytes : Bytes) : StoreM Unit := do
  persistContentRepairTask task
  installRecoveryManifest codec task.hash bytes

def System.startTransfer (sys : System) (existing_chunk_check : ExistingChunkCheck)
    (nodes : List String) (chunks : List ChunkRef) (recovered : Nat) : System :=
  { sys with phase :=
      .transfer existing_chunk_check nodes (uniqueJobs chunks) ChunkRecoveryResult.empty recovered }

/-- All jobs have ended. The first transfer is verified, a replacement is not. -/
def System.endTransfer (sys : System) (existing_chunk_check : ExistingChunkCheck)
    (result : ChunkRecoveryResult) (recovered : Nat) : System :=
  if result.remaining ≠ [] then
    { sys with phase := .ended (.error (.stillMissing result.recovered result.remaining.length
        result.errors result.hasLocalError)) }
  else if existing_chunk_check = .replace then
    { sys with phase := .finish (recovered + result.recovered) }
  else { sys with phase := .readManifest result.recovered }

def System.endPass (sys : System) (recovered : Nat) (section_run : Except StoreError Unit × Store) :
    System :=
  { sys with
    store := section_run.2
    phase := .ended (match section_run.1 with
      | .ok () => .ok recovered
      | .error error => .error (.stopped (.failed error))) }

def commitPendingImport (codec : Codec) (task : RepairTask) (bundle : ReplicationExportBundle) :
    StoreM Unit := do
  let _ ← importReplicationBundle codec bundle
  finishVerifiedContentRepair codec task

variable (codec : Codec) (decodeBundle : Bytes → Option ReplicationExportBundle)

def System.proceed (sys : System) (nodes : List String) (reply : Except String Bytes) : System :=
  match sys.phase with
  | .idle | .ended _ => sys
  | .checkManifest =>
    match readValidManifest codec sys.store.content sys.task.hash with
    | .ok (some (bytes, _)) => sys.withManifest codec bytes
    | _ => { sys with phase := .askManifest nodes nodes }
  | .askManifest (_ :: rest) all_sources =>
    match reply with
    | .ok bytes =>
      if (validateManifest codec sys.task.hash bytes).toOption.isSome then sys.withManifest codec bytes
      else { sys with phase := .askManifest rest all_sources }
    | .error _ => { sys with phase := .askManifest rest all_sources }
  | .askManifest [] all_sources =>
    if sys.task.reference.key.isSome then { sys with phase := .askExport all_sources }
    else sys.fail (noSource sys.task.hash)
  | .askExport (_ :: rest) =>
    match reply.toOption.bind decodeBundle with
    | some bundle =>
      if bundle.manifestHash = sys.task.hash ∧
          (validateManifest codec sys.task.hash bundle.manifestBytes).toOption.isSome then
        sys.withManifest codec bundle.manifestBytes
      else { sys with phase := .askExport rest }
    | none => { sys with phase := .askExport rest }
  | .askExport [] => sys.fail (noSource sys.task.hash)
  | .prepare bytes (chunk :: rest) prepared => sys.prepareChunk bytes chunk rest prepared
  | .prepare bytes [] prepared =>
    { sys with task := { sys.task with chunks := prepared }, phase := .persist bytes }
  | .persist bytes =>
    match (persistPrepared codec sys.task bytes).run sys.store with
    | (.ok (), t) => { sys with store := t }.startTransfer .matchMetadata nodes sys.task.chunks 0
    | (.error error, t) => { sys with store := t }.fail (.failed error)
  | .transfer existing_chunk_check _ jobs result recovered =>
    if jobs.keys = [] then sys.endTransfer existing_chunk_check result recovered else sys
  | .readManifest recovered =>
    match readValidManifest codec sys.store.content sys.task.hash with
    | .error error => sys.fail (.failed error)
    | .ok none => sys.fail (.failed (.bail "repaired manifest missing"))
    | .ok (some (_, manifest)) =>
      let chunks := if sys.task.repairChunks then manifest.chunks else sys.task.chunks
      { sys with phase := .verify recovered chunks [] }
  | .verify recovered (chunk :: rest) invalid =>
    match chunkVerified codec sys.store.content chunk with
    | .error error => sys.fail (.failed error)
    | .ok true => { sys with phase := .verify recovered rest invalid }
    | .ok false => { sys with phase := .verify recovered rest (invalid ++ [chunk]) }
  | .verify recovered [] invalid =>
    if invalid = [] then { sys with phase := .finish recovered }
    else sys.startTransfer .replace nodes invalid recovered
  | .finish recovered =>
    match sys.task.pendingReplicationImport with
    | none =>
      sys.endPass recovered ((finishVerifiedContentRepair codec sys.task).run sys.store)
    | some pending =>
      match readValidManifest codec sys.store.content sys.task.hash with
      | .error error => sys.fail (.failed error)
      | .ok none => sys.fail (.failed
          (.bail ("pending replication import manifest is missing: " ++ sys.task.hash)))
      | .ok (some (bytes, _)) =>
        match pending.restoreBundle codec sys.task.hash bytes with
        | .error error => sys.fail (.failed error)
        | .ok bundle => { sys with phase := .commit recovered bundle }
  | .commit recovered bundle =>
    sys.endPass recovered ((commitPendingImport codec sys.task bundle).run sys.store)

def System.stepChunk (sys : System) (hash : String) (reply : Except String Bytes) : System :=
  match sys.phase with
  | .transfer existing_chunk_check sources jobs result recovered =>
    match jobs.get hash with
    | none => sys
    | some job =>
      match recoverChunk codec job.chunk sources (!sys.task.repairChunks) existing_chunk_check reply
          sys.store job.stage with
      | (.inl stage, t) =>
        { sys with
          store := t
          phase := .transfer existing_chunk_check sources (jobs.put hash ⟨job.chunk, stage⟩) result
            recovered }
      | (.inr outcome, t) =>
        { sys with
          store := t
          phase := .transfer existing_chunk_check sources (jobs.del hash) (result.note hash outcome)
            recovered }
  | _ => sys

/-- The writes of `persist_storage_content` up to one of its awaits. -/
def persistTorn (kind : StorageContentKind) (hash : String) (payload : Bytes) (writes : Nat) :
    StoreM Unit := do
  let st := (← get).content
  let existing_path ← lift (st.pool.contentPath kind hash)
  if (st.fileAt existing_path).any fun file => hashHex codec file.bytes == hash then return ()
  else
    let free ← availableSpace
    let target ← lift (selectWritePath codec st.pool (st.freeSpace free) hash payload.length)
    let pending : StorageLocationRecord := ⟨kind, hash, target.config.id, payload.length, .pending⟩
    onlyIf (1 ≤ writes) (onContent fun st => st.persistStorageLocation pending)
    let target_path ← lift (contentPathInRuntime target.config.id kind hash)
    let now ← fileTime
    onlyIf (2 ≤ writes) (onContent fun st => st.writeFile target_path ⟨payload, now⟩)
    onlyIf (3 ≤ writes)
      (onContent fun st => st.persistStorageLocation { pending with state := .available })

/-- The writes of `finish_verified_content_repair` up to one of its awaits; the task is
    deleted last. -/
def finishTorn (task : RepairTask) (writes : Nat) : StoreM Unit :=
  match writes with
  | 0 => pure ()
  | writes + 1 => onlyIf (task.repairChunks && task.hash ≠ tombstoneManifestHash) do
    modify fun s => { s with ownedManifests := s.ownedManifests.insert task.hash }
    let manifest ← lift (loadManifestByHash codec (← get).content task.hash)
    forEach ((manifest.elim [] fun manifest => manifest.chunks).take writes) fun chunk =>
      modify fun s => { s with cachedChunks := s.cachedChunks.erase chunk.hash }

def System.torn (sys : System) (hash : String) (writes : Nat) : StoreM Unit :=
  match sys.phase with
  | .persist bytes =>
    match writes with
    | 0 => pure ()
    | writes + 1 => do
      persistContentRepairTask sys.task
      persistTorn codec .manifest sys.task.hash bytes writes
  | .transfer _ _ jobs _ _ =>
    match jobs.get hash with
    | some ⟨chunk, .installing _ bytes⟩ => persistTorn codec .chunk chunk.hash bytes writes
    | _ => pure ()
  | .finish _ =>
    if sys.task.pendingReplicationImport.isSome then pure () else finishTorn codec sys.task writes
  | .commit _ bundle =>
    match writes with
    | 0 => pure ()
    | writes + 1 => do
      let _ ← importReplicationBundle codec bundle
      finishTorn codec sys.task writes
  | _ => pure ()

def Phase.running : Phase → Bool
  | .idle | .ended _ => false
  | _ => true

def exec (event : Event) (sys : System) : System :=
  match event with
  | .take chunks =>
    if sys.phase.running then sys
    else { sys with task := { sys.task with chunks := chunks }, phase := .checkManifest }
  | .proceed nodes reply => sys.proceed codec decodeBundle nodes reply
  | .chunk hash reply => sys.stepChunk codec hash reply
  | .cancel hash writes =>
    { sys with store := ((sys.torn codec hash writes).run sys.store).2, phase := .idle }
  | .postpone =>
    if sys.phase.running then sys
    else { sys with store := ((persistContentRepairTask sys.task).run sys.store).2 }
  | .cleanup retention_secs dry_run =>
    { sys with store := ((cleanupUnreferenced codec retention_secs dry_run).run sys.store).2 }

end Passes

end BerryKeepContentRepair
