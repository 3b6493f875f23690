import BerryKeep.LineageResolution
import BerryKeep.StoreOperations

/-!
Rename, copy and restore. Rename and copy move a media path first and then let
its sidecar follow, which may itself have a sidecar; `withSidecar` is that
recursion. Restores write a copied version to the target path. Rename alone
binds its target directly, all others go through `publish`.
-/
namespace BerryKeepPathMutations
open FiniteTable TextOperations StatefulProgram BerryKeepContentCodec BerryKeepStoragePool
  BerryKeepCatalog BerryKeepVersionGraph BerryKeepCurrentNamespace BerryKeepNodeStore
  BerryKeepLineageResolution BerryKeepStoreOperations

inductive PathMutationResult where
  | applied
  | sourceMissing
  | targetExists
  deriving DecidableEq, Repr

def PathMutationResult.debug : PathMutationResult → String
  | .applied => "Applied"
  | .sourceMissing => "SourceMissing"
  | .targetExists => "TargetExists"

inductive SidecarPathMutation where
  | absent
  | ready ( source target : String)
  | clearTarget (target : String)
  | targetExists
  deriving DecidableEq, Repr

def sidecarKeyForMedia (key : String) : String := key ++ ".xmp"

def prepareSidecarPathMutation (cur : Bindings) (from_path to_path : String) (overwrite : Bool) :
    SidecarPathMutation :=
  let source := sidecarKeyForMedia from_path
  let target := sidecarKeyForMedia to_path
  match (cur.get source).isSome, (cur.get target).isSome, overwrite with
  | false, true, true => .clearTarget target
  | false, _, _ => .absent
  | true, true, false => .targetExists
  | true, _, _ => .ready source target

/-- An error is replaced by its context; a panic is not an error. -/
def withContext {α : Type} (message : String) (m : StoreM α) : StoreM α :=
  ⟨fun s => match m.run s with
    | (.error .panicked, t) => (.error .panicked, t)
    | (.error .outOfFuel, t) => (.error .outOfFuel, t)
    | (.error _, t) => (.error (.bail message), t)
    | (.ok a, t) => (.ok a, t)⟩

/-- A media path is moved, then its sidecar in the same way, or a sidecar left over at
    the target is deleted. -/
def withSidecar (verb done gerund : String)
    (media : String → String → StoreM (PathMutationResult × SidecarPathMutation)) :
    Nat → String → String → StoreM PathMutationResult
  | 0, _, _ => throw .outOfFuel
  | fuel + 1, from_path, to_path => do
    let (result, sidecar_mutation) ← media from_path to_path
    if result ≠ .applied then return result
    else match sidecar_mutation with
      | .ready source target =>
        let result ← withSidecar verb done gerund media fuel source target
        refuseIf (result ≠ .applied) (.bail ("sidecar " ++ verb ++ " " ++ source ++ " -> " ++ target ++
          " did not apply after its media " ++ done ++ ": " ++ result.debug))
        return .applied
      | .clearTarget target =>
        let _ ← withContext ("failed clearing the stale destination sidecar " ++ target ++ " after " ++
          gerund ++ " " ++ from_path ++ " -> " ++ to_path)
          (tombstoneObjectSingle target PutOptions.default)
        return .applied
      | _ => return .applied

def liveHead (c : Catalog) (object_id : String) : Option (FileVersionIndex × FileVersionRecord) := do
  let index ← c.loadVersionIndex object_id
  let head_version_id ← index.preferredHeadVersionId
  let head ← index.versions.get head_version_id
  if head.manifestHash = tombstoneManifestHash then none else some (index, head)

def renamedRecord (object_id to_path manifest_hash : String) (nanos created_at_unix : Nat)
    (short : String) (source_head : FileVersionRecord) : FileVersionRecord :=
  ⟨"ren-" ++ toString nanos ++ "-" ++ short, object_id, manifest_hash, some to_path,
    [source_head.versionId], source_head.state, created_at_unix, none, none, none⟩

def renameTombstoneIndex (tombstone_object_id : String) (nanos created_at_unix : Nat)
    (object_id from_path : String) (source_head : FileVersionRecord) : FileVersionIndex :=
  let version_id := "rename-tomb-" ++ toString nanos
  let record : FileVersionRecord := ⟨version_id, tombstone_object_id, tombstoneManifestHash,
    some from_path, [source_head.versionId], source_head.state, created_at_unix, some object_id,
    some source_head.versionId, some from_path⟩
  (((emptyVersionIndex tombstone_object_id).insertRecord record).withHeads [version_id]).choosing

-- The target is bound to the renamed manifest itself, not to the preferred head.
def applyRename (r : Readings) (from_path to_path object_id : String) (index : FileVersionIndex)
    (renamed_manifest_hash tombstone_object_id : String) (tombstone_index : FileVersionIndex) :
    CatalogM Unit := do
  persistVersionIndexByObjectId object_id index
  removeCurrentObject from_path
  upsertCurrentObject to_path ⟨renamed_manifest_hash, object_id⟩
  persistVersionIndexByObjectId tombstone_object_id tombstone_index
  let _ ← persistCurrentStateWithSnapshotBatch {from_path, to_path} true r.recordAt r.uuid

def moveObject (codec : Codec) (from_path to_path object_id : String) (index : FileVersionIndex)
    (source_head : FileVersionRecord) : StoreM Unit := do
  let rotate_at ← unixTs
  onCatalog (maybeRotateSnapshotBatch {from_path, to_path} rotate_at)
  let renamed_manifest_hash ← cloneManifestForKey codec source_head.manifestHash to_path
  let nanos ← unixTsNanos
  let short ← lift (shortHash renamed_manifest_hash)
  let created_at_unix ← unixTs
  let renamed := renamedRecord object_id to_path renamed_manifest_hash nanos created_at_unix short
    source_head
  let tombstone_object_id ← generateObjectId
  let tombstone_nanos ← unixTsNanos
  let tombstone_created_at_unix ← unixTs
  let tombstone_index := renameTombstoneIndex tombstone_object_id tombstone_nanos
    tombstone_created_at_unix object_id from_path source_head
  let r ← readings
  onCatalog (applyRename r from_path to_path object_id (index.extended renamed)
    renamed_manifest_hash tombstone_object_id tombstone_index)

def renameMedia (codec : Codec) (overwrite : Bool) (from_path to_path : String) :
    StoreM (PathMutationResult × SidecarPathMutation) := do
  let c := (← get).catalog
  if from_path = to_path then return (.applied, .absent)
  else match c.current.get from_path with
    | none => return (.sourceMissing, .absent)
    | some source_entry =>
      -- An overwrite is refused as well.
      if (c.current.get to_path).isSome then return (.targetExists, .absent)
      else
        let sidecar_mutation := prepareSidecarPathMutation c.current from_path to_path overwrite
        if sidecar_mutation = .targetExists then return (.targetExists, .absent)
        else match liveHead c source_entry.objectId with
          | none => return (.sourceMissing, .absent)
          | some (index, source_head) =>
            moveObject codec from_path to_path source_entry.objectId index source_head
            return (.applied, sidecar_mutation)

-- The source recurses without a bound. Every level is a sidecar that was bound before, and the fuel
-- covers these, unless the target is named after the path's own sidecars: a move or copy of a to
-- a.xmp.xmp with a.xmp bound comes to its own target as the sidecar of a.xmp and never ends in the
-- source. Here that is `outOfFuel`.
def renameObjectPath (codec : Codec) (from_path to_path : String) (overwrite : Bool) :
    StoreM PathMutationResult := do
  let fuel := (← get).catalog.current.size + 1
  withSidecar "rename" "moved" "renaming" (renameMedia codec overwrite) fuel from_path to_path

def persistCopiedVersionToTarget (source_path target_path manifest_hash : String)
    (copied_from_object_id copied_from_version_id : Option String)
    (state : VersionConsistencyState) ( version_prefix : String) (create_snapshot : Bool) :
    StoreM PathMutationResult := do
  let target_object_id ← objectIdOrGenerate target_path
  let target_index := (← get).catalog.indexOrEmpty target_object_id
  let nanos ← unixTsNanos
  let short ← lift (shortHash manifest_hash)
  let created_at_unix ← unixTs
  let record : FileVersionRecord := ⟨ version_prefix ++ "-" ++ toString nanos ++ "-" ++ short,
    target_object_id, manifest_hash, some target_path, target_index.preferredHeadVersionId.toList,
    state, created_at_unix, copied_from_object_id, copied_from_version_id, some source_path⟩
  -- The callers have rotated the batch for the target path.
  let _ ← publish target_path target_object_id (target_index.insertRecord record).recomputed true
    false create_snapshot
  return .applied

def copyMedia (codec : Codec) (overwrite : Bool) (from_path to_path : String) :
    StoreM (PathMutationResult × SidecarPathMutation) := do
  let c := (← get).catalog
  if from_path = to_path then return (.applied, .absent)
  else match objectIdForKey c.current from_path with
    | none => return (.sourceMissing, .absent)
    | some source_object_id =>
      if (c.current.get to_path).isSome ∧ overwrite = false then return (.targetExists, .absent)
      else
        let sidecar_mutation := prepareSidecarPathMutation c.current from_path to_path overwrite
        if sidecar_mutation = .targetExists then return (.targetExists, .absent)
        else match liveHead c source_object_id with
          | none => return (.sourceMissing, .absent)
          | some (_, source_head) =>
            let rotate_at ← unixTs
            onCatalog (maybeRotateSnapshotBatch {to_path} rotate_at)
            let copied_manifest_hash ← cloneManifestForKey codec source_head.manifestHash to_path
            let result ← persistCopiedVersionToTarget from_path to_path copied_manifest_hash
              (some source_object_id) (some source_head.versionId) source_head.state "copy" true
            return (result, sidecar_mutation)

def copyObjectPath (codec : Codec) (from_path to_path : String) (overwrite : Bool) :
    StoreM PathMutationResult := do
  let fuel := (← get).catalog.current.size + 1
  withSidecar "copy" "copied" "copying" (copyMedia codec overwrite) fuel from_path to_path

structure SnapshotRestoreSource where
  manifestHash : String
  objectId : Option String
  versionId : Option String
  state : VersionConsistencyState
  deriving DecidableEq, Repr

def restoreObjectPathFromSource (codec : Codec) (source : SnapshotRestoreSource)
    (source_path target_path : String) (create_snapshot overwrite : Bool) :
    StoreM PathMutationResult := do
  let c := (← get).catalog
  if source_path ≠ target_path ∧ (c.current.get target_path).isSome ∧ overwrite = false then
    return .targetExists
  else
    let rotate_at ← unixTs
    onlyIf create_snapshot (onCatalog (maybeRotateSnapshotBatch {target_path} rotate_at))
    let restored_manifest_hash ← cloneManifestForKey codec source.manifestHash target_path
    persistCopiedVersionToTarget source_path target_path restored_manifest_hash source.objectId
      source.versionId source.state "restore" create_snapshot

def latestVersionWithManifest (index : FileVersionIndex) (manifest_hash : String)
    (max_created_at_unix : Option Nat) : Option FileVersionRecord :=
  ((index.versions.values.filter fun record => record.manifestHash = manifest_hash ∧
    ∀ limit ∈ max_created_at_unix, record.createdAtUnix ≤ limit).insertionSort newerFirst).head?

def snapshotRestoreSource (c : Catalog) (snapshot : SnapshotManifest) (source_path : String) :
    Option SnapshotRestoreSource :=
  (snapshot.objects.get source_path).map fun manifest_hash =>
    match snapshot.objectIds.get source_path with
    | none => ⟨manifest_hash, none, none, .confirmed⟩
    | some source_object_id =>
      match c.loadVersionIndex source_object_id with
      | none => ⟨manifest_hash, some source_object_id, none, .confirmed⟩
      | some index =>
        let matching_record :=
          (latestVersionWithManifest index manifest_hash (some snapshot.createdAtUnix)).orElse
            fun _ => latestVersionWithManifest index manifest_hash none
        ⟨manifest_hash, some source_object_id, matching_record.map fun record => record.versionId,
          (matching_record.map fun record => record.state).getD .confirmed⟩

def versionRestoreSource (codec : Codec) (s : Store) (source_path version_id : String) :
    Option SnapshotRestoreSource := do
  let source_object_id ← resolveObjectIdForKeyVersion codec s source_path version_id
  let index ← s.catalog.loadVersionIndex source_object_id
  let record ← index.versions.get version_id
  if record.manifestHash = tombstoneManifestHash then none
  else some ⟨record.manifestHash, some source_object_id, some record.versionId, record.state⟩

def restoreVersionPath (codec : Codec) (source_path version_id target_path : String)
    (overwrite : Bool) : StoreM PathMutationResult := do
  match versionRestoreSource codec (← get) source_path version_id with
  | none => return .sourceMissing
  | some source =>
    restoreObjectPathFromSource codec source source_path target_path true overwrite

def restoreSnapshotObjectPathInner (codec : Codec) (snapshot : SnapshotManifest)
    (source_path target_path : String) (create_snapshot overwrite : Bool) :
    StoreM PathMutationResult := do
  match snapshotRestoreSource (← get).catalog snapshot source_path with
  | none => return .sourceMissing
  | some source =>
    restoreObjectPathFromSource codec source source_path target_path create_snapshot overwrite

structure RestoreRequest where
  sourcePath : String
  versionId : String
  sourceObjectId : String
  targetPath : String
  deriving DecidableEq, Repr

def changedPathsAfterBindings (paths : Finset String) (before after : Bindings) : Finset String :=
  paths.filter fun path => after.get path ≠ before.get path

def recordChangedPaths (paths : Finset String) (before : Bindings) : StoreM Unit := do
  let r ← readings
  let changed_paths := changedPathsAfterBindings paths before (← get).catalog.current
  let _ ← onCatalog (persistCurrentStateWithSnapshotBatch changed_paths true r.recordAt r.uuid)

/-- The result as a value; a panic is not a result. -/
def caught {α : Type} (m : StoreM α) : StoreM (Except StoreError α) :=
  ⟨fun s => match m.run s with
    | (.error .panicked, t) => (.error .panicked, t)
    | (result, t) => (.ok result, t)⟩

def restoreResolved (codec : Codec) (results : List (Except StoreError PathMutationResult))
    (item : RestoreRequest × Option SnapshotRestoreSource) :
    StoreM (List (Except StoreError PathMutationResult)) := do
  let (request, source) := item
  if ((← get).catalog.current.get request.targetPath).isSome then
    return results ++ [.ok .targetExists]
  else match source with
    | none => return results ++ [.ok .sourceMissing]
    | some source =>
      let result ← caught (restoreObjectPathFromSource codec source request.sourcePath
        request.targetPath false false)
      return results ++ [result]

def restoreResolvedVersionPathsBatch (codec : Codec) (restore_requests : List RestoreRequest)
    (sources : List (Option SnapshotRestoreSource)) :
    StoreM (List (Except StoreError PathMutationResult)) := do
  refuseIf (restore_requests.length ≠ sources.length)
    (.bail ("historical restore request/source count mismatch: " ++
      toString restore_requests.length ++ " requests, " ++ toString sources.length ++ " sources"))
  let touched_paths := (restore_requests.map fun request => request.targetPath).toFinset
  let before := (← get).catalog.current
  let rotate_at ← unixTs
  onCatalog (maybeRotateSnapshotBatch touched_paths rotate_at)
  let results ← foldEach (restore_requests.zip sources) [] (restoreResolved codec)
  recordChangedPaths touched_paths before
  return results

structure SnapshotRestoreReport where
  snapshotId : String
  sourcePath : String
  targetPath : String
  isRecursive : Bool
  restoredCount : Nat
  deriving DecidableEq, Repr

inductive SnapshotRestoreMutationResult where
  | applied (report : SnapshotRestoreReport)
  | sourceMissing
  | targetExists (path : String)
  deriving DecidableEq, Repr

def loadSnapshotManifest (c : Catalog) (snapshot_id : String) : Option SnapshotManifest :=
  (c.snapshots.get snapshot_id).map normalizeSnapshotManifestObjectIds

def startsWith (text beginning : String) : Bool := beginning.toList.isPrefixOf text.toList

def targetCandidate (from_path to_path source_candidate : String) : String :=
  to_path ++ String.ofList (source_candidate.toList.drop from_path.toList.length)

/-- The loop of a recursive restore. A path that is not restored ends it. -/
def restoreEach (codec : Codec) (snapshot : SnapshotManifest) (from_path to_path : String)
    (overwrite : Bool) : List String → StoreM (Option SnapshotRestoreMutationResult)
  | [] => return none
  | source_candidate :: rest => do
    let target := targetCandidate from_path to_path source_candidate
    match ← restoreSnapshotObjectPathInner codec snapshot source_candidate target false overwrite with
    | .applied => restoreEach codec snapshot from_path to_path overwrite rest
    | .sourceMissing => return some .sourceMissing
    | .targetExists => return some (.targetExists target)

def restoreSnapshotTree (codec : Codec) (snapshot : SnapshotManifest) (snapshot_id : String)
    (from_path to_path : String) (overwrite : Bool) : StoreM SnapshotRestoreMutationResult := do
  let before := (← get).catalog.current
  let source_paths := (snapshot.objects.keys.filter fun candidate =>
    startsWith candidate from_path).insertionSort (· ≤ ·)
  if source_paths = [] then return .sourceMissing
  else match before.keys.find? fun candidate => startsWith candidate to_path && from_path ≠ to_path with
    -- An overwrite is refused as well.
    | some conflict_path => return .targetExists conflict_path
    | none =>
      let targets := (source_paths.map fun path => targetCandidate from_path to_path path).toFinset
      let rotate_at ← unixTs
      onCatalog (maybeRotateSnapshotBatch targets rotate_at)
      match ← restoreEach codec snapshot from_path to_path overwrite source_paths with
      | some stopped => return stopped
      | none =>
        recordChangedPaths targets before
        return .applied ⟨snapshot_id, from_path, to_path, true, source_paths.length⟩

def restoreSnapshotPath (codec : Codec) (snapshot_id from_path to_path : String)
    (isRecursive overwrite : Bool) : StoreM SnapshotRestoreMutationResult := do
  match loadSnapshotManifest (← get).catalog snapshot_id with
  | none => return .sourceMissing
  | some snapshot =>
    if isRecursive then
      restoreSnapshotTree codec snapshot snapshot_id from_path to_path overwrite
    else
      match ← restoreSnapshotObjectPathInner codec snapshot from_path to_path true overwrite with
      | .applied => return .applied ⟨snapshot_id, from_path, to_path, false, 1⟩
      | .sourceMissing => return .sourceMissing
      | .targetExists => return .targetExists to_path

section Renames
variable {s t : Store} {from_path to_path object_id : String} {index : FileVersionIndex}
  {source_head : FileVersionRecord}

def plannedRename (codec : Codec) (s : Store) (to_path object_id : String)
    (source_head : FileVersionRecord) (manifest : ObjectManifest) (short : String) :
    FileVersionRecord :=
  renamedRecord object_id to_path (clonedManifestHash codec manifest to_path) (s.world.nanos 0)
    (s.world.seconds 1) short source_head

def plannedTombstone (s : Store) (from_path object_id : String)
    (source_head : FileVersionRecord) : FileVersionIndex :=
  renameTombstoneIndex ("obj-" ++ s.world.uuids 0) (s.world.nanos 1) (s.world.seconds 2) object_id
    from_path source_head

/-- What a rename that found its source leaves behind. Either it stopped after the
    rotation, or `mid` is the catalog from which the snapshot is taken. -/
inductive Moved (codec : Codec) (s t : Store) (from_path to_path object_id : String)
    (index : FileVersionIndex) (source_head : FileVersionRecord) : Prop where
  | stopped (later : ∃ k, t.world.uuids = fun n => s.world.uuids (n + k))
      (catalog : t.catalog = { s.catalog with
        batch := rotated s.catalog.batch {from_path, to_path} (s.world.seconds 0) })
  | moved (r : Readings) (drawn : Draws s t r.uuid) (manifest : ObjectManifest) (short : String)
      (loaded : loadManifestByHash codec s.content source_head.manifestHash = .ok (some manifest))
      (named : shortHash (clonedManifestHash codec manifest to_path) = .ok short) (mid : Catalog)
      (current : mid.current = (s.catalog.current.del from_path).put to_path
        ⟨clonedManifestHash codec manifest to_path, object_id⟩)
      (rows : mid.indexes.rows = (s.catalog.indexes.rows.put object_id (index.extended
          (plannedRename codec s to_path object_id source_head manifest short))).put
        ("obj-" ++ s.world.uuids 0) (plannedTombstone s from_path object_id source_head))
      (snapshots : mid.snapshots = s.catalog.snapshots)
      (batch : mid.batch = rotated s.catalog.batch {from_path, to_path} (s.world.seconds 0))
      (catalog : t.catalog = mid.recordedIf true {from_path, to_path} r.recordAt r.uuid)

theorem applyRename_run (r : Readings) (c : Catalog) (from_path to_path hash : String)
    (index : FileVersionIndex) {tombstone_object_id : String} {tombstone_index : FileVersionIndex}
    (valid : validateVersionIndexIdentity object_id index = .ok ())
    (tombstone_valid :
      validateVersionIndexIdentity tombstone_object_id tombstone_index = .ok ()) :
    ∃ mid : Catalog,
      ((applyRename r from_path to_path object_id index hash tombstone_object_id
        tombstone_index).run c).2 = mid.recordedIf true {from_path, to_path} r.recordAt r.uuid ∧
      mid.current = (c.current.del from_path).put to_path ⟨hash, object_id⟩ ∧
      mid.indexes.rows =
        (c.indexes.rows.put object_id index).put tombstone_object_id tombstone_index ∧
      mid.snapshots = c.snapshots ∧ mid.batch = c.batch := by
  unfold applyRename
  rcases persist_run c object_id index with ⟨error, invalid, _⟩ | ⟨_, first⟩
  · rw [valid] at invalid
    cases invalid
  rw [bind_run_ok first, bind_run_ok (m := removeCurrentObject from_path) rfl,
    bind_run_ok (m := upsertCurrentObject to_path ⟨hash, object_id⟩) rfl]
  rcases persist_run _ tombstone_object_id tombstone_index with ⟨error, invalid, _⟩ | ⟨_, second⟩
  · rw [tombstone_valid] at invalid
    cases invalid
  rw [bind_run_ok second]
  obtain ⟨id, last⟩ := persistCurrentState_run _ {from_path, to_path} true r.recordAt r.uuid
  rw [bind_run_ok last]
  exact ⟨_, rfl, rfl, rfl, rfl, rfl⟩

theorem plannedTombstone_valid (s : Store) (from_path object_id : String)
    (source_head : FileVersionRecord) :
    validateVersionIndexIdentity ("obj-" ++ s.world.uuids 0)
      (plannedTombstone s from_path object_id source_head) = .ok () := by
  have empty : validateVersionIndexIdentity ("obj-" ++ s.world.uuids 0)
      (emptyVersionIndex ("obj-" ++ s.world.uuids 0)) = .ok () :=
    validate_ok_iff.mpr ⟨generated_not_blank _, rfl, fun id record found => by cases found⟩
  exact insertRecord_valid empty rfl

theorem moveObject_moved (codec : Codec) (from_path to_path : String)
    (source_head : FileVersionRecord)
    (stored : s.catalog.loadVersionIndex object_id = some index) :
    Ensures (moveObject codec from_path to_path object_id index source_head) s
      fun _ t => Moved codec s t from_path to_path object_id index source_head := by
  unfold moveObject
  refine ensures_bind_ok (a := s.world.seconds 0) rfl ?_
  refine ensures_bind_ok (a := ()) rfl ?_
  apply ensures_bind (cloneManifestForKey_hash codec source_head.manifestHash to_path _)
  · intro hash t cloned
    obtain ⟨kept, named⟩ := cloned
    obtain ⟨manifest, loaded, rfl⟩ := named hash rfl
    refine ensures_bind_ok (a := t.world.nanos 0) rfl (ensures_lift ?_ ?_)
    · intro error _
      exact .stopped ⟨0, kept.uuids⟩ kept.catalog
    · intro short named
      refine ensures_bind_ok (a := t.world.seconds 0) rfl ?_
      refine ensures_bind_ok (a := "obj-" ++ t.world.uuids 0) rfl ?_
      refine ensures_bind_ok (a := t.world.nanos 1) rfl ?_
      refine ensures_bind_ok (a := t.world.seconds 1) rfl ?_
      refine ensures_bind_ok
        (a := ⟨t.world.seconds 2, t.world.seconds 3, t.world.uuids 1⟩) rfl ?_
      have planned : renamedRecord object_id to_path (clonedManifestHash codec manifest to_path)
          (t.world.nanos 0) (t.world.seconds 0) short source_head =
            plannedRename codec s to_path object_id source_head manifest short := by
        unfold plannedRename
        rw [kept.nanos, kept.seconds]
      have tombstone : renameTombstoneIndex ("obj-" ++ t.world.uuids 0) (t.world.nanos 1)
          (t.world.seconds 1) object_id from_path source_head =
            plannedTombstone s from_path object_id source_head := by
        unfold plannedTombstone
        rw [kept.nanos, kept.seconds, kept.uuids]
      have first : "obj-" ++ t.world.uuids 0 = "obj-" ++ s.world.uuids 0 := by rw [kept.uuids]
      have valid := insertRecord_valid (s.catalog.indexes.identity object_id index stored)
        (show (plannedRename codec s to_path object_id source_head manifest short).objectId =
          object_id from rfl)
      dsimp only
      rw [planned, tombstone, first]
      obtain ⟨mid, result, current, rows, snapshots, batch⟩ := applyRename_run
        ⟨t.world.seconds 2, t.world.seconds 3, t.world.uuids 1⟩ t.catalog from_path to_path
        (clonedManifestHash codec manifest to_path)
        (index.extended (plannedRename codec s to_path object_id source_head manifest short))
        valid (plannedTombstone_valid s from_path object_id source_head)
      rw [kept.catalog] at current rows snapshots batch
      have drawn : t.world.uuids 1 = s.world.uuids 1 := by rw [kept.uuids]
      exact .moved ⟨t.world.seconds 2, t.world.seconds 3, t.world.uuids 1⟩
        ⟨2, 1, by omega, drawn, by funext n; exact congrFun kept.uuids _⟩ manifest short loaded named
        mid current rows snapshots batch result
  · intro error t cloned
    exact .stopped ⟨0, cloned.1.uuids⟩ cloned.1.catalog

theorem liveHead_some {c : Catalog} (alive : liveHead c object_id = some (index, source_head)) :
    c.loadVersionIndex object_id = some index ∧
      index.preferredHeadVersionId = some source_head.versionId ∧
      index.versions.get source_head.versionId = some source_head ∧
      source_head.manifestHash ≠ tombstoneManifestHash := by
  unfold liveHead at alive
  simp only [Option.bind_eq_bind, Option.bind_eq_some_iff] at alive
  obtain ⟨found, loaded, head_version_id, preferred, head, stored, last⟩ := alive
  split at last
  · cases last
  · cases last
    have id := index.keyed _ _ stored
    rw [id]
    exact ⟨loaded, preferred, stored, ‹_›⟩

theorem renameMedia_moved (codec : Codec) (overwrite : Bool) (s : Store)
    (from_path to_path : String) :
    Ensures (renameMedia codec overwrite from_path to_path) s fun _ t => Unpublished s t ∨
      ∃ entry index source_head, from_path ≠ to_path ∧
        s.catalog.current.get from_path = some entry ∧ s.catalog.current.get to_path = none ∧
        liveHead s.catalog entry.objectId = some (index, source_head) ∧
        Moved codec s t from_path to_path entry.objectId index source_head := by
  have unchanged := unpublished_refl s
  unfold renameMedia
  refine ensures_get (ensures_ite (fun _ => .inl unchanged) fun distinct => ?_)
  dsimp only
  cases shown : s.catalog.current.get from_path with
  | none => exact .inl unchanged
  | some entry =>
    refine ensures_ite (fun _ => .inl unchanged) fun free => ?_
    refine ensures_ite (fun _ => .inl unchanged) fun _ => ?_
    cases alive : liveHead s.catalog entry.objectId with
    | none => exact .inl unchanged
    | some both =>
      have moved := moveObject_moved codec from_path to_path both.2 (liveHead_some alive).1
      refine ensures_map (.inr ⟨entry, both.1, both.2, distinct, rfl, ?_, alive, moved⟩)
      simpa using free

end Renames

section Copies
variable {s t : Store} {target_path : String} {create : Bool}

inductive Copied (s t : Store) (target_path : String) (create : Bool) : Prop where
  | intro (r : Readings) (drawn : Draws s t r.uuid) (record : FileVersionRecord)
      (object : record.objectId = targetObject s target_path)
      (tail : Republished r s.catalog target_path (targetObject s target_path)
        ((s.catalog.indexOrEmpty (targetObject s target_path)).insertRecord record).recomputed true
        false create t.catalog)

theorem persistCopied_copied (s : Store) (source_path target_path manifest_hash : String)
    (copied_from_object_id copied_from_version_id : Option String)
    (state : VersionConsistencyState) ( version_prefix : String) (create : Bool) :
    Ensures (persistCopiedVersionToTarget source_path target_path manifest_hash
      copied_from_object_id copied_from_version_id state version_prefix create) s
      fun _ t => Unpublished s t ∨ Copied s t target_path create := by
  unfold persistCopiedVersionToTarget
  obtain ⟨t, run, same, _⟩ := objectIdOrGenerate_run s target_path
  refine ensures_bind_ok run (ensures_get ?_)
  rw [same.catalog]
  have clock := same.trans (unixTsNanos_unpublished t)
  refine ensures_bind_ok (a := t.world.nanos 0) rfl (ensures_lift ?_ ?_)
  · intro error _
    exact .inl clock
  · intro short _
    refine ensures_bind_ok (a := t.world.seconds 0) rfl (ensures_map ?_)
    obtain ⟨r, drawn, tail⟩ := publish_cases (clock.trans (unixTs_unpublished _)) target_path
      (targetObject s target_path) _ true false create
    exact .inr (.intro r drawn _ rfl tail)

def rotatedFor (s : Store) (rotate : Bool) (paths : Finset String) : Store :=
  { s with catalog := s.catalog.opening rotate paths (s.world.seconds 0) }

inductive Transferred (s t : Store) (target_path : String) (rotate create : Bool) : Prop where
  | refused (same : Unpublished s t)
  | stopped (same : Unpublished (rotatedFor s rotate {target_path}) t)
  | copied (done : Copied (rotatedFor s rotate {target_path}) t target_path create)

theorem Copied.after {a b : Store} (copied : Copied b t target_path create)
    (catalog : b.catalog = a.catalog) (uuids : b.world.uuids = a.world.uuids) :
    Copied a t target_path create := by
  have before : Unpublished a b := ⟨catalog, 0, uuids⟩
  have same : targetObject b target_path = targetObject a target_path := by
    unfold targetObject
    rw [catalog, uuids]
  obtain ⟨r, drawn, record, object, tail⟩ := copied
  rw [same] at object
  rw [same, catalog] at tail
  exact .intro r (before.draws drawn) record object tail

variable (codec : Codec)

theorem cloneThenCopy_transferred (s t : Store) (rotate create : Bool)
    (catalog : t.catalog = (rotatedFor s rotate {target_path}).catalog)
    (uuids : t.world.uuids = s.world.uuids) (source_hash source_path : String)
    (copied_from_object_id copied_from_version_id : Option String)
    (state : VersionConsistencyState) ( version_prefix : String) :
    Ensures (cloneManifestForKey codec source_hash target_path >>= fun hash =>
      persistCopiedVersionToTarget source_path target_path hash copied_from_object_id
        copied_from_version_id state version_prefix create) t
      fun _ u => Transferred s u target_path rotate create := by
  have begun : Unpublished (rotatedFor s rotate {target_path}) t := ⟨catalog, 0, uuids⟩
  apply ensures_bind (cloneManifestForKey_hash codec source_hash target_path t)
  · intro hash u cloned
    have before := begun.trans cloned.1.unpublished
    apply ensures_mono (persistCopied_copied u source_path target_path hash _ _ state _ create)
    intro _ v result
    rcases result with untouched | copied
    · exact .stopped (before.trans untouched)
    · exact .copied (copied.after before.catalog (cloned.1.uuids.trans uuids))
  · intro error u cloned
    exact .stopped (begun.trans cloned.1.unpublished)

theorem copyMedia_transferred (overwrite : Bool) (s : Store) (from_path to_path : String) :
    Ensures (copyMedia codec overwrite from_path to_path) s fun _ t =>
      Transferred s t to_path true true := by
  have unchanged : Transferred s s to_path true true := .refused (unpublished_refl s)
  unfold copyMedia
  refine ensures_get (ensures_ite (fun _ => unchanged) fun _ => ?_)
  dsimp only
  cases objectIdForKey s.catalog.current from_path with
  | none => exact unchanged
  | some source_object_id =>
    refine ensures_ite (fun _ => unchanged) fun _ => ?_
    refine ensures_ite (fun _ => unchanged) fun _ => ?_
    cases liveHead s.catalog source_object_id with
    | none => exact unchanged
    | some both =>
      refine ensures_bind_ok (a := s.world.seconds 0) rfl (ensures_bind_ok (a := ()) rfl ?_)
      apply ensures_bind_map
      apply cloneThenCopy_transferred
      · rfl
      · rfl

theorem restoreFromSource_transferred (s : Store) (source : SnapshotRestoreSource)
    (source_path target_path : String) (create overwrite : Bool) :
    Ensures (restoreObjectPathFromSource codec source source_path target_path create overwrite) s
      fun _ t => Transferred s t target_path create create := by
  unfold restoreObjectPathFromSource
  refine ensures_get (ensures_ite (fun _ => .refused (unpublished_refl s)) fun _ => ?_)
  refine ensures_bind_ok (a := s.world.seconds 0) rfl ?_
  cases create with
  | false =>
    refine ensures_bind_ok (a := ()) rfl ?_
    apply cloneThenCopy_transferred
    · rfl
    · rfl
  | true =>
    refine ensures_bind_ok (a := ()) rfl ?_
    apply cloneThenCopy_transferred
    · rfl
    · rfl

theorem restoreVersionPath_transferred (s : Store)
    (source_path version_id target_path : String) (overwrite : Bool) :
    Ensures (restoreVersionPath codec source_path version_id target_path overwrite) s
      fun _ t => Transferred s t target_path true true := by
  unfold restoreVersionPath
  apply ensures_get
  cases versionRestoreSource codec s source_path version_id with
  | none => exact .refused (unpublished_refl s)
  | some source => exact restoreFromSource_transferred codec s source _ _ true overwrite

theorem restoreSnapshotInner_transferred (s : Store) (snapshot : SnapshotManifest)
    (source_path target_path : String) (create overwrite : Bool) :
    Ensures (restoreSnapshotObjectPathInner codec snapshot source_path target_path create overwrite)
      s fun _ t => Transferred s t target_path create create := by
  unfold restoreSnapshotObjectPathInner
  apply ensures_get
  cases snapshotRestoreSource s.catalog snapshot source_path with
  | none => exact .refused (unpublished_refl s)
  | some source => exact restoreFromSource_transferred codec s source _ _ create overwrite

theorem recordChangedPaths_recorded (s : Store) (paths : Finset String) (before : Bindings) :
    Ensures (recordChangedPaths paths before) s fun _ t => ∃ r : Readings, Draws s t r.uuid ∧
      t.catalog = s.catalog.recordedIf true
        (changedPathsAfterBindings paths before s.catalog.current) r.recordAt r.uuid := by
  obtain ⟨id, run⟩ := persistCurrentState_run s.catalog
    (changedPathsAfterBindings paths before s.catalog.current) true s.nextReadings.recordAt
    s.nextReadings.uuid
  unfold recordChangedPaths
  refine ensures_bind_ok (a := s.nextReadings) rfl (ensures_get (ensures_map ?_))
  exact ⟨s.nextReadings, ⟨1, 0, by omega, rfl, rfl⟩, congrArg Prod.snd run⟩

end Copies

end BerryKeepPathMutations
