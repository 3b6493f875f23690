import BerryKeep.PathMutations

/-!
What nodes exchange: metadata bundles and replication bundles, their export,
their import and the drop of a replica. An import writes foreign versions into
an index and then brings the namespace in line; the replication import also
chooses the lineage a version lands in and prunes duplicates in other lineages.
-/
namespace BerryKeepBundleExchange
open FiniteTable TextOperations StatefulProgram BerryKeepContentCodec BerryKeepStoragePool
  BerryKeepCatalog BerryKeepVersionGraph BerryKeepCurrentNamespace BerryKeepNodeStore
  BerryKeepLineageResolution BerryKeepStoreOperations BerryKeepPathMutations

structure MetadataVersionRecord where
  versionId : String
  manifestHash : String
  logicalPath : Option String
  parentVersionIds : List String
  state : VersionConsistencyState
  createdAtUnix : Nat
  copiedFromObjectId : Option String
  copiedFromVersionId : Option String
  copiedFromPath : Option String
  deriving DecidableEq, Repr

structure MetadataManifestRecord where
  manifestHash : String
  manifestBytes : Bytes
  deriving DecidableEq

structure MetadataExportBundle where
  key : String
  objectId : Option String
  currentManifestHash : Option String
  versions : List MetadataVersionRecord
  manifests : List MetadataManifestRecord
  deriving DecidableEq

structure ReplicationExportBundle where
  key : String
  objectId : Option String
  versionId : Option String
  logicalPath : Option String
  parentVersionIds : List String
  state : VersionConsistencyState
  createdAtUnix : Option Nat
  copiedFromObjectId : Option String
  copiedFromVersionId : Option String
  copiedFromPath : Option String
  selectedIsPreferredHead : Bool
  manifestHash : String
  manifestBytes : Bytes
  deriving DecidableEq

def nonemptyObjectId (object_id : Option String) : Option String :=
  object_id.filter fun id => !isBlank id

def metadataVersion (record : FileVersionRecord) : MetadataVersionRecord :=
  ⟨record.versionId, record.manifestHash, record.logicalPath, record.parentVersionIds, record.state,
    record.createdAtUnix, record.copiedFromObjectId, record.copiedFromVersionId,
    record.copiedFromPath⟩

def MetadataVersionRecord.toRecord (version : MetadataVersionRecord) (object_id : String) :
    FileVersionRecord :=
  ⟨version.versionId, object_id, version.manifestHash, version.logicalPath,
    version.parentVersionIds, version.state, version.createdAtUnix, version.copiedFromObjectId,
    version.copiedFromVersionId, version.copiedFromPath⟩

def debugOption : Option String → String
  | none => "None"
  | some text => "Some(\"" ++ text ++ "\")"

def exportMetadataBundle (codec : Codec) (s : Store) (key : String) (version_id : Option String)
    (read_mode : ObjectReadMode) : Except StoreError (Option MetadataExportBundle) := do
  let object_id := match version_id with
    | some version_id => resolveObjectIdForKeyVersion codec s key version_id
    | none => (objectIdForKey s.catalog.current key).orElse fun _ =>
      resolveObjectIdForKeyHistory codec s key
  let current_manifest_hash := (s.catalog.current.get key).map fun entry => entry.manifestHash
  match object_id.bind s.catalog.loadVersionIndex with
  | some index =>
    let selected_record := match version_id with
      | some version_id => index.versions.get version_id
      | none => versionRecordForReadMode index read_mode
    match selected_record with
    | none => return none
    | some record =>
      if record.manifestHash = tombstoneManifestHash then
        return some ⟨key, object_id, current_manifest_hash, [metadataVersion record], []⟩
      else match ← loadManifestPayloadByHash s.content record.manifestHash with
        | none => throw (.bail ("missing manifest payload for key=" ++ key ++ " version_id=" ++
            debugOption version_id ++ " manifest_hash=" ++ record.manifestHash))
        | some manifest_bytes =>
          return some ⟨key, object_id, current_manifest_hash, [metadataVersion record],
            [⟨record.manifestHash, manifest_bytes⟩]⟩
  | none =>
    match current_manifest_hash with
    | none => return none
    | some manifest_hash =>
      match ← loadManifestPayloadByHash s.content manifest_hash with
      | none => throw (.bail ("missing manifest payload for key=" ++ key ++ " manifest_hash=" ++
          manifest_hash))
      | some manifest_bytes =>
        return some ⟨key, object_id, current_manifest_hash, [], [⟨manifest_hash, manifest_bytes⟩]⟩

def importManifest (codec : Codec) (changed : Bool) (manifest : MetadataManifestRecord) :
    StoreM Bool :=
  if manifest.manifestHash = tombstoneManifestHash then pure changed
  else do
    let computed_manifest_hash := hashHex codec manifest.manifestBytes
    refuseIf (computed_manifest_hash ≠ manifest.manifestHash)
      (.bail ("metadata manifest hash mismatch: expected=" ++ manifest.manifestHash ++ " actual=" ++
        computed_manifest_hash))
    refuseIf (codec.decodeManifest manifest.manifestBytes = none)
      (.bail "invalid metadata manifest payload")
    let manifest_write ← persistStorageContent codec .manifest manifest.manifestHash
      manifest.manifestBytes
    return changed || manifest_write.stored

def bundleObjectId (object_id : Option String) : StoreM String :=
  match nonemptyObjectId object_id with
  | some object_id => pure object_id
  | none => generateObjectId

def metadataCollision (key version_id : String) : StoreError :=
  .bail ("metadata version collision for key=" ++ key ++ " version_id=" ++ version_id)

def mergeMetadataVersion (key object_id : String) (merged : FileVersionIndex × Bool)
    (version : MetadataVersionRecord) : Except StoreError (FileVersionIndex × Bool) :=
  match merged.1.versions.get version.versionId with
  | some existing =>
    if metadataVersion existing = version then .ok merged
    else .error (metadataCollision key version.versionId)
  | none => .ok (merged.1.insertRecord (version.toRecord object_id), true)

def preferredLogicalPath (index : FileVersionIndex) : Option String :=
  (index.preferredHeadVersionId.bind index.versions.get).bind fun record => record.logicalPath

def publishMetadata (r : Readings) (key object_id : String) (index : FileVersionIndex)
    (index_changed : Bool) : CatalogM Bool := do
  onlyIf index_changed (persistVersionIndexByObjectId object_id index)
  let before := (← get).current
  let current_key := (preferredLogicalPath index).getD key
  let touched_paths := insert current_key ((listKeysForObjectId before object_id).filter fun path =>
    decide (some path ≠ preferredLogicalPath index)).toFinset
  maybeRotateSnapshotBatch touched_paths r.rotateAt
  let synced_paths ← syncCurrentState current_key index
  let removed_paths ← removeBindingsExcept object_id (preferredLogicalPath index)
  let after := (← get).current
  if after.get current_key ≠ before.get current_key ∨ synced_paths ∪ removed_paths ≠ ∅ then
    let _ ← persistCurrentStateWithSnapshotBatch (touched_paths ∪ (synced_paths ∪ removed_paths)) true
      r.recordAt r.uuid
    return true
  else return index_changed

def importMetadataVersions (bundle : MetadataExportBundle) : StoreM Bool := do
  let object_id ← bundleObjectId bundle.objectId
  let stored := (← get).catalog.indexOrEmpty object_id
  let (merged, index_changed) ← lift
    (bundle.versions.foldlM (mergeMetadataVersion bundle.key object_id) (stored, false))
  let r ← readings
  onCatalog (publishMetadata r bundle.key object_id
    (if index_changed then merged.recomputed else merged) index_changed)

-- Unlike a sync this leaves other paths of the same object bound.
def bindManifest (r : Readings) (key : String) (entry : CurrentObjectEntry) : CatalogM Bool := do
  if (← get).current.get key ≠ some entry then
    maybeRotateSnapshotBatch {key} r.rotateAt
    upsertCurrentObject key entry
    let _ ← persistCurrentStateWithSnapshotBatch {key} true r.recordAt r.uuid
    return true
  else return false

def importMetadataBundle (codec : Codec) (bundle : MetadataExportBundle) : StoreM Bool := do
  let stored ← foldEach bundle.manifests false (importManifest codec)
  if bundle.versions ≠ [] then
    let changed ← importMetadataVersions bundle
    return stored || changed
  else match bundle.currentManifestHash with
    | none => return stored
    | some manifest_hash =>
      let object_id ← bundleObjectId bundle.objectId
      let r ← readings
      let changed ← onCatalog (bindManifest r bundle.key ⟨manifest_hash, object_id⟩)
      return stored || changed

def parseU128 (text : String) : Option Nat :=
  let digits := match text.toList with
    | '+' :: rest => rest
    | all => all
  if digits = [] ∨ digits.any (fun c => !c.isDigit) then none
  else
    let value := digits.foldl (fun n c => n * 10 + (c.toNat - 48)) 0
    if value < 2 ^ 128 then some value else none

def parseReplicaVersionNanos (version_id : String) : Option Nat :=
  (splitOnce version_id "-").bind fun parts =>
    parseU128 (((splitOnce parts.2 "-").map Prod.fst).getD parts.2)

def replicaVersionOrderKey (version_id : Option String) (created_at_unix : Nat) : Nat × Nat :=
  (created_at_unix,
    (version_id.bind parseReplicaVersionNanos).getD (created_at_unix * 1000000000))

def replicaTombstoneSupersedesCurrentKey (c : Catalog) (key current_object_id : String)
    (bundle : ReplicationExportBundle) : Bool :=
  ((c.loadVersionIndex current_object_id).bind fun index =>
    index.preferredHeadVersionId.bind index.versions.get).any fun current_record =>
      current_record.logicalPath = some key ∧ current_record.manifestHash ≠ tombstoneManifestHash ∧
        let tombstone_order :=
          replicaVersionOrderKey bundle.versionId (bundle.createdAtUnix.getD 0)
        let current_order :=
          replicaVersionOrderKey (some current_record.versionId) current_record.createdAtUnix
        current_order.1 < tombstone_order.1 ∨
          current_order.1 = tombstone_order.1 ∧ current_order.2 < tombstone_order.2

def applySelectedReplicaTombstoneCurrentState (key : String) (bundle : ReplicationExportBundle) :
    CatalogM Unit := do
  let c ← get
  match objectIdForKey c.current key with
  | none => return ()
  | some current_object_id =>
    onlyIf (decide (bundle.objectId = some current_object_id) ||
      decide (bundle.copiedFromObjectId = some current_object_id ∧ bundle.copiedFromPath = some key) ||
      replicaTombstoneSupersedesCurrentKey c key current_object_id bundle) (removeCurrentObject key)

inductive Lineage where
  | known (object_id : String)
  | fresh
  | conflictRecreated
  deriving DecidableEq, Repr

def lineageOr (object_id : Option String) (otherwise : Lineage) : Lineage :=
  match object_id with
  | some object_id => .known object_id
  | none => otherwise

def replicaRecord (bundle : ReplicationExportBundle) (object_id key version_id : String)
    (created_at_unix : Nat) : FileVersionRecord :=
  ⟨version_id, object_id, bundle.manifestHash, some key, bundle.parentVersionIds, bundle.state,
    created_at_unix, bundle.copiedFromObjectId, bundle.copiedFromVersionId, bundle.copiedFromPath⟩

def resolvedByVersion (codec : Codec) (s : Store) (bundle : ReplicationExportBundle) (key : String) :
    Option String :=
  bundle.versionId.bind fun version_id => resolveObjectIdForKeyVersion codec s key version_id

def otherTombstonePreferred (c : Catalog) (object_id version_id : String) : Bool :=
  (c.loadVersionIndex object_id).any fun index =>
    (index.preferredHeadVersionId.bind index.versions.get).any (fun head =>
      head.manifestHash = tombstoneManifestHash) && index.preferredHeadVersionId ≠ some version_id

def chooseReplicationBundleObjectId (codec : Codec) (s : Store) (bundle : ReplicationExportBundle)
    (key resolved_version_id : String) (created_at_unix : Nat) : Lineage :=
  let by_version := resolvedByVersion codec s bundle key
  let bound := objectIdForKey s.catalog.current key
  let by_history := resolveObjectIdForKeyHistory codec s key
  match nonemptyObjectId bundle.objectId with
  | some source_object_id =>
    if bundle.manifestHash = tombstoneManifestHash then .known source_object_id
    else if bundle.selectedIsPreferredHead then
      if otherTombstonePreferred s.catalog source_object_id resolved_version_id then
        .conflictRecreated
      else .known source_object_id
    else lineageOr by_version (lineageOr bound (lineageOr by_history (.known source_object_id)))
  | none =>
    if bundle.manifestHash = tombstoneManifestHash then
      lineageOr by_version (lineageOr by_history .fresh)
    else
      let repeated := bound.filter fun current_object_id =>
        (s.catalog.loadVersionIndex current_object_id).any fun index =>
          index.versions.get resolved_version_id =
            some (replicaRecord bundle current_object_id key resolved_version_id created_at_unix)
      lineageOr repeated (lineageOr by_version (lineageOr bound
        (if bundle.selectedIsPreferredHead then .fresh else lineageOr by_history .fresh)))

-- A version in another lineage, or with other data, gives way to the one to keep.
def pruneIndex (key : String) (keep_record : FileVersionRecord) (changed_paths : Finset String)
    (index : FileVersionIndex) : CatalogM (Finset String) :=
  match index.versions.get keep_record.versionId with
  | none => return changed_paths
  | some existing =>
    if existing.logicalPath ≠ some key then return changed_paths
    else if index.objectId = keep_record.objectId ∧ existing = keep_record then return changed_paths
    else
      let pruned := (index.removeVersion keep_record.versionId).recomputed
      if pruned.versions.keys = [] then do
        deleteVersionIndexByObjectId index.objectId
        let removed ← removeBindingsExcept index.objectId none
        return changed_paths ∪ removed
      else do
        persistVersionIndexByObjectId index.objectId pruned
        let synced ← syncCurrentState key pruned
        return changed_paths ∪ synced

def pruneConflictingReplicationBundleVersions (key : String) (keep_record : FileVersionRecord) :
    CatalogM (Finset String) := do
  let c ← get
  foldEach c.loadAllVersionIndexes ∅ (pruneIndex key keep_record)

def selectReplica (key : String) (bundle : ReplicationExportBundle) (index : FileVersionIndex) :
    CatalogM (Finset String) :=
  if bundle.selectedIsPreferredHead = false then return ∅
  else if bundle.manifestHash = tombstoneManifestHash then do
    applySelectedReplicaTombstoneCurrentState key bundle
    return ∅
  else promoteCurrentState key index

def withReplica (index : FileVersionIndex) (record : FileVersionRecord) : FileVersionIndex :=
  if index.versions.get record.versionId = some record then index
  else (index.insertRecord record).recomputed

def storeReplica (r : Readings) (key : String) (bundle : ReplicationExportBundle)
    (index : FileVersionIndex) (record : FileVersionRecord) (pruned_paths : Finset String) :
    CatalogM Unit := do
  let before := (← get).current
  let touched_paths := touchedPathsForObjectId before record.objectId key ∪ pruned_paths
  maybeRotateSnapshotBatch touched_paths r.rotateAt
  onlyIf (decide (index.versions.get record.versionId ≠ some record))
    (persistVersionIndexByObjectId record.objectId (withReplica index record))
  let synced_paths ← syncCurrentState key (withReplica index record)
  let selected_paths ← selectReplica key bundle (withReplica index record)
  let after := (← get).current
  let changed_paths := pruned_paths ∪ synced_paths ∪ selected_paths
  let _ ← persistCurrentStateWithSnapshotBatch
    (if after.get key ≠ before.get key then changed_paths ∪ touched_paths else changed_paths) true
    r.recordAt r.uuid

-- `index` was loaded before the pruning, which may have changed the stored one.
def publishReplica (r : Readings) (key : String) (bundle : ReplicationExportBundle)
    (index : FileVersionIndex) (record : FileVersionRecord) : CatalogM Unit := do
  let pruned_paths ← pruneConflictingReplicationBundleVersions key record
  storeReplica r key bundle index record pruned_paths

def replicationVersionId (bundle : ReplicationExportBundle) (nanos : Nat) :
    Except StoreError String :=
  match bundle.versionId with
  | some version_id => .ok version_id
  | none =>
    if bundle.manifestHash = tombstoneManifestHash then .ok ("rep-" ++ toString nanos ++ "-tombstone")
    else (shortHash bundle.manifestHash).map fun short => "rep-" ++ toString nanos ++ "-" ++ short

def checkReplicatedChunk (st : ContentStore) (chunk : ChunkRef) : Except StoreError Unit := do
  let chunk_path ← st.pool.contentPath .chunk chunk.hash
  match st.fileAt chunk_path with
  | none => throw (.bail ("manifest references missing chunk hash=" ++ chunk.hash))
  | some file =>
    if file.bytes.length ≠ chunk.sizeBytes then
      throw (.bail ("manifest chunk size mismatch hash=" ++ chunk.hash ++ " expected=" ++
        toString chunk.sizeBytes ++ " actual=" ++ toString file.bytes.length))

def acceptReplicationManifest (codec : Codec) (key : String) (bundle : ReplicationExportBundle) :
    StoreM Unit :=
  if bundle.manifestHash = tombstoneManifestHash then pure ()
  else do
    let computed_manifest_hash := hashHex codec bundle.manifestBytes
    refuseIf (computed_manifest_hash ≠ bundle.manifestHash)
      (.bail ("manifest hash mismatch: expected=" ++ bundle.manifestHash ++ " actual=" ++
        computed_manifest_hash))
    match codec.decodeManifest bundle.manifestBytes with
    | none => throw (.bail "invalid replication manifest payload")
    | some manifest =>
      refuseIf (manifest.key ≠ key) (.bail ("replication manifest key mismatch: expected=" ++ key ++
        " actual=" ++ manifest.key))
      let st := (← get).content
      forEach manifest.chunks fun chunk => lift (checkReplicatedChunk st chunk)
      let _ ← persistStorageContent codec .manifest bundle.manifestHash bundle.manifestBytes
      markManifestLocallyOwned codec bundle.manifestHash

def lineageObjectId : Lineage → StoreM String
  | .known object_id => pure object_id
  | .fresh => generateObjectId
  | .conflictRecreated => generateObjectId

-- Only a live version is ever recreated in a new lineage.
def replicaCreatedAt (lineage : Lineage) (source_created_at_unix now : Nat) : Nat :=
  if lineage = .conflictRecreated then min (max source_created_at_unix now + 1) (2 ^ 64 - 1)
  else source_created_at_unix

def importReplicationBundle (codec : Codec) (bundle : ReplicationExportBundle) : StoreM String := do
  let key := bundle.logicalPath.getD bundle.key
  let version_id ← lift (replicationVersionId bundle (← unixTsNanos))
  let source_created_at_unix := bundle.createdAtUnix.getD (← unixTs)
  acceptReplicationManifest codec key bundle
  let lineage := chooseReplicationBundleObjectId codec (← get) bundle key version_id
    source_created_at_unix
  let object_id ← lineageObjectId lineage
  let created_at_unix := replicaCreatedAt lineage source_created_at_unix (← unixTs)
  let index := (← get).catalog.indexOrEmpty object_id
  let record := replicaRecord bundle object_id key version_id created_at_unix
  let r ← readings
  onCatalog (publishReplica { r with recordAt := created_at_unix } key bundle index record)
  return version_id

def dropReplicaSubject (key : String) (version_id : Option String) : StoreM Bool := do
  let c := (← get).catalog
  let some version_id := version_id | return false
  let some object_id := objectIdForKey c.current key | return false
  let some index := c.loadVersionIndex object_id | return false
  if !index.versions.has version_id then return false
  else
    let _ ← publish key object_id (index.removeVersion version_id).recomputed true true true
    return true

section Effects
variable {s t : Store}

def bundleObject (s : Store) (object_id : Option String) : String :=
  (nonemptyObjectId object_id).getD ("obj-" ++ s.world.uuids 0)

theorem bundleObjectId_run (s : Store) (object_id : Option String) :
    ∃ t, (bundleObjectId object_id).run s = (.ok (bundleObject s object_id), t) ∧
      Unpublished s t := by
  unfold bundleObjectId bundleObject
  cases nonemptyObjectId object_id with
  | none => exact ⟨_, rfl, generateObjectId_unpublished s⟩
  | some object_id => exact ⟨s, rfl, unpublished_refl s⟩

variable (codec : Codec)

theorem importManifest_contentOnly (changed : Bool)
    (manifest : MetadataManifestRecord) : ContentOnly (importManifest codec changed manifest) := by
  unfold importManifest
  refine keeps_ite (contentOnly_pure _) ?_
  refine contentOnly_bind (contentOnly_refuseIf _ _) fun _ => ?_
  refine contentOnly_bind (contentOnly_refuseIf _ _) fun _ => ?_
  exact contentOnly_bind (persistStorageContent_contentOnly _ _ _ _) fun _ => contentOnly_pure _

theorem bindManifest_bound (r : Readings) (c : Catalog) (key : String) (entry : CurrentObjectEntry) :
    Ensures (bindManifest r key entry) c fun _ d => d.indexes.rows = c.indexes.rows ∧
      (d.current = c.current ∨ d.current = c.current.put key entry) := by
  unfold bindManifest
  apply ensures_get
  apply ensures_ite
  · intro _
    refine ensures_bind_ok (a := ()) rfl (ensures_bind_ok (a := ()) rfl (ensures_map ⟨?_, .inr ?_⟩))
    · rw [record_keepsRows]
    · rw [record_keepsCurrent]
  · intro _
    exact ⟨rfl, .inl rfl⟩

inductive MetadataImported (s t : Store) (bundle : MetadataExportBundle) : Prop where
  | versions (r : Readings) (drawn : Draws s t r.uuid) (merged : FileVersionIndex) (changed : Bool)
      (merge : bundle.versions.foldlM
        (mergeMetadataVersion bundle.key (bundleObject s bundle.objectId))
        (s.catalog.indexOrEmpty (bundleObject s bundle.objectId), false) = .ok (merged, changed))
      (catalog : t.catalog = ((publishMetadata r bundle.key (bundleObject s bundle.objectId)
        (if changed then merged.recomputed else merged) changed).run s.catalog).2)
  | binding (r : Readings) (drawn : Draws s t r.uuid) (manifest_hash : String)
      (bare : bundle.versions = []) (shown : bundle.currentManifestHash = some manifest_hash)
      (catalog : t.catalog = ((bindManifest r bundle.key
        ⟨manifest_hash, bundleObject s bundle.objectId⟩).run s.catalog).2)

theorem bundleObject_same (same : SameCatalog s t) (object_id : Option String) :
    bundleObject t object_id = bundleObject s object_id := by
  unfold bundleObject
  rw [same.uuids]

theorem importMetadataVersions_imported (s : Store) (bundle : MetadataExportBundle) :
    Ensures (importMetadataVersions bundle) s fun _ t =>
      Unpublished s t ∨ MetadataImported s t bundle := by
  unfold importMetadataVersions
  obtain ⟨t, run, same⟩ := bundleObjectId_run s bundle.objectId
  refine ensures_bind_ok run (ensures_get ?_)
  rw [same.catalog]
  refine ensures_lift (fun _ _ => .inl same) fun merged merge => ?_
  refine ensures_bind_ok (a := t.nextReadings) rfl ?_
  refine .inr (.versions t.nextReadings (same.draws ⟨1, 0, by omega, rfl, rfl⟩) merged.1 merged.2
    merge ?_)
  rw [← same.catalog]
  rfl

theorem MetadataImported.after {u : Store} {bundle : MetadataExportBundle}
    (imported : MetadataImported u t bundle) (same : SameCatalog s u) :
    MetadataImported s t bundle := by
  cases imported with
  | versions r drawn merged changed merge catalog =>
    rw [same.catalog, bundleObject_same same] at merge catalog
    exact .versions r (same.unpublished.draws drawn) merged changed merge catalog
  | binding r drawn manifest_hash bare shown catalog =>
    rw [same.catalog, bundleObject_same same] at catalog
    exact .binding r (same.unpublished.draws drawn) manifest_hash bare shown catalog

theorem importMetadata_imported (s : Store) (bundle : MetadataExportBundle) :
    Ensures (importMetadataBundle codec bundle) s fun _ t =>
      Unpublished s t ∨ MetadataImported s t bundle := by
  unfold importMetadataBundle
  apply ensures_after (contentOnly_foldEach (importManifest_contentOnly codec) bundle.manifests false)
  · intro stored u kept
    apply ensures_ite
    · intro _
      apply ensures_map
      rcases importMetadataVersions_imported u bundle with before | imported
      · exact .inl (kept.unpublished.trans before)
      · exact .inr (imported.after kept)
    · intro bare
      cases shown : bundle.currentManifestHash with
      | none => exact .inl kept.unpublished
      | some manifest_hash =>
        obtain ⟨t, run, same⟩ := bundleObjectId_run u bundle.objectId
        refine ensures_bind_ok run (ensures_bind_ok (a := t.nextReadings) rfl (ensures_map ?_))
        have imported : MetadataImported u ((onCatalog (bindManifest t.nextReadings bundle.key
            ⟨manifest_hash, bundleObject u bundle.objectId⟩)).run (readings.run t).2).2 bundle := by
          refine .binding t.nextReadings (same.draws ⟨1, 0, by omega, rfl, rfl⟩) manifest_hash
            (not_not.mp bare) shown ?_
          rw [← same.catalog]
          rfl
        exact .inr (imported.after kept)
  · intro error u kept
    exact .inl kept.unpublished

theorem acceptReplicationManifest_contentOnly (key : String) (bundle : ReplicationExportBundle) :
    ContentOnly (acceptReplicationManifest codec key bundle) := by
  unfold acceptReplicationManifest
  refine keeps_ite (contentOnly_pure _) (contentOnly_bind (contentOnly_refuseIf _ _) fun _ => ?_)
  cases codec.decodeManifest bundle.manifestBytes with
  | none => exact contentOnly_throw _
  | some manifest =>
    refine contentOnly_bind (contentOnly_refuseIf _ _) fun _ => ?_
    refine contentOnly_bind contentOnly_get fun st => ?_
    refine contentOnly_bind (contentOnly_forEach (fun _ => contentOnly_lift _) _) fun _ => ?_
    refine contentOnly_bind (persistStorageContent_contentOnly _ _ _ _) fun _ => ?_
    exact markManifestLocallyOwned_contentOnly _ _

def replicaKey (bundle : ReplicationExportBundle) : String := bundle.logicalPath.getD bundle.key

def lineageObject (s : Store) : Lineage → String
  | .known object_id => object_id
  | .fresh => "obj-" ++ s.world.uuids 0
  | .conflictRecreated => "obj-" ++ s.world.uuids 0

def importedRecord (s : Store) (bundle : ReplicationExportBundle) (lineage : Lineage)
    (version_id : String) : FileVersionRecord :=
  replicaRecord bundle (lineageObject s lineage) (replicaKey bundle) version_id
    (replicaCreatedAt lineage (bundle.createdAtUnix.getD (s.world.seconds 0)) (s.world.seconds 1))

def importEnd (s : Store) (r : Readings) (bundle : ReplicationExportBundle) (lineage : Lineage)
    (version_id : String) : Except StoreError Unit × Catalog :=
  (publishReplica r (replicaKey bundle) bundle (s.catalog.indexOrEmpty (lineageObject s lineage))
    (importedRecord s bundle lineage version_id)).run s.catalog

/-- What a replication import that comes to the catalog leaves behind. The lineage is
    chosen after the manifest was stored, in a store with the same catalog. -/
inductive ReplicationImported (codec : Codec) (s t : Store) (bundle : ReplicationExportBundle)
    (result : Except StoreError String) : Prop where
  | intro (r : Readings) (drawn : Draws s t r.uuid) (version_id : String)
      (named : replicationVersionId bundle (s.world.nanos 0) = .ok version_id) (u : Store)
      (same : u.catalog = s.catalog) (lineage : Lineage)
      (chosen : chooseReplicationBundleObjectId codec u bundle (replicaKey bundle) version_id
        (bundle.createdAtUnix.getD (s.world.seconds 0)) = lineage)
      (catalog : t.catalog = (importEnd s r bundle lineage version_id).2)
      (passed : ∀ id, result = .ok id → (importEnd s r bundle lineage version_id).1 = .ok ())

theorem lineageObjectId_run (s : Store) (lineage : Lineage) :
    ∃ t, (lineageObjectId lineage).run s = (.ok (lineageObject s lineage), t) ∧
      Unpublished s t ∧ t.world.seconds = s.world.seconds := by
  cases lineage with
  | known object_id => exact ⟨s, rfl, unpublished_refl s, rfl⟩
  | fresh => exact ⟨_, rfl, generateObjectId_unpublished s, rfl⟩
  | conflictRecreated => exact ⟨_, rfl, generateObjectId_unpublished s, rfl⟩

theorem importReplication_imported (s : Store) (bundle : ReplicationExportBundle) :
    Ensures (importReplicationBundle codec bundle) s fun result t =>
      (Unpublished s t ∧ ∀ id, result ≠ .ok id) ∨ ReplicationImported codec s t bundle result := by
  have refused : ∀ (error : StoreError) (id : String), Except.error error ≠ .ok id := by
    intro error id same
    cases same
  unfold importReplicationBundle
  refine ensures_bind_ok (a := s.world.nanos 0) rfl ?_
  refine ensures_lift (fun error _ => .inl ⟨⟨rfl, 0, rfl⟩, refused error⟩) fun version_id named => ?_
  refine ensures_bind_ok (a := s.world.seconds 0) rfl ?_
  apply ensures_after (acceptReplicationManifest_contentOnly codec (replicaKey bundle) bundle)
  · intro _ u kept
    have before : Unpublished s u := ⟨kept.catalog, 0, kept.uuids⟩
    have object : ∀ lineage, lineageObject u lineage = lineageObject s lineage := by
      intro lineage
      unfold lineageObject
      rw [kept.uuids]
    apply ensures_get
    dsimp only
    generalize chosen : chooseReplicationBundleObjectId codec u bundle _ version_id _ = lineage
    obtain ⟨v, run, drawn, seconds⟩ := lineageObjectId_run u lineage
    have before := before.trans drawn
    have now : v.world.seconds 0 = s.world.seconds 1 := by rw [seconds, kept.seconds]
    refine ensures_bind_ok run (ensures_bind_ok (a := v.world.seconds 0) rfl (ensures_get ?_))
    refine ensures_bind_ok (a := (unixTs.run v).2.nextReadings) rfl ?_
    refine ensures_mono (onCatalog_end _ (fun _ : Unit => version_id) _) fun result t ended => .inr ?_
    obtain ⟨rfl, passed⟩ := ended
    refine .intro ⟨v.world.seconds 1, replicaCreatedAt lineage
      (bundle.createdAtUnix.getD (s.world.seconds 0)) (s.world.seconds 1), v.world.uuids 0⟩
      (before.draws ⟨1, 0, by omega, rfl, rfl⟩) version_id named u kept.catalog lineage chosen ?_ ?_
    · unfold importEnd importedRecord
      rw [← object lineage, ← now, ← before.catalog]
      rfl
    · intro id finished
      obtain ⟨_, done⟩ := passed id finished
      unfold importEnd importedRecord
      rw [← object lineage, ← now, ← before.catalog]
      exact done
  · intro error u kept
    exact .inl ⟨⟨kept.catalog, 0, kept.uuids⟩, refused error⟩

inductive Dropped (s t : Store) (key version_id : String) : Prop where
  | intro (r : Readings) (drawn : Draws s t r.uuid) (object_id : String) (index : FileVersionIndex)
      (bound : objectIdForKey s.catalog.current key = some object_id)
      (loaded : s.catalog.loadVersionIndex object_id = some index)
      (tail : Republished r s.catalog key object_id (index.removeVersion version_id).recomputed true
        true true t.catalog)

theorem drop_dropped (s : Store) (key : String) (version_id : Option String) :
    Ensures (dropReplicaSubject key version_id) s fun _ t =>
      Unpublished s t ∨ ∃ id, version_id = some id ∧ Dropped s t key id := by
  unfold dropReplicaSubject
  apply ensures_get
  dsimp only
  cases version_id with
  | none => exact .inl (unpublished_refl s)
  | some id =>
    cases bound : objectIdForKey s.catalog.current key with
    | none => exact .inl (unpublished_refl s)
    | some object_id =>
      dsimp only
      cases loaded : s.catalog.loadVersionIndex object_id with
      | none => exact .inl (unpublished_refl s)
      | some index =>
        apply ensures_ite
        · intro _
          exact .inl (unpublished_refl s)
        · intro _
          apply ensures_map
          obtain ⟨r, drawn, tail⟩ := publish_cases (unpublished_refl s) key object_id
            (index.removeVersion id).recomputed true true true
          exact .inr ⟨id, rfl, r, drawn, object_id, index, bound, loaded, tail⟩

end Effects

end BerryKeepBundleExchange
