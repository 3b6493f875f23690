import BerryKeep.NodeStore

/-!
The operations of a node on its own objects: put, commit and tombstone. Each is
translated with its checks, messages and results. What an operation does to the
catalog is then said once: nothing, or one `republish` of an index that is the
stored one, the stored one extended by one version, or the stored one with one
version confirmed.
-/
namespace BerryKeepStoreOperations
open FiniteTable TextOperations StatefulProgram BerryKeepContentCodec BerryKeepStoragePool
  BerryKeepCatalog BerryKeepVersionGraph BerryKeepCurrentNamespace BerryKeepNodeStore

structure PutOptions where
  parentVersionIds : List String
  state : VersionConsistencyState
  inheritPreferredParent : Bool
  createSnapshot : Bool
  explicitVersionId : Option String
  deriving DecidableEq, Repr

def PutOptions.default : PutOptions := ⟨[], .confirmed, true, true, none⟩

structure PutResult where
  objectId : String
  snapshotId : String
  versionId : String
  manifestHash : String
  state : VersionConsistencyState
  newChunks : Nat
  dedupReusedChunks : Nat
  createdNewVersion : Bool
  deriving DecidableEq, Repr

structure TombstonePathResult where
  path : String
  objectId : String
  versionId : String
  deriving DecidableEq, Repr

def chunkSize : Nat := 1024 * 1024

def objectIdOrGenerate (key : String) : StoreM String := do
  match objectIdForKey (← get).catalog.current key with
  | some object_id => return object_id
  | none => generateObjectId

def requestedParents (index : FileVersionIndex) (options : PutOptions) : List String :=
  if options.parentVersionIds = [] then
    if options.inheritPreferredParent then index.preferredHeadVersionId.toList else []
  else options.parentVersionIds

def checkParents (key : String) (index : FileVersionIndex) (parents : List String) :
    Except StoreError Unit :=
  match parents.find? fun parent => !index.versions.has parent with
  | some parent =>
    .error (.bail ("parent version does not exist for key=" ++ key ++ ": " ++ parent))
  | none => .ok ()

def versionIdCollision (key version_id : String) : StoreError :=
  .bail ("version id collision for key=" ++ key ++ " version_id=" ++ version_id ++
    ": different manifest")

def putVersionId (explicit_version_id : Option String) (nanos : Nat) (manifest_hash : String) :
    Except StoreError String :=
  match explicit_version_id with
  | some version_id => .ok version_id
  | none => (shortHash manifest_hash).map fun short => "ver-" ++ toString nanos ++ "-" ++ short

def tombstoneVersionId (explicit_version_id : Option String) (nanos : Nat) : String :=
  explicit_version_id.getD ("tomb-" ++ toString nanos)

def reusableHead (index : FileVersionIndex) (options : PutOptions) (parents : List String)
    (manifest_hash : String) : Option FileVersionRecord :=
  if options.explicitVersionId.isSome then none
  else (index.preferredHeadVersionId.bind index.versions.get).filter fun preferred_head =>
    preferred_head.manifestHash = manifest_hash ∧ preferred_head.state = options.state ∧
      ((options.parentVersionIds = [] ∧ options.inheritPreferredParent = true) ∨
        preferred_head.parentVersionIds = parents)

def finalizePutFromManifestHash (codec : Codec) (key manifest_hash : String)
    (options : PutOptions) (new_chunks dedup_reused_chunks : Nat) : StoreM PutResult := do
  let object_id ← objectIdOrGenerate key
  let index := (← get).catalog.indexOrEmpty object_id
  let parents := requestedParents index options
  lift (checkParents key index parents)
  markManifestLocallyOwned codec manifest_hash
  let version_id ← lift (putVersionId options.explicitVersionId (← unixTsNanos) manifest_hash)
  match index.versions.get version_id with
  | some existing =>
    refuseIf (existing.manifestHash ≠ manifest_hash) (versionIdCollision key version_id)
    let snapshot_id ← publish key object_id index false options.createSnapshot
      options.createSnapshot
    return ⟨object_id, snapshot_id.getD ("snap-skipped-" ++ version_id), version_id, manifest_hash,
      existing.state, new_chunks, dedup_reused_chunks, false⟩
  | none =>
    match reusableHead index options parents manifest_hash with
    | some head =>
      return ⟨object_id, "snap-skipped-" ++ head.versionId, head.versionId, head.manifestHash,
        head.state, new_chunks, dedup_reused_chunks, false⟩
    | none =>
      let created_at_unix ← unixTs
      let record : FileVersionRecord := ⟨version_id, object_id, manifest_hash, some key, parents,
        options.state, created_at_unix, none, none, none⟩
      let snapshot_id ← publish key object_id (index.extended record) true options.createSnapshot
        options.createSnapshot
      return ⟨object_id, snapshot_id.getD ("snap-skipped-" ++ version_id), version_id,
        manifest_hash, options.state, new_chunks, dedup_reused_chunks, true⟩

structure StoredChunks where
  refs : List ChunkRef
  newChunks : Nat
  dedupReusedChunks : Nat

def storeChunk (codec : Codec) (stored : StoredChunks) (chunk : Bytes) : StoreM StoredChunks := do
  let hash := hashHex codec chunk
  let outcome ← persistStorageContent codec .chunk hash chunk
  let refs := stored.refs ++ [⟨hash, chunk.length⟩]
  if outcome.stored then return ⟨refs, stored.newChunks + 1, stored.dedupReusedChunks⟩
  else return ⟨refs, stored.newChunks, stored.dedupReusedChunks + 1⟩

def manifestOf (codec : Codec) (key : String) (payload : Bytes) : ObjectManifest :=
  ⟨key, payload.length, (payload.toChunks chunkSize).map fun chunk =>
    ⟨hashHex codec chunk, chunk.length⟩⟩

def putObjectVersioned (codec : Codec) (key : String) (payload : Bytes) (options : PutOptions) :
    StoreM PutResult := do
  let stored ← foldEach (payload.toChunks chunkSize) ⟨[], 0, 0⟩ (storeChunk codec)
  let manifest_bytes := codec.encodeManifest ⟨key, payload.length, stored.refs⟩
  let manifest_hash := hashHex codec manifest_bytes
  let _ ← persistStorageContent codec .manifest manifest_hash manifest_bytes
  finalizePutFromManifestHash codec key manifest_hash options stored.newChunks
    stored.dedupReusedChunks

def confirmedIndex (index : FileVersionIndex) (version : FileVersionRecord) : FileVersionIndex :=
  (index.insertRecord { version with state := .confirmed }).choosing

def commitVersion (key version_id : String) : StoreM Bool := do
  let c := (← get).catalog
  let some object_id := objectIdForKey c.current key | return false
  let some index := c.loadVersionIndex object_id | return false
  let some version := index.versions.get version_id | return false
  if version.state = .confirmed then return true
  else
    let _ ← publish key object_id (confirmedIndex index version) true true true
    return true

def tombstoneObjectSingle (key : String) (options : PutOptions) : StoreM TombstonePathResult := do
  let object_id ← objectIdOrGenerate key
  let index := (← get).catalog.indexOrEmpty object_id
  let parents := requestedParents index options
  lift (checkParents key index parents)
  let version_id := tombstoneVersionId options.explicitVersionId (← unixTsNanos)
  match index.versions.get version_id with
  | some existing =>
    refuseIf (existing.manifestHash ≠ tombstoneManifestHash) (versionIdCollision key version_id)
    let _ ← publish key object_id index false options.createSnapshot options.createSnapshot
    return ⟨key, object_id, existing.versionId⟩
  | none =>
    let created_at_unix ← unixTs
    let record : FileVersionRecord := ⟨version_id, object_id, tombstoneManifestHash, some key,
      parents, options.state, created_at_unix, none, none, none⟩
    let _ ← publish key object_id (index.extended record) true options.createSnapshot
      options.createSnapshot
    return ⟨key, object_id, version_id⟩

section Effects
variable {c d : Catalog} {s : Store} {key object_id manifest_hash version_id : String}
  {create : Bool} {options : PutOptions}

def targetObject (s : Store) (key : String) : String :=
  (objectIdForKey s.catalog.current key).getD ("obj-" ++ s.world.uuids 0)

structure NewVersion (index : FileVersionIndex) (key object_id manifest_hash version_id : String)
    (record : FileVersionRecord) : Prop where
  id : record.versionId = version_id
  object : record.objectId = object_id
  manifest : record.manifestHash = manifest_hash
  path : record.logicalPath = some key
  unstored : index.versions.get version_id = none
  parents : ∀ parent ∈ record.parentVersionIds, index.versions.has parent = true

inductive Written (s t : Store) (key object_id manifest_hash version_id : String)
    (create : Bool) : Prop where
  | again (r : Readings) (drawn : Draws s t r.uuid) (existing : FileVersionRecord)
      (stored : (s.catalog.indexOrEmpty object_id).versions.get version_id = some existing)
      (tail : Republished r s.catalog key object_id (s.catalog.indexOrEmpty object_id) false create
        create t.catalog)
  | added (r : Readings) (drawn : Draws s t r.uuid) (record : FileVersionRecord)
      (new : NewVersion (s.catalog.indexOrEmpty object_id) key object_id manifest_hash version_id
        record)
      (tail : Republished r s.catalog key object_id
        ((s.catalog.indexOrEmpty object_id).extended record) true create create t.catalog)

theorem objectIdOrGenerate_run (s : Store) (key : String) :
    ∃ t, (objectIdOrGenerate key).run s = (.ok (targetObject s key), t) ∧
      Unpublished s t ∧ t.world.nanos = s.world.nanos := by
  unfold objectIdOrGenerate targetObject
  rw [bind_run_ok (get_run s)]
  cases objectIdForKey s.catalog.current key with
  | none => exact ⟨_, rfl, generateObjectId_unpublished s, rfl⟩
  | some object_id => exact ⟨s, rfl, unpublished_refl s, rfl⟩

theorem targetObject_same {s t : Store} (same : SameCatalog s t) (key : String) :
    targetObject t key = targetObject s key := by
  unfold targetObject
  rw [same.catalog, same.uuids]

theorem Written.after {s t u : Store} (written : Written t u key object_id manifest_hash version_id
    create) (same : SameCatalog s t) :
    Written s u key object_id manifest_hash version_id create := by
  cases written with
  | again r drawn existing stored tail =>
    rw [same.catalog] at stored tail
    exact .again r (same.unpublished.draws drawn) existing stored tail
  | added r drawn record new tail =>
    rw [same.catalog] at new tail
    exact .added r (same.unpublished.draws drawn) record new tail

theorem checkParents_ok {index : FileVersionIndex} {parents : List String}
    (passed : checkParents key index parents = .ok ()) :
    ∀ parent ∈ parents, index.versions.has parent = true := by
  unfold checkParents at passed
  split at passed
  · cases passed
  · next absent =>
    intro parent member
    have here := List.find?_eq_none.mp absent parent member
    simpa using here

variable (codec : Codec)

theorem finalizePut_written (s : Store) (new_chunks dedup : Nat) :
    Ensures (finalizePutFromManifestHash codec key manifest_hash options new_chunks dedup) s
      fun _ t => Unpublished s t ∨ ∃ version_id,
        putVersionId options.explicitVersionId (s.world.nanos 0) manifest_hash = .ok version_id ∧
        Written s t key (targetObject s key) manifest_hash version_id options.createSnapshot := by
  unfold finalizePutFromManifestHash
  obtain ⟨t, run, same, nanos⟩ := objectIdOrGenerate_run s key
  refine ensures_bind_ok run (ensures_get ?_)
  rw [same.catalog]
  refine ensures_lift (fun _ _ => .inl same) fun _ passed => ?_
  have parents := checkParents_ok passed
  refine ensures_after (markManifestLocallyOwned_contentOnly codec manifest_hash)
    (fun _ u kept => ?_) fun _ u kept => .inl (same.trans kept.unpublished)
  have clock := (same.trans kept.unpublished).trans (unixTsNanos_unpublished u)
  refine ensures_bind_ok (a := u.world.nanos 0) rfl ?_
  refine ensures_lift (fun _ _ => .inl clock) fun version_id named => ?_
  rw [kept.nanos, nanos] at named
  cases stored : (s.catalog.indexOrEmpty (targetObject s key)).versions.get version_id with
  | some existing =>
    refine ensures_refuseIf (fun _ => .inl clock) fun _ => ensures_map ?_
    obtain ⟨r, drawn, tail⟩ := publish_cases clock key (targetObject s key)
      (s.catalog.indexOrEmpty (targetObject s key)) false options.createSnapshot
      options.createSnapshot
    exact .inr ⟨version_id, named, .again r drawn existing stored tail⟩
  | none =>
    cases reusableHead (s.catalog.indexOrEmpty (targetObject s key)) options
        (requestedParents (s.catalog.indexOrEmpty (targetObject s key)) options) manifest_hash with
    | some head => exact .inl clock
    | none =>
      refine ensures_bind_ok (a := u.world.seconds 0) rfl (ensures_map ?_)
      obtain ⟨r, drawn, tail⟩ := publish_cases (clock.trans (unixTs_unpublished _)) key
        (targetObject s key) _ true options.createSnapshot options.createSnapshot
      exact .inr ⟨version_id, named, .added r drawn _ ⟨rfl, rfl, rfl, rfl, stored, parents⟩ tail⟩

theorem storeChunk_refs (stored : StoredChunks) (chunk : Bytes) (s : Store) :
    Ensures (storeChunk codec stored chunk) s fun result t => SameCatalog s t ∧
      ∀ next, result = .ok next →
        next.refs = stored.refs ++ [⟨hashHex codec chunk, chunk.length⟩] := by
  unfold storeChunk
  refine ensures_after (persistStorageContent_contentOnly codec .chunk (hashHex codec chunk) chunk)
    (fun outcome t kept => ?_) fun _ t kept => ⟨kept, fun _ failed => by cases failed⟩
  refine ensures_ite (fun _ => ?_) fun _ => ?_
  · exact ⟨kept, fun next done => by cases done; rfl⟩
  · exact ⟨kept, fun next done => by cases done; rfl⟩

theorem storeChunks_refs (chunks : List Bytes) :
    ∀ (stored : StoredChunks) (s : Store),
      Ensures (foldEach chunks stored (storeChunk codec)) s fun result t => SameCatalog s t ∧
        ∀ last, result = .ok last → last.refs = stored.refs ++
          chunks.map fun chunk => ⟨hashHex codec chunk, chunk.length⟩ := by
  induction chunks with
  | nil =>
    intro stored s
    exact ⟨sameCatalog_refl s, fun last done => by cases done; simp⟩
  | cons chunk chunks ih =>
    intro stored s
    refine ensures_bind (storeChunk_refs codec stored chunk s) (fun next t first => ?_)
      fun _ t stopped => ⟨stopped.1, fun _ failed => by cases failed⟩
    refine ensures_mono (ih next t) fun result u rest => ?_
    refine ⟨sameCatalog_trans _ _ _ first.1 rest.1, fun last done => ?_⟩
    rw [rest.2 last done, first.2 next rfl]
    simp

def putManifestHash (codec : Codec) (key : String) (payload : Bytes) : String :=
  hashHex codec (codec.encodeManifest (manifestOf codec key payload))

theorem put_written (s : Store) (key : String) (payload : Bytes) (options : PutOptions) :
    Ensures (putObjectVersioned codec key payload options) s
      fun _ t => Unpublished s t ∨ ∃ version_id,
        putVersionId options.explicitVersionId (s.world.nanos 0)
          (putManifestHash codec key payload) = .ok version_id ∧
        Written s t key (targetObject s key) (putManifestHash codec key payload) version_id
          options.createSnapshot := by
  unfold putObjectVersioned
  refine ensures_bind (storeChunks_refs codec (payload.toChunks chunkSize) ⟨[], 0, 0⟩ s)
    (fun stored t first => ?_) fun _ t stopped => .inl stopped.1.unpublished
  have refs : codec.encodeManifest ⟨key, payload.length, stored.refs⟩ =
      codec.encodeManifest (manifestOf codec key payload) := by
    rw [first.2 stored rfl]
    rfl
  rw [refs]
  refine ensures_after (persistStorageContent_contentOnly codec .manifest _ _)
    (fun _ u kept => ?_) fun _ u kept => .inl (first.1.unpublished.trans kept.unpublished)
  have same := sameCatalog_trans _ _ _ first.1 kept
  refine ensures_mono (finalizePut_written codec u _ _) fun _ v result => ?_
  rw [same.nanos, targetObject_same same] at result
  rcases result with before | ⟨version_id, named, written⟩
  · exact .inl (same.unpublished.trans before)
  · exact .inr ⟨version_id, named, written.after same⟩

theorem tombstone_written (s : Store) (key : String) (options : PutOptions) :
    Ensures (tombstoneObjectSingle key options) s fun _ t => Unpublished s t ∨
      Written s t key (targetObject s key) tombstoneManifestHash
        (tombstoneVersionId options.explicitVersionId (s.world.nanos 0)) options.createSnapshot := by
  unfold tombstoneObjectSingle
  obtain ⟨t, run, same, nanos⟩ := objectIdOrGenerate_run s key
  refine ensures_bind_ok run (ensures_get ?_)
  rw [same.catalog]
  refine ensures_lift (fun _ _ => .inl same) fun _ passed => ?_
  have parents := checkParents_ok passed
  have clock := same.trans (unixTsNanos_unpublished t)
  refine ensures_bind_ok (a := t.world.nanos 0) rfl ?_
  rw [nanos]
  dsimp only
  cases stored : (s.catalog.indexOrEmpty (targetObject s key)).versions.get
      (tombstoneVersionId options.explicitVersionId (s.world.nanos 0)) with
  | some existing =>
    refine ensures_refuseIf (fun _ => .inl clock) fun _ => ensures_map ?_
    obtain ⟨r, drawn, tail⟩ := publish_cases clock key (targetObject s key)
      (s.catalog.indexOrEmpty (targetObject s key)) false options.createSnapshot
      options.createSnapshot
    exact .inr (.again r drawn existing stored tail)
  | none =>
    refine ensures_bind_ok (a := t.world.seconds 0) rfl (ensures_map ?_)
    obtain ⟨r, drawn, tail⟩ := publish_cases (clock.trans (unixTs_unpublished _)) key
      (targetObject s key) _ true options.createSnapshot options.createSnapshot
    exact .inr (.added r drawn _ ⟨rfl, rfl, rfl, rfl, stored, parents⟩ tail)

inductive Confirmed (s t : Store) (key version_id : String) : Prop where
  | intro (r : Readings) (drawn : Draws s t r.uuid) (object_id : String) (index : FileVersionIndex)
      (version : FileVersionRecord)
      (bound : objectIdForKey s.catalog.current key = some object_id)
      (loaded : s.catalog.loadVersionIndex object_id = some index)
      (stored : index.versions.get version_id = some version)
      (provisional : version.state ≠ .confirmed)
      (tail : Republished r s.catalog key object_id (confirmedIndex index version) true true true
        t.catalog)

theorem commit_confirmed (s : Store) (key version_id : String) :
    Ensures (commitVersion key version_id) s fun _ t =>
      Unpublished s t ∨ Confirmed s t key version_id := by
  unfold commitVersion
  refine ensures_get ?_
  dsimp only
  cases shown : objectIdForKey s.catalog.current key with
  | none => exact .inl (unpublished_refl s)
  | some object_id =>
    dsimp only
    cases loaded : s.catalog.loadVersionIndex object_id with
    | none => exact .inl (unpublished_refl s)
    | some index =>
      dsimp only
      cases stored : index.versions.get version_id with
      | none => exact .inl (unpublished_refl s)
      | some version =>
        refine ensures_ite (fun _ => .inl (unpublished_refl s)) fun provisional => ensures_map ?_
        obtain ⟨r, drawn, tail⟩ := publish_cases (unpublished_refl s) key object_id
          (confirmedIndex index version) true true true
        exact .inr ⟨r, drawn, object_id, index, version, shown, loaded, stored, provisional, tail⟩

end Effects

end BerryKeepStoreOperations
