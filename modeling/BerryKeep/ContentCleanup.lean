import Mathlib.Data.Finset.Card
import BerryKeep.StorageRelocation
import BerryKeep.StoreCalls

/-!
Garbage collection of payload files. A sweep removes the manifest files that
nothing refers to, loads every manifest it retains to learn which chunks are
in use, and removes the other chunk files. A manifest on a path that is not
there cannot be loaded and is passed over, so the chunks it lists are only as
safe as the other manifests that list them.
-/
namespace BerryKeepContentCleanup
open FiniteTable TextOperations StatefulProgram BerryKeepContentCodec BerryKeepStoragePool
  BerryKeepStorageRelocation BerryKeepVersionGraph BerryKeepCatalog BerryKeepNodeStore
  BerryKeepStoreCalls

def chunkAtomicTempMinRetentionSecs : Nat := 10 * 60

def gcManifestLoadBatchSize : Nat := 500

def littleEndianU64 (n : Nat) : Bytes :=
  (List.range 8).map fun i => UInt8.ofNat (n / 256 ^ i % 256)

def contentFingerprintFromManifest (codec : Codec) (manifest : ObjectManifest) : String :=
  "cfp-" ++ hashHex codec (textBytes "ironmesh-content-fingerprint-v1" ++
    littleEndianU64 manifest.totalSizeBytes ++
    manifest.chunks.flatMap fun chunk => textBytes chunk.hash ++ littleEndianU64 chunk.sizeBytes)

def manifestHashOfFile (name : String) : Option String :=
  match rsplitOnce name '.' with
  | some (stem, "json") => if manifestHashLooksSafeFilename stem then some stem else none
  | _ => none

def isAtomicChunkTempFileName (name : String) : Bool :=
  match splitOnce name ".tmp-" with
  | some (hash, suffix) => manifestHashLooksSafeFilename hash && suffix ≠ ""
  | none => false

def visibleFiles (st : ContentStore) : List FilePath :=
  st.disk.keys.filter fun file => st.mounted file.pathId &&
    st.pool.paths.any fun p => p.available && p.config.id == file.pathId

def listManifestPaths (st : ContentStore) : List FilePath :=
  (visibleFiles st).filter fun file =>
    file.area = .manifest && file.dirs = [] && (manifestHashOfFile file.name).isSome

/-- The hash that a chunk file is named by; the left-over of an atomic write has none. -/
def chunkFileHash (name : String) : Option (Option String) :=
  if manifestHashLooksSafeFilename name then some (some name)
  else if isAtomicChunkTempFileName name then some none
  else none

def collectChunkFilePaths (st : ContentStore) : List (FilePath × Option String) :=
  ((visibleFiles st).filter fun file => file.area = .chunk).filterMap fun file =>
    (chunkFileHash file.name).map fun hash => (file, hash)

def collectReferencedManifestHashes (c : Catalog) : IterSet String :=
  IterSet.ofList ((c.current.values.map fun entry => entry.manifestHash) ++
    (c.loadAllVersionIndexes.flatMap fun index =>
      index.versions.values.map fun record => record.manifestHash) ++
    c.snapshots.values.flatMap fun snapshot => snapshot.objects.values)

structure CleanupProtectionSnapshot where
  recoveryTasks : List ContentRepairTask
  referencedManifests : IterSet String
  ownedReferencedManifests : IterSet String
  cachedChunkRecords : IterSet String

def cleanupProtectionSnapshot (s : Store) (referenced_manifests : IterSet String) :
    CleanupProtectionSnapshot where
  recoveryTasks := s.repairTasks
  referencedManifests := referenced_manifests
  ownedReferencedManifests :=
    IterSet.ofList (referenced_manifests.items.filter fun hash => s.ownedManifests.contains hash)
  cachedChunkRecords := s.cachedChunks

def CleanupProtectionSnapshot.recoveryManifests (protection : CleanupProtectionSnapshot) :
    IterSet String :=
  IterSet.ofList (protection.recoveryTasks.map fun task => task.manifestHash)

def CleanupProtectionSnapshot.recoveryChunks (protection : CleanupProtectionSnapshot) :
    Finset String :=
  (protection.recoveryTasks.flatMap fun task => task.chunks.map fun chunk => chunk.hash).toFinset

-- A time before the epoch counts as no age at all.
def fileAgeSecs (now : Nat) (metadata : FileEntry) : Nat :=
  if metadata.modifiedUnix < 0 then 0 else now - metadata.modifiedUnix.toNat

def removeIndexedFile (st : ContentStore) (kind : StorageContentKind) (hash : String)
    (file : FilePath) : Bool × ContentStore :=
  let st := st.removeFile file
  let (removed_indexed_location, pool) := st.pool.forgetLocationAtPath kind hash file
  let st := { st with pool := pool }
  (removed_indexed_location,
    if removed_indexed_location then st.deleteStorageLocation kind hash else st)

structure ManifestSweep where
  store : Store
  retainedManifests : IterSet String
  skippedRecentManifests : Nat
  deletedManifests : Nat

def sweepManifest (protection : CleanupProtectionSnapshot) (retention_secs now : Nat)
    (dry_run : Bool) (sweep : ManifestSweep) (manifest_path : FilePath) : ManifestSweep :=
  match manifestHashOfFile manifest_path.name with
  | none => sweep
  | some manifest_hash =>
    if protection.referencedManifests.contains manifest_hash ||
        protection.recoveryManifests.contains manifest_hash then sweep
    else match sweep.store.content.fileAt manifest_path with
      | none => sweep
      | some metadata =>
        if fileAgeSecs now metadata < retention_secs then
          { sweep with
            retainedManifests := sweep.retainedManifests.insert manifest_hash
            skippedRecentManifests := sweep.skippedRecentManifests + 1 }
        else if dry_run then sweep
        else
          let (removed_indexed_location, content) :=
            removeIndexedFile sweep.store.content .manifest manifest_hash manifest_path
          let owned := sweep.store.ownedManifests
          { sweep with
            store := { sweep.store with
              content := content
              ownedManifests := if removed_indexed_location then owned.erase manifest_hash else owned }
            deletedManifests := sweep.deletedManifests + 1 }

def protectManifest (codec : Codec) (st : ContentStore) (owned_referenced_manifests : IterSet String)
    (found : Finset String × Finset String) (manifest_hash : String) :
    Except StoreError (Finset String × Finset String) := do
  let some manifest ← loadManifestByHash codec st manifest_hash | return found
  let fingerprints := insert (contentFingerprintFromManifest codec manifest) found.2
  if owned_referenced_manifests.contains manifest_hash then
    return (found.1 ∪ (manifest.chunks.map fun chunk => chunk.hash).toFinset, fingerprints)
  else return (found.1, fingerprints)

structure ChunkSweep where
  store : Store
  skippedRecentChunks : Nat
  deletedChunks : Nat
  deletedCachedChunks : Nat
  deletedCachedChunkRecords : Nat

def requiredRetentionSecs (retention_secs : Nat) (chunk_hash : Option String) : Nat :=
  if chunk_hash.isSome then retention_secs
  else max retention_secs chunkAtomicTempMinRetentionSecs

def sweepChunk (protected_chunks : Finset String) (cached_chunk_hashes : IterSet String)
    (retention_secs now : Nat) (dry_run : Bool) (sweep : ChunkSweep)
    (item : FilePath × Option String) : ChunkSweep :=
  let (chunk_path, chunk_hash) := item
  if ∃ hash ∈ chunk_hash, hash ∈ protected_chunks then sweep
  else match sweep.store.content.fileAt chunk_path with
    | none => sweep
    | some metadata =>
      if fileAgeSecs now metadata < requiredRetentionSecs retention_secs chunk_hash then
        { sweep with skippedRecentChunks := sweep.skippedRecentChunks + 1 }
      else if dry_run then sweep
      else match chunk_hash with
        | none =>
          { sweep with
            store := { sweep.store with content := sweep.store.content.removeFile chunk_path }
            deletedChunks := sweep.deletedChunks + 1 }
        | some hash =>
          let (removed_indexed_location, content) :=
            removeIndexedFile sweep.store.content .chunk hash chunk_path
          let store := { sweep.store with content := content }
          if removed_indexed_location && cached_chunk_hashes.contains hash then
            { sweep with
              store := { store with cachedChunks := store.cachedChunks.erase hash }
              deletedChunks := sweep.deletedChunks + 1
              deletedCachedChunks := sweep.deletedCachedChunks + 1
              deletedCachedChunkRecords := sweep.deletedCachedChunkRecords + 1 }
          else { sweep with store := store, deletedChunks := sweep.deletedChunks + 1 }

/-- A cache record goes when its chunk is owned now or no longer there. -/
def reapCachedChunkRecord (owned_referenced_chunks : Finset String) (deleted : Nat)
    (hash : String) : StoreM Nat := do
  let forget : StoreM Unit := modify fun s => { s with cachedChunks := s.cachedChunks.erase hash }
  if hash ∈ owned_referenced_chunks then
    forget
    return deleted + 1
  else
    let content := (← get).content
    let chunk_path ← lift (content.pool.contentPath .chunk hash)
    match content.fileAt chunk_path with
    | none =>
      forget
      return deleted + 1
    | some _ => return deleted

structure CleanupReport where
  retentionSecs : Nat
  dryRun : Bool
  protectedManifests : Nat
  protectedChunks : Nat
  trackedCachedChunks : Nat
  skippedRecentManifests : Nat
  skippedRecentChunks : Nat
  deletedManifests : Nat
  deletedChunks : Nat
  deletedCachedChunks : Nat
  deletedCachedChunkRecords : Nat
  retainedManifestsProcessed : Nat
  peakManifestBatchSize : Nat
  deriving DecidableEq, Repr

/-- The manifest files that are too recent to reap are retained as well. -/
def sweepManifests (protection : CleanupProtectionSnapshot) (retention_secs now : Nat)
    (dry_run : Bool) (s : Store) : ManifestSweep :=
  let retained := IterSet.ofList
    (protection.referencedManifests.items ++ protection.recoveryManifests.items)
  (listManifestPaths s.content).foldl (sweepManifest protection retention_secs now dry_run)
    ⟨s, retained, 0, 0⟩

def sweepChunks (protected_chunks : Finset String) (cached_chunk_hashes : IterSet String)
    (retention_secs now : Nat) (dry_run : Bool) (s : Store) : ChunkSweep :=
  (collectChunkFilePaths s.content).foldl
    (sweepChunk protected_chunks cached_chunk_hashes retention_secs now dry_run) ⟨s, 0, 0, 0, 0⟩

def cleanupUnreferenced (codec : Codec) (retention_secs : Nat) (dry_run : Bool) :
    StoreM CleanupReport := do
  let start ← get
  let protection :=
    cleanupProtectionSnapshot start (collectReferencedManifestHashes start.catalog)
  let now ← unixTs
  let manifests := sweepManifests protection retention_secs now dry_run (← get)
  set manifests.store
  let retained := manifests.retainedManifests
  -- The batches only bound how many manifests are in memory at a time.
  let peak_manifest_batch_size := min retained.size gcManifestLoadBatchSize
  let (owned_referenced_chunks, protected_media_fingerprints) ← lift (retained.items.foldlM
    (protectManifest codec manifests.store.content protection.ownedReferencedManifests) (∅, ∅))
  let protected_chunks := protection.recoveryChunks ∪ owned_referenced_chunks
  let chunks := sweepChunks protected_chunks protection.cachedChunkRecords retention_secs now
    dry_run manifests.store
  set chunks.store
  let records := if dry_run then [] else protection.cachedChunkRecords.items
  let deleted_cached_chunk_records ← foldEach records chunks.deletedCachedChunkRecords
    (reapCachedChunkRecord owned_referenced_chunks)
  onlyIf (!dry_run) (modify fun s => { s with
    mediaFingerprints := IterSet.ofList (s.mediaFingerprints.items.filter fun fingerprint =>
      fingerprint ∈ protected_media_fingerprints) })
  return {
    retentionSecs := retention_secs
    dryRun := dry_run
    protectedManifests := protection.referencedManifests.size
    protectedChunks := protected_chunks.card
    trackedCachedChunks := protection.cachedChunkRecords.size
    skippedRecentManifests := manifests.skippedRecentManifests
    skippedRecentChunks := chunks.skippedRecentChunks
    deletedManifests := manifests.deletedManifests
    deletedChunks := chunks.deletedChunks
    deletedCachedChunks := chunks.deletedCachedChunks
    deletedCachedChunkRecords := deleted_cached_chunk_records
    retainedManifestsProcessed := retained.size
    peakManifestBatchSize := peak_manifest_batch_size }

section Files
variable {kind k : StorageContentKind} {hash h : String} {a b c st : ContentStore} {file : FilePath}

def Belongs (kind : StorageContentKind) (hash : String) (file : FilePath) : Prop :=
  file.area = kind ∧ file.name = match kind with
    | .chunk => hash
    | .manifest => hash ++ ".json"

theorem belongs_unique (first : Belongs kind hash file) (second : Belongs k h file) :
    (k, h) = (kind, hash) := by
  obtain ⟨area, name⟩ := first
  obtain ⟨area', name'⟩ := second
  rw [area] at area'
  subst area'
  cases kind with
  | chunk => rw [name] at name'; cases name'; rfl
  | manifest =>
    rw [name] at name'
    rw [(String.append_left_inj _).mp name']

theorem contentPath_belongs {path_id : String}
    (placed : contentPathInRuntime path_id kind hash = .ok file) : Belongs kind hash file := by
  unfold contentPathInRuntime at placed
  cases kind with
  | chunk =>
    simp only at placed
    split at placed
    · cases placed; exact ⟨rfl, rfl⟩
    · cases placed
  | manifest =>
    simp only at placed
    split at placed
    · cases placed; exact ⟨rfl, rfl⟩
    · cases placed

theorem manifestHash_name {name : String} (named : manifestHashOfFile name = some hash) :
    name = hash ++ ".json" := by
  unfold manifestHashOfFile at named
  split at named
  · next stem found =>
    split at named
    · cases named
      rw [← rsplitOnce_append found, String.append_assoc]
      rfl
    · cases named
  · cases named

structure SameReads (kind : StorageContentKind) (hash : String) (a b : ContentStore) : Prop where
  paths : b.pool.paths = a.pool.paths
  mounted : b.mounted = a.mounted
  location : b.pool.locations.get (kind, hash) = a.pool.locations.get (kind, hash)
  files : ∀ file, Belongs kind hash file → b.disk.get file = a.disk.get file

theorem SameReads.symm (same : SameReads kind hash a b) : SameReads kind hash b a where
  paths := same.paths.symm
  mounted := same.mounted.symm
  location := same.location.symm
  files file own := (same.files file own).symm

structure Untouched (kind : StorageContentKind) (hash : String) (a b : ContentStore) : Prop
    extends SameReads kind hash a b where
  record : b.records.get (kind, hash) = a.records.get (kind, hash)

theorem untouched_refl : Untouched kind hash a a := ⟨⟨rfl, rfl, rfl, fun _ _ => rfl⟩, rfl⟩

theorem Untouched.trans (first : Untouched kind hash a b) (next : Untouched kind hash b c) :
    Untouched kind hash a c where
  paths := next.paths.trans first.paths
  mounted := next.mounted.trans first.mounted
  location := next.location.trans first.location
  files := fun file own => (next.files file own).trans (first.files file own)
  record := next.record.trans first.record

theorem sameReads_fileAt (same : SameReads kind hash a b) (own : Belongs kind hash file) :
    b.fileAt file = a.fileAt file := by
  unfold ContentStore.fileAt
  rw [same.mounted, same.files file own]

theorem sameReads_contentPath (same : SameReads kind hash a b) :
    b.pool.contentPath kind hash = a.pool.contentPath kind hash := by
  unfold StoragePool.contentPath StoragePool.readPath
  rw [same.location, legacyReadPath_congr same.paths]
  have path : b.pool.path = a.pool.path := funext (path_congr same.paths)
  rw [path]

theorem contentPath_ok (placed : st.pool.contentPath kind hash = .ok file) :
    Belongs kind hash file := by
  unfold StoragePool.contentPath at placed
  split at placed
  · exact contentPath_belongs placed
  · cases placed

theorem sameReads_load (codec : Codec) (same : SameReads .manifest hash a b) :
    loadManifestByHash codec b hash = loadManifestByHash codec a hash := by
  unfold loadManifestByHash
  rw [sameReads_contentPath same]
  split
  · rfl
  · cases placed : a.pool.contentPath .manifest hash with
    | error error => rfl
    | ok file =>
      simp only
      rw [sameReads_fileAt same (contentPath_ok placed)]

theorem sameReads_readable (codec : Codec) (same : SameReads kind hash a b)
    (readable : Readable codec a kind hash) : Readable codec b kind hash := by
  obtain ⟨file, entry, placed, found, bytes⟩ := readable
  refine ⟨file, entry, ?_, ?_, bytes⟩
  · rw [sameReads_contentPath same, placed]
  · rw [sameReads_fileAt same (contentPath_ok placed), found]

theorem forget_locations (pool : StoragePool) (key : ContentKey) :
    (pool.forgetLocationAtPath kind hash file).2.locations.get key =
      if key = (kind, hash) ∧ (pool.forgetLocationAtPath kind hash file).1 = true then none
      else pool.locations.get key := by
  unfold StoragePool.forgetLocationAtPath
  cases (pool.locations.get (kind, hash)).bind pool.path with
  | none => simp
  | some p =>
    cases placed : contentPathInRuntime p.config.id kind hash with
    | error error => simp [placed]
    | ok indexed =>
      by_cases here : indexed = file
      · simp [placed, here, get_del]
      · simp [placed, here]

theorem forget_points (pool : StoragePool) :
    (pool.forgetLocationAtPath kind hash file).1 =
      ((pool.locations.get (kind, hash)).bind pool.path).any fun path =>
        decide ((contentPathInRuntime path.config.id kind hash).toOption = some file) := by
  unfold StoragePool.forgetLocationAtPath
  cases (pool.locations.get (kind, hash)).bind pool.path with
  | none => rfl
  | some path =>
    cases placed : contentPathInRuntime path.config.id kind hash with
    | error error => simp [placed, Except.toOption]
    | ok indexed =>
      by_cases here : indexed = file
      · simp [placed, here, Except.toOption]
      · simp [placed, here, Except.toOption]

theorem forget_paths (pool : StoragePool) :
    (pool.forgetLocationAtPath kind hash file).2.paths = pool.paths := by
  unfold StoragePool.forgetLocationAtPath
  split
  · rfl
  · split
    · rfl
    · split <;> rfl

theorem removeIndexed_disk (f : FilePath) :
    (removeIndexedFile st kind hash file).2.disk.get f =
      if f = file then none else st.disk.get f := by
  rw [← get_del]
  unfold removeIndexedFile
  dsimp only
  split <;> rfl

theorem removeIndexed_pool :
    (removeIndexedFile st kind hash file).2.pool =
      (st.pool.forgetLocationAtPath kind hash file).2 := by
  unfold removeIndexedFile
  dsimp only
  split <;> rfl

theorem removeIndexed_mounted : (removeIndexedFile st kind hash file).2.mounted = st.mounted := by
  unfold removeIndexedFile
  dsimp only
  split <;> rfl

theorem removeIndexed_untouched (own : Belongs kind hash file) (other : (k, h) ≠ (kind, hash)) :
    Untouched k h st (removeIndexedFile st kind hash file).2 where
  paths := by rw [removeIndexed_pool, forget_paths]
  mounted := removeIndexed_mounted
  location := by
    rw [removeIndexed_pool, forget_locations, if_neg fun same => other same.1]
  files := by
    intro f belongs
    rw [removeIndexed_disk, if_neg]
    rintro rfl
    exact other (belongs_unique own belongs)
  record := by
    unfold removeIndexedFile
    dsimp only
    split
    · exact get_del_other _ other
    · rfl

theorem removeFile_untouched (foreign : ¬Belongs k h file) : Untouched k h st (st.removeFile file) := by
  refine ⟨⟨rfl, rfl, rfl, fun f belongs => get_del_other _ ?_⟩, rfl⟩
  rintro rfl
  exact foreign belongs

end Files

section Manifests
variable (p : CleanupProtectionSnapshot) (r now : Nat)

def manifestAge (st : ContentStore) (file : FilePath) : Option (String × Nat) :=
  (manifestHashOfFile file.name).bind fun hash =>
    if p.referencedManifests.contains hash || p.recoveryManifests.contains hash then none
    else (st.fileAt file).map fun metadata => (hash, fileAgeSecs now metadata)

def isExpired (st : ContentStore) (file : FilePath) : Bool :=
  (manifestAge p now st file).any fun found => decide (r ≤ found.2)

def forgottenKey (st : ContentStore) (file : FilePath) : Option ContentKey :=
  (manifestAge p now st file).bind fun found =>
    if r ≤ found.2 ∧ (st.pool.forgetLocationAtPath .manifest found.1 file).1 = true then
      some (.manifest, found.1)
    else none

def withoutExpired (st : ContentStore) : ContentStore :=
  { st with
    disk := st.disk.delAll ((listManifestPaths st).filter (isExpired p r now st))
    pool := { st.pool with
      locations := st.pool.locations.delAll
        ((listManifestPaths st).filterMap (forgottenKey p r now st)) } }

def IsRetained (st : ContentStore) (hash : String) : Prop :=
  hash ∈ p.referencedManifests.items ∨ hash ∈ p.recoveryManifests.items ∨
    ∃ file ∈ listManifestPaths st, ∃ age, manifestAge p now st file = some (hash, age) ∧ age < r

structure ManifestProgress (st : ContentStore) (done : List FilePath) (sweep : ManifestSweep) :
    Prop where
  paths : sweep.store.content.pool.paths = st.pool.paths
  mounted : sweep.store.content.mounted = st.mounted
  disk : ∀ file, sweep.store.content.disk.get file =
    if file ∈ done.filter (isExpired p r now st) then none else st.disk.get file
  location : ∀ key, sweep.store.content.pool.locations.get key =
    if key ∈ done.filterMap (forgottenKey p r now st) then none else st.pool.locations.get key
  retained : ∀ hash, hash ∈ sweep.retainedManifests.items ↔
    hash ∈ p.referencedManifests.items ∨ hash ∈ p.recoveryManifests.items ∨
      ∃ file ∈ done, ∃ age, manifestAge p now st file = some (hash, age) ∧ age < r

variable {p r now} {st : ContentStore} {done : List FilePath} {sweep : ManifestSweep}
  {file : FilePath}

variable {hash : String}

variable {age : Nat}

theorem manifestAge_belongs
    (found : manifestAge p now st file = some (hash, age)) (listed : file.area = .manifest) :
    Belongs .manifest hash file ∧ hash ∉ p.referencedManifests.items ∧
      hash ∉ p.recoveryManifests.items := by
  unfold manifestAge at found
  rw [Option.bind_eq_some_iff] at found
  obtain ⟨stem, named, rest⟩ := found
  split at rest
  · cases rest
  · next unprotected =>
    obtain ⟨metadata, _, same⟩ := Option.map_eq_some_iff.mp rest
    cases same
    simp only [Bool.or_eq_true, contains_iff, not_or] at unprotected
    exact ⟨⟨listed, manifestHash_name named⟩, unprotected⟩

theorem sweepManifest_eq (sweep : ManifestSweep) (file : FilePath) :
    sweepManifest p r now false sweep file =
      match manifestAge p now sweep.store.content file with
      | none => sweep
      | some (hash, age) =>
        if age < r then
          { sweep with
            retainedManifests := sweep.retainedManifests.insert hash
            skippedRecentManifests := sweep.skippedRecentManifests + 1 }
        else
          { sweep with
            store := { sweep.store with
              content := (removeIndexedFile sweep.store.content .manifest hash file).2
              ownedManifests :=
                if (removeIndexedFile sweep.store.content .manifest hash file).1 then
                  sweep.store.ownedManifests.erase hash
                else sweep.store.ownedManifests }
            deletedManifests := sweep.deletedManifests + 1 } := by
  unfold sweepManifest manifestAge
  cases manifestHashOfFile file.name with
  | none => rfl
  | some hash =>
    simp only [Option.bind_some]
    split
    · rfl
    · cases sweep.store.content.fileAt file with
      | none => rfl
      | some metadata => rfl

theorem progress_age (progress : ManifestProgress p r now st done sweep) (file : FilePath) :
    manifestAge p now sweep.store.content file =
      if file ∈ done.filter (isExpired p r now st) then none else manifestAge p now st file := by
  have found : sweep.store.content.fileAt file =
      if file ∈ done.filter (isExpired p r now st) then none else st.fileAt file := by
    unfold ContentStore.fileAt
    rw [progress.mounted, progress.disk]
    split <;> split <;> rfl
  unfold manifestAge
  rw [found]
  split
  · cases manifestHashOfFile file.name <;> simp
  · rfl

theorem exists_concat {P : FilePath → Prop} :
    (∃ f ∈ done ++ [file], P f) ↔ (∃ f ∈ done, P f) ∨ P file := by
  simp [or_and_right, exists_or]

theorem progress_same (progress : ManifestProgress p r now st done sweep)
    (expired : isExpired p r now st file = true → file ∈ done)
    (recent : ∀ hash age, manifestAge p now st file = some (hash, age) → r ≤ age) :
    ManifestProgress p r now st (done ++ [file]) sweep := by
  refine ⟨progress.paths, progress.mounted, fun f => ?_, fun key => ?_, fun hash => ?_⟩
  · have same : f ∈ (done ++ [file]).filter (isExpired p r now st) ↔
        f ∈ done.filter (isExpired p r now st) := by
      simp only [List.mem_filter, List.mem_append, List.mem_singleton]
      constructor
      · rintro ⟨member | rfl, old⟩
        · exact ⟨member, old⟩
        · exact ⟨expired old, old⟩
      · rintro ⟨member, old⟩
        exact ⟨.inl member, old⟩
    rw [progress.disk]
    simp only [same]
  · have same : key ∈ (done ++ [file]).filterMap (forgottenKey p r now st) ↔
        key ∈ done.filterMap (forgottenKey p r now st) := by
      rw [List.filterMap_append, List.mem_append]
      refine ⟨?_, .inl⟩
      rintro (before | last)
      · exact before
      · rw [List.mem_filterMap] at last
        obtain ⟨f, here, forgotten⟩ := last
        rw [List.mem_singleton] at here
        subst here
        refine List.mem_filterMap.mpr ⟨f, expired ?_, forgotten⟩
        unfold forgottenKey at forgotten
        unfold isExpired
        obtain ⟨found, aged, rest⟩ := Option.bind_eq_some_iff.mp forgotten
        split at rest
        · next both => simp [aged, both.1]
        · cases rest
    rw [progress.location]
    simp only [same]
  · have none_new : ¬∃ age, manifestAge p now st file = some (hash, age) ∧ age < r := by
      rintro ⟨age, aged, young⟩
      have old := recent hash age aged
      omega
    rw [progress.retained, exists_concat]
    simp only [none_new, or_false]

theorem progress_recent (progress : ManifestProgress p r now st done sweep)
    (aged : manifestAge p now st file = some (hash, age)) (young : age < r) :
    ManifestProgress p r now st (done ++ [file])
      { sweep with
        retainedManifests := sweep.retainedManifests.insert hash
        skippedRecentManifests := sweep.skippedRecentManifests + 1 } := by
  have old : isExpired p r now st file = false := by
    simp [isExpired, aged]
    omega
  have unforgotten : forgottenKey p r now st file = none := by
    have late : ¬r ≤ age := by omega
    simp [forgottenKey, aged, late]
  refine ⟨progress.paths, progress.mounted, fun f => ?_, fun key => ?_, fun other => ?_⟩
  · rw [List.filter_append]
    simp [old, progress.disk]
  · rw [List.filterMap_append]
    simp [unforgotten, progress.location]
  · have new : (∃ age, manifestAge p now st file = some (other, age) ∧ age < r) ↔
        other = hash := by
      rw [aged]
      constructor
      · rintro ⟨_, known, _⟩
        cases known
        rfl
      · rintro rfl
        exact ⟨age, rfl, young⟩
    rw [mem_insert, progress.retained, exists_concat, new]
    simp only [or_comm, or_left_comm]

theorem progress_forgets (progress : ManifestProgress p r now st done sweep) :
    (sweep.store.content.pool.forgetLocationAtPath .manifest hash file).1 =
      if (StorageContentKind.manifest, hash) ∈ done.filterMap (forgottenKey p r now st) then false
      else (st.pool.forgetLocationAtPath .manifest hash file).1 := by
  rw [forget_points, forget_points, progress.location, funext (path_congr progress.paths)]
  split <;> rfl

theorem progress_expired (progress : ManifestProgress p r now st done sweep)
    (aged : manifestAge p now st file = some (hash, age)) (late : r ≤ age)
    (store : Store)
    (content : store.content = (removeIndexedFile sweep.store.content .manifest hash file).2)
    (deleted : Nat) :
    ManifestProgress p r now st (done ++ [file])
      { sweep with store := store, deletedManifests := deleted } := by
  have old : isExpired p r now st file = true := by
    simp [isExpired, aged, late]
  refine ⟨?_, ?_, fun f => ?_, fun key => ?_, fun other => ?_⟩
  · dsimp only
    rw [content, removeIndexed_pool, forget_paths, progress.paths]
  · dsimp only
    rw [content, removeIndexed_mounted, progress.mounted]
  · dsimp only
    rw [content, removeIndexed_disk, progress.disk, List.filter_append]
    by_cases here : f = file
    · simp [here, old]
    · simp [here, old]
  · dsimp only
    rw [content, removeIndexed_pool, forget_locations, progress_forgets progress, progress.location,
      List.filterMap_append]
    by_cases here : key = (.manifest, hash)
    · subst here
      simp only [List.mem_append, true_and]
      by_cases before : (StorageContentKind.manifest, hash) ∈
          done.filterMap (forgottenKey p r now st)
      · simp [before]
      · by_cases points : (st.pool.forgetLocationAtPath .manifest hash file).1 = true
        · simp [before, points, forgottenKey, aged, late]
        · simp [before, points, forgottenKey, aged]
    · have other : key ∉ [file].filterMap (forgottenKey p r now st) := by
        intro member
        simp only [List.mem_filterMap, List.mem_singleton, exists_eq_left, forgottenKey, aged,
          Option.bind_some] at member
        split at member
        · cases member
          exact here rfl
        · cases member
      simp [here, other]
  · have none_new : ¬∃ age, manifestAge p now st file = some (other, age) ∧ age < r := by
      rintro ⟨_, known, young⟩
      rw [aged] at known
      cases known
      omega
    rw [progress.retained, exists_concat]
    simp only [none_new, or_false]

theorem sweepManifest_progress (done : List FilePath) (file : FilePath) (sweep : ManifestSweep)
    (progress : ManifestProgress p r now st done sweep) :
    ManifestProgress p r now st (done ++ [file]) (sweepManifest p r now false sweep file) := by
  rw [sweepManifest_eq, progress_age progress]
  by_cases again : file ∈ done.filter (isExpired p r now st)
  · rw [if_pos again]
    obtain ⟨member, old⟩ := List.mem_filter.mp again
    refine progress_same progress (fun _ => member) fun hash age aged => ?_
    simpa [isExpired, aged] using old
  · rw [if_neg again]
    cases aged : manifestAge p now st file with
    | none =>
      refine progress_same progress (fun old => ?_) fun hash age known => ?_
      · simp [isExpired, aged] at old
      · rw [aged] at known
        cases known
    | some found =>
      obtain ⟨hash, age⟩ := found
      dsimp only
      split
      · exact progress_recent progress aged ‹_›
      · exact progress_expired progress aged (by omega) _ rfl _

theorem sweepManifests_progress (s : Store) :
    ManifestProgress p r now s.content (listManifestPaths s.content)
      (sweepManifests p r now false s) := by
  apply foldl_invariant (ManifestProgress p r now s.content) sweepManifest_progress
  refine ⟨rfl, rfl, fun file => ?_, fun key => ?_, fun hash => ?_⟩
  · simp
  · simp
  · simp

theorem sweepManifests_retained (s : Store) (hash : String) :
    hash ∈ (sweepManifests p r now false s).retainedManifests.items ↔
      IsRetained p r now s.content hash :=
  (sweepManifests_progress s).retained hash

theorem sweepManifests_load (codec : Codec) (s : Store) (hash : String) :
    loadManifestByHash codec (sweepManifests p r now false s).store.content hash =
      loadManifestByHash codec (withoutExpired p r now s.content) hash := by
  have progress : ManifestProgress p r now s.content _ _ := sweepManifests_progress s
  have same : SameReads .manifest hash (withoutExpired p r now s.content)
      (sweepManifests p r now false s).store.content := by
    refine ⟨progress.paths, progress.mounted, ?_, fun file _ => ?_⟩
    · rw [progress.location]
      simp only [withoutExpired, get_delAll]
      congr
    · rw [progress.disk]
      simp only [withoutExpired, get_delAll]
  exact sameReads_load codec same

theorem sweepManifests_untouched {kind : StorageContentKind} (s : Store)
    (safe : kind = .manifest →
      hash ∈ p.referencedManifests.items ∨ hash ∈ p.recoveryManifests.items) :
    Untouched kind hash s.content (sweepManifests p r now false s).store.content := by
  unfold sweepManifests
  refine List.foldlRecOn (motive := fun sweep : ManifestSweep =>
    Untouched kind hash s.content sweep.store.content) _ _ untouched_refl ?_
  intro sweep before file listed
  have area : file.area = .manifest := by
    have kept := (List.mem_filter.mp listed).2
    simp only [Bool.and_eq_true, decide_eq_true_eq] at kept
    exact kept.1.1
  rw [sweepManifest_eq]
  cases aged : manifestAge p now sweep.store.content file with
  | none => exact before
  | some found =>
    obtain ⟨own, unreferenced, unneeded⟩ := manifestAge_belongs aged area
    dsimp only
    split
    · exact before
    · apply before.trans
      apply removeIndexed_untouched own
      intro same
      cases same
      rcases safe rfl with referenced | needed
      · exact unreferenced referenced
      · exact unneeded needed

theorem sweepManifests_chunks {s begun : Store} (same : begun.content = s.content) (hash : String) :
    Untouched .chunk hash s.content (sweepManifests p r now false begun).store.content := by
  rw [← same]
  exact sweepManifests_untouched begun (by simp)

end Manifests

section Loading
variable {codec : Codec} {st : ContentStore} {owned : IterSet String}

def ProtectsChunk (codec : Codec) (st : ContentStore) (owned : IterSet String)
    (hash chunk_hash : String) : Prop :=
  hash ∈ owned.items ∧ ∃ manifest, loadManifestByHash codec st hash = .ok (some manifest) ∧
    ∃ chunk ∈ manifest.chunks, chunk.hash = chunk_hash

theorem protectManifest_cases (found : Finset String × Finset String) (hash : String) :
    (∃ error, protectManifest codec st owned found hash = .error error ∧
      loadManifestByHash codec st hash = .error error) ∨
    ∃ result, protectManifest codec st owned found hash = .ok result ∧
      (∀ error, loadManifestByHash codec st hash ≠ .error error) ∧
      ∀ chunk_hash, chunk_hash ∈ result.1 ↔
        chunk_hash ∈ found.1 ∨ ProtectsChunk codec st owned hash chunk_hash := by
  unfold protectManifest ProtectsChunk
  cases loadManifestByHash codec st hash with
  | error error => exact .inl ⟨error, rfl, rfl⟩
  | ok loaded =>
    right
    cases loaded with
    | none => exact ⟨found, rfl, by simp, by simp⟩
    | some manifest =>
      by_cases own : hash ∈ owned.items
      · refine ⟨(found.1 ∪ (manifest.chunks.map fun chunk => chunk.hash).toFinset,
          insert (contentFingerprintFromManifest codec manifest) found.2), ?_, by simp, ?_⟩
        · rw [← contains_iff] at own
          simp only [own]
          rfl
        · intro chunk_hash
          simp [own]
      · refine ⟨(found.1, insert (contentFingerprintFromManifest codec manifest) found.2), ?_,
          by simp, by simp [own]⟩
        rw [← contains_iff, Bool.not_eq_true] at own
        simp only [own]
        rfl

theorem protectManifests_cases (codec : Codec) (st : ContentStore) (owned : IterSet String)
    (hashes : List String) :
    ∀ found : Finset String × Finset String,
      (∃ error, hashes.foldlM (protectManifest codec st owned) found = .error error ∧
        ∃ hash ∈ hashes, ∃ error, loadManifestByHash codec st hash = .error error) ∨
      ∃ result, hashes.foldlM (protectManifest codec st owned) found = .ok result ∧
        (∀ hash ∈ hashes, ∀ error, loadManifestByHash codec st hash ≠ .error error) ∧
        ∀ chunk_hash, chunk_hash ∈ result.1 ↔ chunk_hash ∈ found.1 ∨
          ∃ hash ∈ hashes, ProtectsChunk codec st owned hash chunk_hash := by
  induction hashes with
  | nil =>
    intro found
    exact .inr ⟨found, rfl, by simp, by simp⟩
  | cons hash hashes ih =>
    intro found
    rw [List.foldlM_cons]
    rcases protectManifest_cases found hash with ⟨error, stopped, failed⟩ | ⟨next, went, fine, chunks⟩
    · rw [stopped]
      exact .inl ⟨error, rfl, hash, List.mem_cons_self, error, failed⟩
    · rw [went]
      rcases ih next with ⟨error, stopped, other, member, failed⟩ | ⟨result, ended, rest, all⟩
      · exact .inl ⟨error, stopped, other, List.mem_cons_of_mem _ member, failed⟩
      · refine .inr ⟨result, ended, ?_, fun chunk_hash => ?_⟩
        · rintro other member
          rcases List.mem_cons.mp member with rfl | later
          · exact fine
          · exact rest other later
        · rw [all, chunks, or_assoc, List.exists_mem_cons_iff]

end Loading

section Chunks
variable {protected_chunks : Finset String} {cached : IterSet String} {r now : Nat}

theorem sweepChunk_cases (sweep : ChunkSweep) (file : FilePath) (chunk_hash : Option String) :
    (sweepChunk protected_chunks cached r now false sweep (file, chunk_hash)).store.content =
        sweep.store.content ∨
      ∃ metadata, sweep.store.content.fileAt file = some metadata ∧
        requiredRetentionSecs r chunk_hash ≤ fileAgeSecs now metadata ∧
        (∀ hash ∈ chunk_hash, hash ∉ protected_chunks) ∧
        (sweepChunk protected_chunks cached r now false sweep (file, chunk_hash)).store.content =
          chunk_hash.elim (sweep.store.content.removeFile file) fun hash =>
            (removeIndexedFile sweep.store.content .chunk hash file).2 := by
  unfold sweepChunk
  dsimp only
  split
  · exact .inl rfl
  · next unprotected =>
    split
    · exact .inl rfl
    · next metadata found =>
      split
      · exact .inl rfl
      · next late =>
        right
        refine ⟨metadata, found, by omega, fun hash named inside => unprotected ⟨hash, named, inside⟩,
          ?_⟩
        cases chunk_hash with
        | none => rfl
        | some hash =>
          simp only [Bool.false_eq_true, if_false, Option.elim_some]
          split <;> rfl

theorem sweepChunk_shrinks (sweep : ChunkSweep) (file : FilePath) (chunk_hash : Option String) :
    let after := sweepChunk protected_chunks cached r now false sweep (file, chunk_hash)
    after.store.content.mounted = sweep.store.content.mounted ∧
      ∀ f, after.store.content.disk.get f = none ∨
        after.store.content.disk.get f = sweep.store.content.disk.get f := by
  dsimp only
  rcases sweepChunk_cases sweep file chunk_hash with same | ⟨_, _, _, _, removed⟩
  · rw [same]
    exact ⟨rfl, fun _ => .inr rfl⟩
  · rw [removed]
    cases chunk_hash with
    | none =>
      refine ⟨rfl, fun f => ?_⟩
      simp only [Option.elim_none, ContentStore.removeFile, get_del]
      exact ite_eq_or_eq _ _ _
    | some hash =>
      refine ⟨removeIndexed_mounted, fun f => ?_⟩
      simp only [Option.elim_some, removeIndexed_disk]
      exact ite_eq_or_eq _ _ _

variable {file : FilePath}

theorem sweepChunk_removes {sweep : ChunkSweep} {hash : String}
    {metadata : FileEntry} (found : sweep.store.content.fileAt file = some metadata)
    (late : r ≤ fileAgeSecs now metadata) (unprotected : hash ∉ protected_chunks) :
    (sweepChunk protected_chunks cached r now false sweep (file, some hash)).store.content =
      (removeIndexedFile sweep.store.content .chunk hash file).2 := by
  have young : ¬fileAgeSecs now metadata < r := by omega
  have free : ¬∃ h ∈ some hash, h ∈ protected_chunks := by simpa using unprotected
  unfold sweepChunk
  dsimp only
  rw [if_neg free, found]
  simp only [requiredRetentionSecs, Option.isSome_some, if_true, young, if_false, Bool.false_eq_true]
  split <;> rfl

theorem mem_collectChunkFiles {st : ContentStore} {chunk_hash : Option String}
    (listed : (file, chunk_hash) ∈ collectChunkFilePaths st) :
    file ∈ visibleFiles st ∧ file.area = .chunk ∧ chunkFileHash file.name = some chunk_hash := by
  unfold collectChunkFilePaths at listed
  obtain ⟨found, member, named⟩ := List.mem_filterMap.mp listed
  obtain ⟨visible, area⟩ := List.mem_filter.mp member
  obtain ⟨hash, name, same⟩ := Option.map_eq_some_iff.mp named
  cases same
  exact ⟨visible, of_decide_eq_true area, name⟩

theorem chunkFileHash_some {name hash : String} (named : chunkFileHash name = some (some hash)) :
    hash = name ∧ isHexOfLength 64 name = true := by
  unfold chunkFileHash at named
  split at named
  · next safe => cases named; exact ⟨rfl, safe⟩
  · split at named <;> cases named

theorem chunkFileHash_none {name : String} (named : chunkFileHash name = some none) :
    isHexOfLength 64 name = false := by
  unfold chunkFileHash at named
  split at named
  · cases named
  · next unsafe_name => exact Bool.eq_false_iff.mpr unsafe_name

def Sweepable (r now : Nat) (st : ContentStore) (file : FilePath) : Prop :=
  file ∈ visibleFiles st ∧ file.area = .chunk ∧ isHexOfLength 64 file.name = true ∧
    ∃ metadata, st.fileAt file = some metadata ∧ r ≤ fileAgeSecs now metadata

theorem sweepChunks_untouched {kind : StorageContentKind} {hash : String} (s : Store)
    (safe : kind = .chunk → isHexOfLength 64 hash = true ∧ (hash ∈ protected_chunks ∨
      ∀ file, Belongs .chunk hash file → ¬Sweepable r now s.content file)) :
    Untouched kind hash s.content
      (sweepChunks protected_chunks cached r now false s).store.content := by
  unfold sweepChunks
  refine List.foldlRecOn (motive := fun sweep : ChunkSweep =>
    Untouched kind hash s.content sweep.store.content) _ _ untouched_refl ?_
  rintro sweep before ⟨file, chunk_hash⟩ listed
  obtain ⟨visible, area, named⟩ := mem_collectChunkFiles listed
  rcases sweepChunk_cases sweep file chunk_hash with same | ⟨metadata, found, late, free, removed⟩
  · rw [same]
    exact before
  · rw [removed]
    cases chunk_hash with
    | none =>
      apply before.trans
      apply removeFile_untouched
      rintro ⟨other_area, other_name⟩
      rw [area] at other_area
      subst other_area
      have hex := (safe rfl).1
      change file.name = hash at other_name
      rw [← other_name, chunkFileHash_none named] at hex
      cases hex
    | some found_hash =>
      obtain ⟨rfl, hex⟩ := chunkFileHash_some named
      apply before.trans
      apply removeIndexed_untouched ⟨area, rfl⟩
      intro same
      cases same
      -- The file is one of the payload, so it is as old as it was at the start.
      rcases (safe rfl).2 with inside | none_old
      · exact free _ rfl inside
      · refine none_old file ⟨area, rfl⟩ ⟨visible, area, hex, metadata, ?_, late⟩
        rw [← sameReads_fileAt before.toSameReads ⟨area, rfl⟩]
        exact found

theorem sweepChunks_removes (s : Store)
    (old : Sweepable r now s.content file) (unprotected : file.name ∉ protected_chunks) :
    (sweepChunks protected_chunks cached r now false s).store.content.disk.get file = none := by
  obtain ⟨visible, area, hex, metadata, found, late⟩ := old
  have listed : (file, some file.name) ∈ collectChunkFilePaths s.content := by
    refine List.mem_filterMap.mpr ⟨file, List.mem_filter.mpr ⟨visible, by simpa using area⟩, ?_⟩
    have named : chunkFileHash file.name = some (some file.name) := by
      unfold chunkFileHash manifestHashLooksSafeFilename
      rw [if_pos hex]
    rw [named]
    rfl
  have finished := foldl_invariant (fun done (sweep : ChunkSweep) =>
      sweep.store.content.mounted = s.content.mounted ∧
        (sweep.store.content.disk.get file = none ∨
          (sweep.store.content.disk.get file = s.content.disk.get file ∧
            (file, some file.name) ∉ done)))
    (f := sweepChunk protected_chunks cached r now false) ?_ (collectChunkFilePaths s.content)
    (b := ⟨s, 0, 0, 0, 0⟩) ⟨rfl, .inr ⟨rfl, by simp⟩⟩
  · rcases finished.2 with gone | ⟨_, unlisted⟩
    · exact gone
    · exact absurd listed unlisted
  · rintro done ⟨other, chunk_hash⟩ sweep ⟨mounted, state⟩
    obtain ⟨mounts, shrinks⟩ := sweepChunk_shrinks sweep other chunk_hash
    refine ⟨mounts.trans mounted, ?_⟩
    rcases state with gone | ⟨there, unlisted⟩
    · rcases shrinks file with now_gone | same
      · exact .inl now_gone
      · exact .inl (same.trans gone)
    · by_cases here : (other, chunk_hash) = (file, some file.name)
      · cases here
        have present : sweep.store.content.fileAt file = some metadata := by
          unfold ContentStore.fileAt at found ⊢
          rw [mounted, there]
          exact found
        rw [sweepChunk_removes present late unprotected, removeIndexed_disk]
        simp
      · rcases shrinks file with now_gone | same
        · exact .inl now_gone
        · refine .inr ⟨same.trans there, fun member => ?_⟩
          rcases List.mem_append.mp member with before | last
          · exact unlisted before
          · exact here (List.mem_singleton.mp last).symm

end Chunks

section Reopening
variable {codec : Codec} {kind : StorageContentKind} {hash : String} {a b : ContentStore}

def remounted (st : ContentStore) : ContentStore :=
  { st with
    pool := { st.pool with
      paths := st.pool.paths.map fun path => { path with available := true }
      ids_nodup := by simpa [List.map_map, Function.comp_def] using st.pool.ids_nodup }
    mounted := fun _ => true }

def reopened (codec : Codec) (st : ContentStore) : ContentStore := restart codec (remounted st)

theorem remounted_paths (same : b.pool.paths = a.pool.paths) :
    (remounted b).pool.paths = (remounted a).pool.paths := by
  unfold remounted
  dsimp only
  rw [same]

theorem recoveredLocation_congr (same : Untouched kind hash a b) (row : LocationRow) :
    recoveredLocation codec (remounted b) (kind, hash) row =
      recoveredLocation codec (remounted a) (kind, hash) row := by
  have paths := remounted_paths same.paths
  unfold recoveredLocation
  rw [path_congr paths, contentPathIn_congr paths]
  cases row.state with
  | available => rfl
  | pending =>
    cases placed : (remounted a).pool.contentPathIn row.pathId kind hash with
    | error error => rfl
    | ok file =>
      have own : Belongs kind hash file := by
        unfold StoragePool.contentPathIn at placed
        split at placed
        · exact contentPath_belongs placed
        · cases placed
      have found : (remounted b).fileAt file = (remounted a).fileAt file := same.files file own
      have complete : kindPayloadHashMatches codec (remounted b) file hash row.sizeBytes =
          kindPayloadHashMatches codec (remounted a) file hash row.sizeBytes := by
        unfold kindPayloadHashMatches
        rw [found]
      dsimp only
      rw [complete]

theorem untouched_reopened (same : Untouched kind hash a b) :
    SameReads kind hash (reopened codec a) (reopened codec b) := by
  have ground_a := restart_ground codec (remounted a)
  have ground_b := restart_ground codec (remounted b)
  refine ⟨?_, ?_, ?_, fun file own => ?_⟩
  · exact ground_b.2.2.symm.trans ((remounted_paths same.paths).trans ground_a.2.2)
  · exact ground_b.2.1.symm.trans ground_a.2.1
  · unfold reopened
    rw [restart_location, restart_location]
    change (b.records.get (kind, hash)).bind _ = (a.records.get (kind, hash)).bind _
    rw [same.record, funext (recoveredLocation_congr same)]
  · unfold reopened
    rw [← ground_a.1, ← ground_b.1]
    exact same.files file own

end Reopening

section Safety
variable {codec : Codec} {s t : Store} {r : Nat}

def protectionOf (s : Store) : CleanupProtectionSnapshot :=
  cleanupProtectionSnapshot s (collectReferencedManifestHashes s.catalog)

def OwnedListed (codec : Codec) (s : Store) (chunk_hash : String) : Prop :=
  ∃ hash, ProtectsChunk codec (reopened codec s.content) (protectionOf s).ownedReferencedManifests
    hash chunk_hash

def FullyReadable (codec : Codec) (st : ContentStore) (hash : String) : Prop :=
  ∃ manifest, loadManifestByHash codec st hash = .ok (some manifest) ∧
    ∀ chunk ∈ manifest.chunks, Readable codec st .chunk chunk.hash

/-- The sweep that led from `s` to `t` has deleted nothing that is in use, and with all
    paths there again every owned manifest in use reads as before. -/
structure SweepSafe (codec : Codec) (s t : Store) : Prop where
  manifests : ∀ hash ∈ (collectReferencedManifestHashes s.catalog).items, ∀ file,
    Belongs .manifest hash file → t.content.disk.get file = s.content.disk.get file
  chunks : ∀ hash, isHexOfLength 64 hash = true → OwnedListed codec s hash → ∀ file,
    Belongs .chunk hash file → t.content.disk.get file = s.content.disk.get file
  readable : ∀ hash ∈ (collectReferencedManifestHashes s.catalog).items,
    s.ownedManifests.contains hash = true → FullyReadable codec (reopened codec s.content) hash →
      FullyReadable codec (reopened codec t.content) hash

/-- Either a retained manifest fails to load, which stops the sweep before the chunks, or
    every chunk in use that has a file to sweep is pinned by a repair task or listed by an
    owned manifest in use that can be read right now. -/
def SweepProtected (codec : Codec) (r : Nat) (s : Store) : Prop :=
  (∃ hash, IsRetained (protectionOf s) r (s.world.seconds 0) s.content hash ∧ ∃ error,
    loadManifestByHash codec (withoutExpired (protectionOf s) r (s.world.seconds 0) s.content) hash =
      .error error) ∨
  ∀ file, Sweepable r (s.world.seconds 0) s.content file → OwnedListed codec s file.name →
    file.name ∈ (protectionOf s).recoveryChunks ∨ ∃ hash, ProtectsChunk codec s.content
      (protectionOf s).ownedReferencedManifests hash file.name

theorem mem_ownedReferenced (hash : String) :
    hash ∈ (protectionOf s).ownedReferencedManifests.items ↔
      hash ∈ (collectReferencedManifestHashes s.catalog).items ∧
        s.ownedManifests.contains hash = true := by
  simp [protectionOf, cleanupProtectionSnapshot]

theorem sweepSafe_of_untouched
    (manifests : ∀ hash ∈ (collectReferencedManifestHashes s.catalog).items,
      Untouched .manifest hash s.content t.content)
    (chunks : ∀ hash, isHexOfLength 64 hash = true → OwnedListed codec s hash →
      Untouched .chunk hash s.content t.content) : SweepSafe codec s t where
  manifests := fun hash referenced => (manifests hash referenced).files
  chunks := fun hash hex listed => (chunks hash hex listed).files
  readable := by
    rintro hash referenced owned ⟨manifest, loaded, all⟩
    refine ⟨manifest, ?_, fun chunk member => ?_⟩
    · rw [sameReads_load codec (untouched_reopened (manifests hash referenced)), loaded]
    · have readable := all chunk member
      have hex : isHexOfLength 64 chunk.hash = true := by
        obtain ⟨file, _, placed, _⟩ := readable
        unfold StoragePool.contentPath contentPathInRuntime at placed
        split at placed
        · dsimp only at placed
          split at placed
          · assumption
          · cases placed
        · cases placed
      have listed : OwnedListed codec s chunk.hash :=
        ⟨hash, (mem_ownedReferenced hash).mpr ⟨referenced, owned⟩, manifest, loaded, chunk, member,
          rfl⟩
      exact sameReads_readable codec (untouched_reopened (chunks chunk.hash hex listed)) readable

theorem cleanup_end (codec : Codec) (r : Nat) (s : Store) :
    Ensures (cleanupUnreferenced codec r false) s fun _ t => ∃ begun : Store,
      begun.content = s.content ∧
      let swept := sweepManifests (protectionOf s) r (s.world.seconds 0) false begun
      let loads := swept.retainedManifests.items.foldlM (protectManifest codec swept.store.content
        (protectionOf s).ownedReferencedManifests) (∅, ∅)
      (∃ error, loads = .error error ∧ t.content = swept.store.content) ∨
        ∃ found, loads = .ok found ∧
          t.content = (sweepChunks ((protectionOf s).recoveryChunks ∪ found.1)
            (protectionOf s).cachedChunkRecords r (s.world.seconds 0) false
            swept.store).store.content := by
  unfold cleanupUnreferenced
  refine ensures_get (ensures_bind_ok (a := s.world.seconds 0) rfl (ensures_get ?_))
  refine ensures_bind_ok (a := ()) rfl (ensures_lift ?_ ?_)
  · intro error failed
    exact ⟨(unixTs.run s).2, rfl, .inl ⟨error, failed, rfl⟩⟩
  · intro found loaded
    refine ensures_bind_ok (a := ()) rfl ?_
    have kept : ∀ content : ContentStore, ∀ deleted, Preserves (fun t : Store => t.content = content)
        (foldEach (protectionOf s).cachedChunkRecords.items deleted
          (reapCachedChunkRecord found.1)) := by
      intro content
      apply preserves_foldEach
      intro hash _ deleted
      unfold reapCachedChunkRecord
      apply preserves_ite
      · intro _
        exact preserves_bind (fun _ same => same) fun _ => preserves_pure _
      · intro _
        refine preserves_bind preserves_get fun _ => preserves_bind (fun _ same => same) fun _ => ?_
        split
        · exact preserves_bind (fun _ same => same) fun _ => preserves_pure _
        · exact preserves_pure _
    apply ensures_after (kept _ _)
    · intro records t same
      refine ensures_bind_ok (a := ()) rfl ?_
      exact ⟨(unixTs.run s).2, rfl, .inr ⟨found, loaded, same rfl⟩⟩
    · intro error t same
      exact ⟨(unixTs.run s).2, rfl, .inr ⟨found, loaded, same rfl⟩⟩

theorem mem_visibleFiles {st : ContentStore} {file : FilePath} : file ∈ visibleFiles st ↔
    (∃ entry, st.disk.get file = some entry) ∧ st.mounted file.pathId = true ∧
      ∃ p ∈ st.pool.paths, p.available = true ∧ p.config.id = file.pathId := by
  unfold visibleFiles
  rw [List.mem_filter, mem_keys]
  simp

variable {now : Nat}

theorem sweepable_congr {a b : ContentStore} {hash : String} {file : FilePath}
    (same : SameReads .chunk hash a b) (own : Belongs .chunk hash file) :
    Sweepable r now b file ↔ Sweepable r now a file := by
  unfold Sweepable
  rw [mem_visibleFiles, mem_visibleFiles, same.files file own, same.mounted, same.paths,
    sameReads_fileAt same own]

variable {begun : Store}

theorem protects_swept {hash chunk_hash : String} (same : begun.content = s.content) :
    ProtectsChunk codec (sweepManifests (protectionOf s) r now false begun).store.content
        (protectionOf s).ownedReferencedManifests hash chunk_hash ↔
      ProtectsChunk codec s.content (protectionOf s).ownedReferencedManifests hash chunk_hash := by
  unfold ProtectsChunk
  apply and_congr_right
  intro owned
  have untouched : Untouched .manifest hash begun.content
      (sweepManifests (protectionOf s) r now false begun).store.content :=
    sweepManifests_untouched begun fun _ => .inl ((mem_ownedReferenced hash).mp owned).1
  rw [sameReads_load codec untouched.toSameReads, same]

theorem loads_found (same : begun.content = s.content) {found : Finset String × Finset String}
    (loaded : (sweepManifests (protectionOf s) r now false begun).retainedManifests.items.foldlM
      (protectManifest codec (sweepManifests (protectionOf s) r now false begun).store.content
        (protectionOf s).ownedReferencedManifests) (∅, ∅) = .ok found) :
    (∀ hash, IsRetained (protectionOf s) r now s.content hash → ∀ error,
      loadManifestByHash codec (withoutExpired (protectionOf s) r now s.content) hash ≠
        .error error) ∧
    ∀ chunk_hash, chunk_hash ∈ found.1 ↔ ∃ hash, ProtectsChunk codec s.content
      (protectionOf s).ownedReferencedManifests hash chunk_hash := by
  rcases protectManifests_cases codec
      (sweepManifests (protectionOf s) r now false begun).store.content
      (protectionOf s).ownedReferencedManifests
      (sweepManifests (protectionOf s) r now false begun).retainedManifests.items (∅, ∅) with
    ⟨error, failed, _⟩ | ⟨result, ended, fine, chunks⟩
  · rw [failed] at loaded
    cases loaded
  · rw [ended] at loaded
    cases loaded
    refine ⟨fun hash retained error => ?_, fun chunk_hash => ?_⟩
    · rw [← same, ← sweepManifests_load]
      rw [← same, ← sweepManifests_retained] at retained
      exact fine hash retained error
    · rw [chunks]
      simp only [Finset.notMem_empty, false_or]
      constructor
      · rintro ⟨hash, _, protects⟩
        exact ⟨hash, (protects_swept same).mp protects⟩
      · rintro ⟨hash, protects⟩
        have referenced := ((mem_ownedReferenced hash).mp protects.1).1
        exact ⟨hash, (sweepManifests_retained begun hash).mpr (.inl referenced),
          (protects_swept same).mpr protects⟩

theorem loads_failed (same : begun.content = s.content) {error : StoreError}
    (failed : (sweepManifests (protectionOf s) r now false begun).retainedManifests.items.foldlM
      (protectManifest codec (sweepManifests (protectionOf s) r now false begun).store.content
        (protectionOf s).ownedReferencedManifests) (∅, ∅) = .error error) :
    ∃ hash, IsRetained (protectionOf s) r now s.content hash ∧ ∃ error,
      loadManifestByHash codec (withoutExpired (protectionOf s) r now s.content) hash =
        .error error := by
  rcases protectManifests_cases codec
      (sweepManifests (protectionOf s) r now false begun).store.content
      (protectionOf s).ownedReferencedManifests
      (sweepManifests (protectionOf s) r now false begun).retainedManifests.items (∅, ∅) with
    ⟨_, _, hash, retained, unreadable⟩ | ⟨result, ended, _⟩
  · rw [sweepManifests_retained, same] at retained
    rw [sweepManifests_load, same] at unreadable
    exact ⟨hash, retained, unreadable⟩
  · rw [ended] at failed
    cases failed

theorem protected_of_safe
    (safe : SweepSafe codec s ((cleanupUnreferenced codec r false).run s).2) :
    SweepProtected codec r s := by
  obtain ⟨begun, same, outcome⟩ := cleanup_end codec r s
  dsimp only at outcome
  rcases outcome with ⟨error, failed, _⟩ | ⟨found, loaded, ended⟩
  · exact .inl (loads_failed same failed)
  · right
    intro file old listed
    by_contra uncovered
    rw [not_or] at uncovered
    obtain ⟨unpinned, unread⟩ := uncovered
    have own : Belongs .chunk file.name file := ⟨old.2.1, rfl⟩
    have first : Untouched .chunk file.name s.content (sweepManifests (protectionOf s) r
        (s.world.seconds 0) false begun).store.content := sweepManifests_chunks same file.name
    have unprotected : file.name ∉ (protectionOf s).recoveryChunks ∪ found.1 := by
      rw [Finset.mem_union, (loads_found same loaded).2]
      rintro (pinned | read)
      · exact unpinned pinned
      · exact unread read
    have kept := safe.chunks file.name old.2.2.1 listed file own
    rw [ended, sweepChunks_removes _ ((sweepable_congr first.toSameReads own).mpr old)
      unprotected] at kept
    obtain ⟨entry, there⟩ := (mem_visibleFiles.mp old.1).1
    rw [there] at kept
    cases kept

theorem safe_of_protected (covered : SweepProtected codec r s) :
    SweepSafe codec s ((cleanupUnreferenced codec r false).run s).2 := by
  obtain ⟨begun, same, outcome⟩ := cleanup_end codec r s
  dsimp only at outcome
  have manifests : ∀ hash ∈ (collectReferencedManifestHashes s.catalog).items,
      Untouched .manifest hash s.content (sweepManifests (protectionOf s) r
        (s.world.seconds 0) false begun).store.content := by
    intro hash referenced
    rw [← same]
    exact sweepManifests_untouched begun fun _ => .inl referenced
  have chunks : ∀ hash, Untouched .chunk hash s.content (sweepManifests (protectionOf s) r
      (s.world.seconds 0) false begun).store.content := sweepManifests_chunks same
  rcases outcome with ⟨error, _, ended⟩ | ⟨found, loaded, ended⟩
  · apply sweepSafe_of_untouched
    · intro hash referenced
      rw [ended]
      exact manifests hash referenced
    · intro hash _ _
      rw [ended]
      exact chunks hash
  · apply sweepSafe_of_untouched
    · intro hash referenced
      rw [ended]
      exact (manifests hash referenced).trans (sweepChunks_untouched _ (by simp))
    · intro hash hex listed
      rw [ended]
      refine (chunks hash).trans (sweepChunks_untouched _ fun _ => ⟨hex, ?_⟩)
      by_cases inside : hash ∈ (protectionOf s).recoveryChunks ∪ found.1
      · exact .inl inside
      · right
        intro file own old
        rw [sweepable_congr (chunks hash).toSameReads own] at old
        obtain ⟨fine, read⟩ := loads_found same loaded
        have name : file.name = hash := own.2
        rcases covered with ⟨other, retained, error, failed⟩ | all
        · exact fine other retained error failed
        · rw [Finset.mem_union, read] at inside
          rw [← name] at listed inside
          exact inside (all file old listed)

/-- For every store and retention: a sweep is safe exactly when it stops before the chunks,
    or every chunk in use that it could delete is protected by something it can read. -/
theorem cleanup_safe_iff (codec : Codec) (r : Nat) (s : Store) :
    SweepSafe codec s ((cleanupUnreferenced codec r false).run s).2 ↔ SweepProtected codec r s :=
  ⟨protected_of_safe, safe_of_protected⟩

end Safety

section HalfMounted

-- The manifest of the object "abc" at the key "a", under its own hash.
def abcManifest : ObjectManifest := ⟨"a", 3, [⟨abcHash, 3⟩]⟩

def abcManifestHash : String := "fea26ca1a3e8b74be3ce6ccf2a5c3bd664aa3b83fcb0189235af3c35aa9fc3c3"

def abcObjectCodec : Codec :=
  sampleCodec [([97, 98, 99], abcHash),
    (textBytes (prettyManifest abcManifest), abcManifestHash)] [abcManifest]

/-- The object's chunk is on the legacy path and its manifest on a disk that is not mounted. -/
def halfMounted : Store :=
  { emptyNode with
    content :=
      { pool :=
          { paths := [⟨⟨"legacy-primary", .active, 1, 0⟩, true⟩, ⟨⟨"disk-b", .active, 1, 0⟩, false⟩]
            ids_nodup := by decide
            locations := (Table.empty.put (.chunk, abcHash) "legacy-primary").put
              (.manifest, abcManifestHash) "disk-b" }
        disk := (Table.empty.put (chunkFile "legacy-primary" abcHash) ⟨[97, 98, 99], 0⟩).put
          (manifestFile "disk-b" abcManifestHash) ⟨textBytes (prettyManifest abcManifest), 0⟩
        mounted := fun path_id => path_id == "legacy-primary"
        records := (Table.empty.put (.chunk, abcHash) ⟨"legacy-primary", 3, .available⟩).put
          (.manifest, abcManifestHash) ⟨"disk-b", 176, .available⟩ }
    ownedManifests := IterSet.ofList [abcManifestHash]
    catalog := { Catalog.empty with
      current := Table.empty.put "a" ⟨abcManifestHash, "obj-1"⟩ }
    world := { emptyNode.world with seconds := fun _ => 10000 } }

theorem halfMounted_swept :
    let t := ((cleanupUnreferenced abcObjectCodec 3600 false).run halfMounted).2
    halfMounted.content.disk.get (chunkFile "legacy-primary" abcHash) = some ⟨[97, 98, 99], 0⟩ ∧
      t.content.disk.get (chunkFile "legacy-primary" abcHash) = none ∧
      abcManifestHash ∈ (protectionOf halfMounted).ownedReferencedManifests.items ∧
      (loadManifestByHash abcObjectCodec (reopened abcObjectCodec halfMounted.content)
        abcManifestHash).toOption = some (some abcManifest) := by
  decide +kernel

/-- The sweep cannot read the manifest, and deletes the only copy of the chunk it lists. -/
theorem sweep_deletes_chunk_of_unmounted_manifest :
    let t := ((cleanupUnreferenced abcObjectCodec 3600 false).run halfMounted).2
    halfMounted.content.disk.get (chunkFile "legacy-primary" abcHash) = some ⟨[97, 98, 99], 0⟩ ∧
      t.content.disk.get (chunkFile "legacy-primary" abcHash) = none ∧
      ¬SweepSafe abcObjectCodec halfMounted t := by
  obtain ⟨there, gone, owned, loads⟩ := halfMounted_swept
  refine ⟨there, gone, fun safe => ?_⟩
  have loaded : loadManifestByHash abcObjectCodec (reopened abcObjectCodec halfMounted.content)
      abcManifestHash = .ok (some abcManifest) := by
    cases outcome : loadManifestByHash abcObjectCodec
        (reopened abcObjectCodec halfMounted.content) abcManifestHash with
    | error error => rw [outcome] at loads; cases loads
    | ok found => rw [outcome] at loads; cases loads; rfl
  have kept := safe.chunks abcHash (by decide +kernel) ⟨abcManifestHash, owned, abcManifest, loaded,
    ⟨abcHash, 3⟩, List.mem_singleton.mpr rfl, rfl⟩ (chunkFile "legacy-primary" abcHash) ⟨rfl, rfl⟩
  rw [there, gone] at kept
  cases kept

end HalfMounted

end BerryKeepContentCleanup
