import BerryKeep.StoragePool
import BerryKeep.Catalog

/-!
The store of one node: payload data, ownership and cache records and the
catalog, together with what the outside answers during a call. The readings of
the clock, of the identifier source and of the free space are streams; a
reading takes the head of its stream. Programs that only write payload data
leave the catalog, the clock and the identifiers to come alone, which
`ContentOnly` states once for each of them.
-/
namespace BerryKeepNodeStore
open FiniteTable TextOperations StatefulProgram BerryKeepContentCodec BerryKeepStoragePool
  BerryKeepCatalog BerryKeepVersionGraph BerryKeepCurrentNamespace
variable {α β : Type}

/-- What the clock, the identifier source and the disks will answer next. -/
structure World where
  seconds : Nat → Nat
  nanos : Nat → Nat
  uuids : Nat → String
  free : Nat → String → Option Nat
  fileTimes : Nat → Int

structure ContentRepairTask where
  manifestHash : String
  chunks : List ChunkRef
  deriving DecidableEq, Repr

structure Store where
  content : ContentStore
  ownedManifests : IterSet String
  cachedChunks : IterSet String
  repairTasks : List ContentRepairTask
  mediaFingerprints : IterSet String
  catalog : Catalog
  world : World

abbrev StoreM := Program Store StoreError

def onCatalog (m : CatalogM α) : StoreM α :=
  ⟨fun s => ((m.run s.catalog).1, { s with catalog := (m.run s.catalog).2 })⟩

def onContent (f : ContentStore → ContentStore) : StoreM Unit :=
  modify fun s => { s with content := f s.content }

def unixTs : StoreM Nat :=
  modifyGet fun s => (s.world.seconds 0,
    { s with world := { s.world with seconds := fun n => s.world.seconds (n + 1) } })

def unixTsNanos : StoreM Nat :=
  modifyGet fun s => (s.world.nanos 0,
    { s with world := { s.world with nanos := fun n => s.world.nanos (n + 1) } })

def newUuid : StoreM String :=
  modifyGet fun s => (s.world.uuids 0,
    { s with world := { s.world with uuids := fun n => s.world.uuids (n + 1) } })

def availableSpace : StoreM (String → Option Nat) :=
  modifyGet fun s => (s.world.free 0,
    { s with world := { s.world with free := fun n => s.world.free (n + 1) } })

def fileTime : StoreM Int :=
  modifyGet fun s => (s.world.fileTimes 0,
    { s with world := { s.world with fileTimes := fun n => s.world.fileTimes (n + 1) } })

def generateObjectId : StoreM String := do return "obj-" ++ (← newUuid)

-- The times are read whether or not the call comes to use them.
def readings : StoreM Readings := do
  let rotate_at ← unixTs
  let record_at ← unixTs
  let uuid ← newUuid
  return ⟨rotate_at, record_at, uuid⟩

def publish (key object_id : String) (index : FileVersionIndex)
    (persist rotate create_snapshot : Bool) : StoreM (Option String) := do
  let r ← readings
  onCatalog (republish r key object_id index persist rotate create_snapshot)

/-- The slice of the first twelve bytes of a hash; a shorter hash panics. -/
def shortHash (hash : String) : Except StoreError String :=
  match bytePrefix hash 12 with
  | some short => .ok short
  | none => .error .panicked

structure StorageContentPersistOutcome where
  stored : Bool
  replacedExistingPath : Bool
  deriving DecidableEq, Repr

def persistStorageContent (codec : Codec) (kind : StorageContentKind) (hash : String)
    (payload : Bytes) : StoreM StorageContentPersistOutcome := do
  let st := (← get).content
  let existing_path ← lift (st.pool.contentPath kind hash)
  let existing := st.fileAt existing_path
  if existing.any fun file => hashHex codec file.bytes == hash then return ⟨false, false⟩
  else
    let free ← availableSpace
    let target ← lift (selectWritePath codec st.pool (st.freeSpace free) hash payload.length)
    let pending : StorageLocationRecord := ⟨kind, hash, target.config.id, payload.length, .pending⟩
    onContent fun st => st.persistStorageLocation pending
    let target_path ← lift (contentPathInRuntime target.config.id kind hash)
    let now ← fileTime
    onContent fun st => st.writeFile target_path ⟨payload, now⟩
    let available := { pending with state := .available }
    onContent fun st => st.persistStorageLocation available
    onContent fun st => { st with pool := st.pool.noteLocation available }
    return ⟨true, existing.isSome⟩

def loadManifestByHash (codec : Codec) (st : ContentStore) (manifest_hash : String) :
    Except StoreError (Option ObjectManifest) :=
  if manifest_hash = tombstoneManifestHash then .ok none
  else match st.pool.contentPath .manifest manifest_hash with
    | .error error => .error error
    | .ok manifest_path =>
      match st.fileAt manifest_path with
      | none => .ok none
      | some file =>
        match codec.decodeManifest file.bytes with
        | some manifest => .ok (some manifest)
        | none => .error (.bail ("invalid manifest " ++ manifest_path.name))

def loadManifestPayloadByHash (st : ContentStore) (manifest_hash : String) :
    Except StoreError (Option Bytes) :=
  if manifest_hash = tombstoneManifestHash then .ok none
  else match st.pool.contentPath .manifest manifest_hash with
    | .error error => .error error
    | .ok manifest_path => .ok ((st.fileAt manifest_path).map fun file => file.bytes)

def markManifestLocallyOwned (codec : Codec) (manifest_hash : String) : StoreM Unit :=
  if manifest_hash = tombstoneManifestHash then pure ()
  else do
    modify fun s => { s with ownedManifests := s.ownedManifests.insert manifest_hash }
    let manifest ← lift (loadManifestByHash codec (← get).content manifest_hash)
    forEach (manifest.elim [] fun manifest => manifest.chunks) fun chunk =>
      modify fun s => { s with cachedChunks := s.cachedChunks.erase chunk.hash }

def clonedManifestHash (codec : Codec) (manifest : ObjectManifest) (key : String) : String :=
  hashHex codec (codec.encodeManifest { manifest with key := key })

def cloneManifestForKey (codec : Codec) (manifest_hash key : String) : StoreM String := do
  let found ← lift (loadManifestByHash codec (← get).content manifest_hash)
  let some manifest := found | throw (.bail ("missing manifest for hash=" ++ manifest_hash))
  let manifest_bytes := codec.encodeManifest { manifest with key := key }
  let cloned_manifest_hash := clonedManifestHash codec manifest key
  let _ ← persistStorageContent codec .manifest cloned_manifest_hash manifest_bytes
  markManifestLocallyOwned codec cloned_manifest_hash
  return cloned_manifest_hash

section ContentOnly

structure SameCatalog (s t : Store) : Prop where
  catalog : t.catalog = s.catalog
  seconds : t.world.seconds = s.world.seconds
  nanos : t.world.nanos = s.world.nanos
  uuids : t.world.uuids = s.world.uuids

theorem sameCatalog_refl (s : Store) : SameCatalog s s := ⟨rfl, rfl, rfl, rfl⟩

theorem sameCatalog_trans (a b c : Store) (before : SameCatalog a b) (after : SameCatalog b c) :
    SameCatalog a c :=
  ⟨after.catalog.trans before.catalog, after.seconds.trans before.seconds,
    after.nanos.trans before.nanos, after.uuids.trans before.uuids⟩

def ContentOnly (m : StoreM α) : Prop := Keeps SameCatalog m

variable {m : StoreM α} {f : α → StoreM β}

theorem contentOnly_pure (a : α) : ContentOnly (pure a) := keeps_pure sameCatalog_refl a

theorem contentOnly_get : ContentOnly get := keeps_get sameCatalog_refl

theorem contentOnly_throw (error : StoreError) : ContentOnly (throw error : StoreM α) :=
  keeps_throw sameCatalog_refl error

theorem contentOnly_lift (r : Except StoreError α) : ContentOnly (lift r : StoreM α) :=
  keeps_lift sameCatalog_refl r

theorem contentOnly_bind (first : ContentOnly m) (next : ∀ a, ContentOnly (f a)) :
    ContentOnly (m >>= f) :=
  keeps_bind sameCatalog_trans first next

theorem contentOnly_refuseIf (c : Prop) [Decidable c] (error : StoreError) :
    ContentOnly (refuseIf c error) := keeps_refuseIf sameCatalog_refl c error

theorem contentOnly_forEach {f : α → StoreM Unit} (each : ∀ a, ContentOnly (f a))
    (as : List α) : ContentOnly (forEach as f) :=
  keeps_forEach sameCatalog_refl sameCatalog_trans each as

theorem contentOnly_foldEach {f : β → α → StoreM β} (each : ∀ b a, ContentOnly (f b a))
    (as : List α) (b : β) : ContentOnly (foldEach as b f) :=
  keeps_foldEach sameCatalog_refl sameCatalog_trans each as b

theorem fileTime_contentOnly : ContentOnly fileTime := fun _ => ⟨rfl, rfl, rfl, rfl⟩

theorem availableSpace_contentOnly : ContentOnly availableSpace := fun _ => ⟨rfl, rfl, rfl, rfl⟩

theorem onContent_contentOnly (f : ContentStore → ContentStore) : ContentOnly (onContent f) :=
  fun _ => ⟨rfl, rfl, rfl, rfl⟩

variable (codec : Codec)

theorem persistStorageContent_contentOnly (kind : StorageContentKind) (hash : String)
    (payload : Bytes) : ContentOnly (persistStorageContent codec kind hash payload) := by
  unfold persistStorageContent
  refine contentOnly_bind contentOnly_get fun s => ?_
  refine contentOnly_bind (contentOnly_lift _) fun existing_path => ?_
  refine keeps_ite (contentOnly_pure _) ?_
  refine contentOnly_bind availableSpace_contentOnly fun free => ?_
  refine contentOnly_bind (contentOnly_lift _) fun target => ?_
  refine contentOnly_bind (onContent_contentOnly _) fun _ => ?_
  refine contentOnly_bind (contentOnly_lift _) fun target_path => ?_
  refine contentOnly_bind fileTime_contentOnly fun now => ?_
  refine contentOnly_bind (onContent_contentOnly _) fun _ => ?_
  refine contentOnly_bind (onContent_contentOnly _) fun _ => ?_
  exact contentOnly_bind (onContent_contentOnly _) fun _ => contentOnly_pure _

theorem markManifestLocallyOwned_keeps {R : Store → Store → Prop} (refl : ∀ s, R s s)
    (trans : ∀ a b c, R a b → R b c → R a c)
    (owned : ∀ s hashes, R s { s with ownedManifests := hashes })
    (cached : ∀ s hashes, R s { s with cachedChunks := hashes }) (codec : Codec)
    (manifest_hash : String) : Keeps R (markManifestLocallyOwned codec manifest_hash) := by
  unfold markManifestLocallyOwned
  refine keeps_ite (keeps_pure refl _) ?_
  refine keeps_bind trans (fun s => owned s _) fun _ => ?_
  refine keeps_bind trans (keeps_get refl) fun s => ?_
  refine keeps_bind trans (keeps_lift refl _) fun manifest => ?_
  exact keeps_forEach refl trans (fun _ s => cached s _) _

theorem markManifestLocallyOwned_contentOnly (manifest_hash : String) :
    ContentOnly (markManifestLocallyOwned codec manifest_hash) :=
  markManifestLocallyOwned_keeps sameCatalog_refl sameCatalog_trans
    (fun _ _ => ⟨rfl, rfl, rfl, rfl⟩) (fun _ _ => ⟨rfl, rfl, rfl, rfl⟩) codec manifest_hash

theorem cloneManifestForKey_hash (manifest_hash key : String) (s : Store) :
    Ensures (cloneManifestForKey codec manifest_hash key) s fun result t => SameCatalog s t ∧
      ∀ hash, result = .ok hash → ∃ manifest,
        loadManifestByHash codec s.content manifest_hash = .ok (some manifest) ∧
        hash = clonedManifestHash codec manifest key := by
  unfold cloneManifestForKey
  refine ensures_get (ensures_lift ?_ ?_)
  · intro error _
    exact ⟨sameCatalog_refl s, fun _ failed => by cases failed⟩
  · intro found loaded
    cases found with
    | none => exact ⟨sameCatalog_refl s, fun _ failed => by cases failed⟩
    | some manifest =>
      refine ensures_after (persistStorageContent_contentOnly codec .manifest _ _)
        (fun _ t kept => ?_) fun _ t kept => ⟨kept, fun _ failed => by cases failed⟩
      refine ensures_after (markManifestLocallyOwned_contentOnly codec _) (fun _ u marked => ?_)
        fun _ u marked => ⟨sameCatalog_trans _ _ _ kept marked, fun _ failed => by cases failed⟩
      refine ⟨sameCatalog_trans _ _ _ kept marked, fun hash done => ?_⟩
      cases done
      exact ⟨manifest, loaded, rfl⟩

end ContentOnly

section Publish

theorem onCatalog_run {m : CatalogM α} {s : Store} {result : Except StoreError α} {c : Catalog}
    (run : m.run s.catalog = (result, c)) :
    (onCatalog m).run s = (result, { s with catalog := c }) := by
  simp [onCatalog, run]

theorem onCatalog_end (m : CatalogM α) (f : α → β) (s : Store) :
    Ensures (onCatalog m >>= fun a => pure (f a)) s fun result t =>
      t = { s with catalog := (m.run s.catalog).2 } ∧
        ∀ b, result = .ok b → ∃ a, (m.run s.catalog).1 = .ok a := by
  unfold Ensures
  rw [bind_run]
  rcases run : m.run s.catalog with ⟨result, c⟩
  rw [onCatalog_run run]
  cases result with
  | error error => exact ⟨rfl, fun b failed => by cases failed⟩
  | ok a => exact ⟨rfl, fun _ _ => ⟨a, rfl⟩⟩

/-- Nothing was written to the catalog, though identifiers may have been drawn. -/
structure Unpublished (s t : Store) : Prop where
  catalog : t.catalog = s.catalog
  later : ∃ k, t.world.uuids = fun n => s.world.uuids (n + k)

variable (s : Store)

theorem unpublished_refl : Unpublished s s := ⟨rfl, 0, rfl⟩

theorem Unpublished.trans {a b c : Store} (before : Unpublished a b) (after : Unpublished b c) :
    Unpublished a c := by
  obtain ⟨j, first⟩ := before.later
  obtain ⟨k, second⟩ := after.later
  refine ⟨after.catalog.trans before.catalog, k + j, ?_⟩
  rw [second, first]
  funext n
  exact congrArg a.world.uuids (Nat.add_assoc n k j)

theorem SameCatalog.unpublished {s t : Store} (same : SameCatalog s t) : Unpublished s t :=
  ⟨same.catalog, 0, same.uuids⟩

theorem unixTs_unpublished : Unpublished s (unixTs.run s).2 := ⟨rfl, 0, rfl⟩

theorem unixTsNanos_unpublished : Unpublished s (unixTsNanos.run s).2 := ⟨rfl, 0, rfl⟩

theorem generateObjectId_unpublished : Unpublished s (generateObjectId.run s).2 :=
  ⟨rfl, 1, rfl⟩

def Draws (s t : Store) (uuid : String) : Prop :=
  ∃ k n, n < k ∧ uuid = s.world.uuids n ∧ t.world.uuids = fun m => s.world.uuids (m + k)

theorem Unpublished.draws {a b c : Store} {uuid : String} (before : Unpublished a b)
    (drawn : Draws b c uuid) : Draws a c uuid := by
  obtain ⟨j, first⟩ := before.later
  obtain ⟨k, n, inside, rfl, second⟩ := drawn
  refine ⟨k + j, n + j, by omega, by rw [first], ?_⟩
  rw [second, first]
  funext m
  exact congrArg a.world.uuids (Nat.add_assoc m k j)

def Store.nextReadings (s : Store) : Readings :=
  ⟨s.world.seconds 0, s.world.seconds 1, s.world.uuids 0⟩

theorem publish_cases {s t : Store} (before : Unpublished s t) (key object_id : String)
    (index : FileVersionIndex) (persist rotate create_snapshot : Bool) :
    ∃ r, Draws s ((publish key object_id index persist rotate create_snapshot).run t).2 r.uuid ∧
      Republished r s.catalog key object_id index persist rotate create_snapshot
        ((publish key object_id index persist rotate create_snapshot).run t).2.catalog := by
  refine ⟨t.nextReadings, before.draws ⟨1, 0, by omega, rfl, rfl⟩, ?_⟩
  rw [← before.catalog]
  exact republish_cases t.nextReadings t.catalog key object_id index persist rotate create_snapshot

end Publish

end BerryKeepNodeStore
