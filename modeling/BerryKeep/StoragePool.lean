import BerryKeep.FiniteTable
import BerryKeep.ContentCodec

/-!
The storage pool: the configured paths, the in-memory locations, the stored
location records and the files on the paths. A read resolves a hash through
the in-memory location and falls back to the legacy read path; what is on an
unmounted path is there but not visible.
-/
namespace BerryKeepStoragePool
open FiniteTable TextOperations BerryKeepContentCodec

inductive StoragePathState where
  | active
  | draining
  | disabled
  deriving DecidableEq, Repr

structure StoragePathConfig where
  id : String
  state : StoragePathState
  weight : Nat
  reserveBytes : Nat
  deriving DecidableEq, Repr

structure StoragePathRuntime where
  config : StoragePathConfig
  available : Bool
  deriving DecidableEq, Repr

inductive StorageContentKind where
  | chunk
  | manifest
  deriving DecidableEq, Repr

inductive StorageLocationState where
  | pending
  | available
  deriving DecidableEq, Repr

structure StorageLocationRecord where
  kind : StorageContentKind
  hash : String
  pathId : String
  sizeBytes : Nat
  state : StorageLocationState
  deriving DecidableEq, Repr

-- A stored record without its kind and hash, which are the key of its row.
structure LocationRow where
  pathId : String
  sizeBytes : Nat
  state : StorageLocationState
  deriving DecidableEq, Repr

structure FilePath where
  pathId : String
  area : StorageContentKind
  dirs : List String
  name : String
  deriving DecidableEq, Repr

structure FileEntry where
  bytes : Bytes
  modifiedUnix : Int
  deriving DecidableEq

abbrev ContentKey := StorageContentKind × String

-- The chunk and the manifest location map are one table with the kind in the key.
structure StoragePool where
  paths : List StoragePathRuntime
  ids_nodup : (paths.map fun p => p.config.id).Nodup
  locations : Table ContentKey String

theorem legacyPrimary_nodup :
    (([⟨⟨"legacy-primary", .active, 1, 0⟩, true⟩] : List StoragePathRuntime).map
      fun p => p.config.id).Nodup := by
  simp

structure ContentStore where
  pool : StoragePool
  disk : Table FilePath FileEntry
  mounted : String → Bool
  records : Table ContentKey LocationRow

def StoragePool.path (pool : StoragePool) (id : String) : Option StoragePathRuntime :=
  pool.paths.find? fun p => p.config.id == id

def StoragePool.legacyReadPath (pool : StoragePool) : Option StoragePathRuntime :=
  match pool.paths.find? fun p => p.available && p.config.id == "legacy-primary" with
  | some p => some p
  | none => pool.paths.find? fun p => p.available

def chunkFile (path_id hash : String) : FilePath :=
  ⟨path_id, .chunk, [String.ofList (hash.toList.take 2)], hash⟩

def manifestFile (path_id manifest_hash : String) : FilePath :=
  ⟨path_id, .manifest, [], manifest_hash ++ ".json"⟩

def contentPathInRuntime (path_id : String) (kind : StorageContentKind) (hash : String) :
    Except StoreError FilePath :=
  match kind with
  | .chunk =>
    if isHexOfLength 64 hash then .ok (chunkFile path_id hash)
    else .error (.bail ("invalid chunk hash: " ++ hash))
  | .manifest =>
    if manifestHashLooksSafeFilename hash then .ok (manifestFile path_id hash)
    else .error (.bail ("invalid manifest hash: " ++ hash))

def StoragePool.readPath (pool : StoragePool) (kind : StorageContentKind) (hash : String) :
    Option StoragePathRuntime :=
  match (pool.locations.get (kind, hash)).bind pool.path with
  | some p => some p
  | none => pool.legacyReadPath

def StoragePool.contentPath (pool : StoragePool) (kind : StorageContentKind) (hash : String) :
    Except StoreError FilePath :=
  match pool.readPath kind hash with
  | some p => contentPathInRuntime p.config.id kind hash
  | none => .error (.bail "storage pool has no readable path")

def StoragePool.contentPathIn (pool : StoragePool) (path_id : String) (kind : StorageContentKind)
    (hash : String) : Except StoreError FilePath :=
  match pool.path path_id with
  | some p => contentPathInRuntime p.config.id kind hash
  | none => .error (.bail ("unknown storage path id " ++ path_id))

def ContentStore.fileAt (st : ContentStore) (file : FilePath) : Option FileEntry :=
  if st.mounted file.pathId then st.disk.get file else none

def writeScore (codec : Codec) (hash : String) (config : StoragePathConfig) (usable : Nat) : Nat :=
  let material := textBytes hash ++ [0] ++ textBytes config.id
  usable * config.weight + bigEndian ((codec.digest material).take 8) / 2 ^ 16

def betterWritePath (codec : Codec) (free : String → Option Nat) (hash : String) (expected : Nat)
    (selected : Option (StoragePathRuntime × Nat)) (p : StoragePathRuntime) :
    Option (StoragePathRuntime × Nat) :=
  if !p.available || p.config.state != .active then selected
  else match free p.config.id with
    | none => selected
    | some free_bytes =>
      let usable := free_bytes - p.config.reserveBytes
      if usable < expected then selected
      else
        let score := writeScore codec hash p.config usable
        match selected with
        | none => some (p, score)
        | some (_, current) => if current < score then some (p, score) else selected

def selectWritePath (codec : Codec) (pool : StoragePool) (free : String → Option Nat)
    (hash : String) (expected : Nat) : Except StoreError StoragePathRuntime :=
  match pool.paths.foldl (betterWritePath codec free hash expected) none with
  | some (p, _) => .ok p
  | none => .error (.bail "storage pool has no active path with sufficient free space")

/-- The free space of a path as the system reports it; an unmounted path has none. -/
def ContentStore.freeSpace (st : ContentStore) (free : String → Option Nat) (id : String) :
    Option Nat := if st.mounted id then free id else none

def StoragePool.noteLocation (pool : StoragePool) (location : StorageLocationRecord) :
    StoragePool :=
  if location.state = .available then
    { pool with locations := pool.locations.put (location.kind, location.hash) location.pathId }
  else pool

def StoragePool.forgetLocationAtPath (pool : StoragePool) (kind : StorageContentKind)
    (hash : String) (file : FilePath) : Bool × StoragePool :=
  match (pool.locations.get (kind, hash)).bind pool.path with
  | none => (false, pool)
  | some p =>
    match contentPathInRuntime p.config.id kind hash with
    | .error _ => (false, pool)
    | .ok indexed =>
      if indexed = file then (true, { pool with locations := pool.locations.del (kind, hash) })
      else (false, pool)

def ContentStore.loadStorageLocations (st : ContentStore) : List StorageLocationRecord :=
  st.records.entries.map fun (key, row) => ⟨key.1, key.2, row.pathId, row.sizeBytes, row.state⟩

def ContentStore.persistStorageLocation (st : ContentStore) (location : StorageLocationRecord) :
    ContentStore :=
  let row : LocationRow := ⟨location.pathId, location.sizeBytes, location.state⟩
  { st with records := st.records.put (location.kind, location.hash) row }

def ContentStore.deleteStorageLocation (st : ContentStore) (kind : StorageContentKind)
    (hash : String) : ContentStore :=
  { st with records := st.records.del (kind, hash) }

def ContentStore.writeFile (st : ContentStore) (file : FilePath) (entry : FileEntry) :
    ContentStore :=
  { st with disk := st.disk.put file entry }

def ContentStore.removeFile (st : ContentStore) (file : FilePath) : ContentStore :=
  { st with disk := st.disk.del file }

end BerryKeepStoragePool
