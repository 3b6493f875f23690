import BerryKeep.ContentCodec
import BerryKeep.FiniteTable
import BerryKeep.StatefulProgram
import Mathlib.Data.List.Sort

/-!
The client's content-addressed cache. Payloads are cut into chunks; chunks and
manifests are files named by their hash, and a database keeps the cache entries,
the manifests with the number of entries that name them, the rows that list the
chunks of a manifest, and the chunks with the number of such rows. Every call
is one transaction that returns the files to be deleted, and the deletion.
Each statement below is one SQL statement of the source; the columns with time
stamps are written there and never read.
-/
namespace BerryKeepClientCache
open FiniteTable StatefulProgram BerryKeepContentCodec

section Metadata

structure CachedChunkRef where
  hash : String
  sizeBytes : Nat
  deriving DecidableEq, Repr

structure CachedManifest where
  totalSizeBytes : Nat
  chunks : List CachedChunkRef
  deriving DecidableEq, Repr

structure ManifestRecord where
  hash : String
  totalSizeBytes : Nat
  chunks : List CachedChunkRef
  deriving DecidableEq, Repr

structure KeyEntryRecord where
  manifestHash : String
  sizeBytes : Nat
  deriving DecidableEq, Repr

structure GarbageCollectionPlan where
  manifestHashes : List String
  chunkHashes : List String
  deriving DecidableEq, Repr

def GarbageCollectionPlan.default : GarbageCollectionPlan := ⟨[], []⟩

def sortDedup (hashes : List String) : List String :=
  (hashes.mergeSort fun a b => decide (a ≤ b)).dedup

def GarbageCollectionPlan.sorted (gc_plan : GarbageCollectionPlan) : GarbageCollectionPlan :=
  ⟨sortDedup gc_plan.manifestHashes, sortDedup gc_plan.chunkHashes⟩

structure ManifestRow where
  totalSizeBytes : Nat
  refCount : Nat
  deriving DecidableEq, Repr

structure ManifestChunkRow where
  manifestHash : String
  chunkIndex : Nat
  chunkHash : String
  sizeBytes : Nat
  deriving DecidableEq, Repr

structure ChunkRow where
  sizeBytes : Nat
  refCount : Nat
  deriving DecidableEq, Repr

structure CacheMetadata where
  entries : Table String KeyEntryRecord
  manifests : Table String ManifestRow
  manifestChunks : List ManifestChunkRow
  chunks : Table String ChunkRow

def CacheMetadata.empty : CacheMetadata := ⟨Table.empty, Table.empty, [], Table.empty⟩

/-- `SELECT … FROM manifest_chunks WHERE manifest_hash = ?1 ORDER BY chunk_index ASC` -/
def selectChunks (rows : List ManifestChunkRow) (manifest_hash : String) :
    List ManifestChunkRow :=
  (rows.filter fun row => row.manifestHash == manifest_hash).mergeSort fun a b =>
    decide (a.chunkIndex ≤ b.chunkIndex)

/-- The insertion fails on a row with the same primary key. -/
def insertManifestChunk (rows : List ManifestChunkRow) (row : ManifestChunkRow) :
    Except String (List ManifestChunkRow) :=
  if rows.any fun other =>
      other.manifestHash == row.manifestHash && other.chunkIndex == row.chunkIndex then
    .error ("UNIQUE constraint failed: manifest_chunks.manifest_hash, " ++
      "manifest_chunks.chunk_index")
  else .ok (rows ++ [row])

def insertChunk (chunks : Table String ChunkRow) (chunk : CachedChunkRef) :
    Table String ChunkRow :=
  match chunks.get chunk.hash with
  | none => chunks.put chunk.hash ⟨chunk.sizeBytes, 1⟩
  | some row => chunks.put chunk.hash { row with refCount := row.refCount + 1 }

def insertChunks (manifest_hash : String) :
    List (CachedChunkRef × Nat) → CacheMetadata → Except String CacheMetadata
  | [], db => .ok db
  | (chunk, index) :: rest, db => do
    let rows ← insertManifestChunk db.manifestChunks
      ⟨manifest_hash, index, chunk.hash, chunk.sizeBytes⟩
    insertChunks manifest_hash rest
      { db with manifestChunks := rows, chunks := insertChunk db.chunks chunk }

/-- `UPDATE manifests SET ref_count = ref_count + 1 WHERE manifest_hash = ?1` -/
def addManifestReference (manifests : Table String ManifestRow) (manifest_hash : String) :
    Table String ManifestRow :=
  match manifests.get manifest_hash with
  | none => manifests
  | some row => manifests.put manifest_hash { row with refCount := row.refCount + 1 }

def releaseChunk (state : Table String ChunkRow × List String) (chunk_hash : String) :
    Table String ChunkRow × List String :=
  match state.1.get chunk_hash with
  | none => state
  | some row =>
    if 1 < row.refCount then
      (state.1.put chunk_hash { row with refCount := row.refCount - 1 }, state.2)
    else (state.1.del chunk_hash, state.2 ++ [chunk_hash])

def releaseManifestReference (db : CacheMetadata) (manifest_hash : String) :
    GarbageCollectionPlan × CacheMetadata :=
  match db.manifests.get manifest_hash with
  | none => (.default, db)
  | some row =>
    if 1 < row.refCount then
      (.default, { db with
        manifests := db.manifests.put manifest_hash { row with refCount := row.refCount - 1 } })
    else
      let chunk_hashes := (selectChunks db.manifestChunks manifest_hash).map (·.chunkHash)
      let released := chunk_hashes.foldl releaseChunk (db.chunks, [])
      (⟨[manifest_hash], released.2⟩,
        { db with
          manifestChunks := db.manifestChunks.filter fun row => row.manifestHash != manifest_hash
          manifests := db.manifests.del manifest_hash
          chunks := released.1 })

def removeKeyInner (db : CacheMetadata) (key : String) : GarbageCollectionPlan × CacheMetadata :=
  match db.entries.get key with
  | none => (.default, db)
  | some entry =>
    releaseManifestReference { db with entries := db.entries.del key } entry.manifestHash

def storeManifest (db : CacheMetadata) (manifest : ManifestRecord) :
    Except String CacheMetadata :=
  if db.manifests.has manifest.hash then
    .ok { db with manifests := addManifestReference db.manifests manifest.hash }
  else
    insertChunks manifest.hash manifest.chunks.zipIdx
      { db with manifests := db.manifests.put manifest.hash ⟨manifest.totalSizeBytes, 1⟩ }

def upsertKey (db : CacheMetadata) (key : String) (manifest : ManifestRecord) :
    Except String (GarbageCollectionPlan × CacheMetadata) :=
  let existing_manifest_hash := (db.entries.get key).map (·.manifestHash)
  let entry : KeyEntryRecord := ⟨manifest.hash, manifest.totalSizeBytes⟩
  if existing_manifest_hash = some manifest.hash then
    .ok (.default, { db with entries := db.entries.put key entry })
  else do
    let db ← storeManifest db manifest
    let db := { db with entries := db.entries.put key entry }
    match existing_manifest_hash with
    | some existing => return releaseManifestReference db existing
    | none => return (.default, db)

def removeTarget (db : CacheMetadata) (to_key : String) (overwrite : Bool) :
    GarbageCollectionPlan × CacheMetadata :=
  if overwrite then removeKeyInner db to_key else (.default, db)

def renameKey (db : CacheMetadata) (from_key to_key : String) (overwrite : Bool) :
    GarbageCollectionPlan × CacheMetadata :=
  match db.entries.get from_key with
  | none => (.default, db)
  | some source =>
    let removed := removeTarget db to_key overwrite
    (removed.1.sorted,
      { removed.2 with entries := (removed.2.entries.del from_key).put to_key source })

def copyKey (db : CacheMetadata) (from_key to_key : String) (overwrite : Bool) :
    GarbageCollectionPlan × CacheMetadata :=
  match db.entries.get from_key with
  | none => (.default, db)
  | some source =>
    let removed := removeTarget db to_key overwrite
    (removed.1.sorted,
      { removed.2 with
        manifests := addManifestReference removed.2.manifests source.manifestHash
        entries := removed.2.entries.put to_key source })

def removeKey (db : CacheMetadata) (key : String) : GarbageCollectionPlan × CacheMetadata :=
  removeKeyInner db key

end Metadata

section Storage

structure CacheCodec where
  chunksDir : String
  digest : Bytes → Bytes
  encodeManifest : CachedManifest → Bytes

variable (codec : CacheCodec)

def cacheChunkSizeBytes : Nat := 1024 * 1024

def hashHex (bytes : Bytes) : String := toHex (codec.digest bytes)

structure CacheStorage where
  metadata : CacheMetadata
  manifestFiles : Table String Bytes
  chunkFiles : Table String Bytes

def CacheStorage.init : CacheStorage := ⟨CacheMetadata.empty, Table.empty, Table.empty⟩

def writeMissing (files : Table String Bytes) (bytes : Bytes) : Table String Bytes :=
  if files.has (hashHex codec bytes) then files else files.put (hashHex codec bytes) bytes

def chunkRefs (payload : Bytes) : List CachedChunkRef :=
  (payload.toChunks cacheChunkSizeBytes).map fun chunk => ⟨hashHex codec chunk, chunk.length⟩

def manifestBytes (payload : Bytes) : Bytes :=
  codec.encodeManifest ⟨payload.length, chunkRefs codec payload⟩

def persistPayload (storage : CacheStorage) (payload : Bytes) : ManifestRecord × CacheStorage :=
  let chunk_files := (payload.toChunks cacheChunkSizeBytes).foldl (writeMissing codec)
    storage.chunkFiles
  let manifest_bytes := manifestBytes codec payload
  (⟨hashHex codec manifest_bytes, payload.length, chunkRefs codec payload⟩,
    { storage with
      chunkFiles := chunk_files
      manifestFiles := writeMissing codec storage.manifestFiles manifest_bytes })

def applyGcPlan (storage : CacheStorage) (gc_plan : GarbageCollectionPlan) : CacheStorage :=
  { storage with
    manifestFiles := storage.manifestFiles.delAll gc_plan.manifestHashes
    chunkFiles := storage.chunkFiles.delAll gc_plan.chunkHashes }

def lookupKey (storage : CacheStorage) (key : String) : Option KeyEntryRecord :=
  storage.metadata.entries.get key

def loadManifest (storage : CacheStorage) (manifest_hash : String) :
    Except String ManifestRecord :=
  match storage.metadata.manifests.get manifest_hash with
  | none => .error "manifest not present in cache metadata"
  | some row => .ok ⟨manifest_hash, row.totalSizeBytes,
      (selectChunks storage.metadata.manifestChunks manifest_hash).map fun chunk =>
        ⟨chunk.chunkHash, chunk.sizeBytes⟩⟩

def chunkPathForHash (chunks_dir hash : String) : String :=
  TextOperations.joinWith '/' [chunks_dir, String.ofList (hash.toList.take 2),
    String.ofList ((hash.toList.drop 2).take 2), hash]

def readChunk (storage : CacheStorage) (chunk : CachedChunkRef) : Except String Bytes :=
  match storage.chunkFiles.get chunk.hash with
  | none => .error ("failed reading cache chunk " ++ chunkPathForHash codec.chunksDir chunk.hash)
  | some payload =>
    if payload.length ≠ chunk.sizeBytes then
      .error ("cache chunk size mismatch hash=" ++ chunk.hash ++ " expected=" ++
        toString chunk.sizeBytes ++ " actual=" ++ toString payload.length)
    else if hashHex codec payload ≠ chunk.hash then
      .error ("cache chunk hash mismatch expected=" ++ chunk.hash ++ " actual=" ++
        hashHex codec payload)
    else .ok payload

def readChunks (storage : CacheStorage) : List CachedChunkRef → Except String Bytes
  | [] => .ok []
  | chunk :: rest => do
    let payload ← readChunk codec storage chunk
    let later ← readChunks storage rest
    return payload ++ later

def readManifestPayload (storage : CacheStorage) (manifest : ManifestRecord) :
    Except String Bytes := do
  let assembled ← readChunks codec storage manifest.chunks
  if assembled.length ≠ manifest.totalSizeBytes then
    .error ("cache manifest size mismatch expected=" ++ toString manifest.totalSizeBytes ++
      " actual=" ++ toString assembled.length)
  else return assembled

def tryGetCached (storage : CacheStorage) (key : String) : Except String (Option Bytes) :=
  match lookupKey storage key with
  | none => .ok none
  | some entry => do
    let manifest ← loadManifest storage entry.manifestHash
    if manifest.totalSizeBytes ≠ entry.sizeBytes then
      .error ("cache metadata mismatch for key=" ++ key ++ ": entry_size=" ++
        toString entry.sizeBytes ++ " manifest_size=" ++ toString manifest.totalSizeBytes)
    else
      let payload ← readManifestPayload codec storage manifest
      return some payload

inductive CacheCall where
  | upsert (key : String) (payload : Bytes)
  | rename (from_key to_key : String) (overwrite : Bool)
  | copy (from_key to_key : String) (overwrite : Bool)
  | remove (key : String)

def commit (storage : CacheStorage) (change : GarbageCollectionPlan × CacheMetadata) :
    CacheStorage :=
  applyGcPlan { storage with metadata := change.2 } change.1

/-- A transaction that fails is rolled back; the files that were written stay. -/
def CacheCall.exec : CacheCall → CacheStorage → CacheStorage
  | .upsert key payload, storage =>
    let persisted := persistPayload codec storage payload
    match upsertKey persisted.2.metadata key persisted.1 with
    | .error _ => persisted.2
    | .ok change => commit persisted.2 change
  | .rename from_key to_key overwrite, storage =>
    commit storage (renameKey storage.metadata from_key to_key overwrite)
  | .copy from_key to_key overwrite, storage =>
    commit storage (copyKey storage.metadata from_key to_key overwrite)
  | .remove key, storage => commit storage (removeKey storage.metadata key)

end Storage

/-- What the cache is for: the payload last stored under each key. -/
abbrev Contents := Table String Bytes

def CacheCall.effect : CacheCall → Contents → Contents
  | .upsert key payload, contents => contents.put key payload
  | .rename from_key to_key _, contents =>
    match contents.get from_key with
    | none => contents
    | some payload => (contents.del from_key).put to_key payload
  | .copy from_key to_key _, contents =>
    match contents.get from_key with
    | none => contents
    | some payload => contents.put to_key payload
  | .remove key, contents => contents.del key

end BerryKeepClientCache
