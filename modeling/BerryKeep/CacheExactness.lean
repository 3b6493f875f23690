import BerryKeep.CacheReferences
import Mathlib.Logic.Equiv.List

/-!
The client cache over whole runs. A sound cache holds the contents: every entry
has its rows, every row is counted and has its file, and so every key reads
back the payload last stored under it. A call that writes over an entry whose
reference it did not release leaves a count that no longer agrees with the
entries, and the exact condition is `TargetFree`.
-/
namespace BerryKeepCacheExactness
open FiniteTable StatefulProgram ReferenceCount BerryKeepContentCodec BerryKeepClientCache
open BerryKeepCacheReferences

section Files
variable {codec : CacheCodec} {Text : Bytes → Prop} {files : Table String Bytes}

def Genuine (codec : CacheCodec) (Text : Bytes → Prop) (files : Table String Bytes) : Prop :=
  ∀ hash bytes, files.get hash = some bytes → hash = hashHex codec bytes ∧ Text bytes

theorem writeMissing_has (files : Table String Bytes) (bytes : Bytes) (hash : String) :
    (writeMissing codec files bytes).has hash = true ↔
      files.has hash = true ∨ hash = hashHex codec bytes := by
  unfold writeMissing
  split
  · next present =>
    constructor
    · exact .inl
    · rintro (kept | rfl)
      · exact kept
      · exact present
  · simp only [has_iff, get_put]
    split
    · next same => simp [same]
    · next different => simp [different]

theorem writeMissing_genuine (genuine : Genuine codec Text files) {bytes : Bytes}
    (text : Text bytes) : Genuine codec Text (writeMissing codec files bytes) := by
  intro hash found stored
  unfold writeMissing at stored
  split at stored
  · exact genuine hash found stored
  · rcases get_put_some stored with ⟨same, rfl⟩ | ⟨-, stored⟩
    · exact ⟨same, text⟩
    · exact genuine hash found stored

theorem writeMissings_has (pieces : List Bytes) (hash : String) :
    ∀ files : Table String Bytes, (pieces.foldl (writeMissing codec) files).has hash = true ↔
      files.has hash = true ∨ hash ∈ pieces.map (hashHex codec) := by
  induction pieces with
  | nil => intro files; simp
  | cons piece rest ih =>
    intro files
    rw [List.foldl_cons, ih, writeMissing_has, List.map_cons, List.mem_cons, or_assoc]

theorem writeMissings_genuine (pieces : List Bytes) :
    ∀ files : Table String Bytes, Genuine codec Text files → (∀ piece ∈ pieces, Text piece) →
      Genuine codec Text (pieces.foldl (writeMissing codec) files) := by
  intro files genuine texts
  refine List.foldlRecOn pieces _ genuine fun _ kept piece listed => ?_
  exact writeMissing_genuine kept (texts piece listed)

theorem delAll_genuine (genuine : Genuine codec Text files) (hashes : List String) :
    Genuine codec Text (files.delAll hashes) := by
  intro hash bytes stored
  rw [get_delAll] at stored
  split at stored
  · cases stored
  · exact genuine hash bytes stored

end Files

section Runs
variable {codec : CacheCodec} {Known : Bytes → Prop}

structure CacheRun where
  storage : CacheStorage
  contents : Contents

def CacheRun.start : CacheRun := ⟨CacheStorage.init, Table.empty⟩

def CacheRun.exec (codec : CacheCodec) (call : CacheCall) (run : CacheRun) : CacheRun :=
  ⟨call.exec codec run.storage, call.effect run.contents⟩

def IsManifest (codec : CacheCodec) (Known : Bytes → Prop) (bytes : Bytes) : Prop :=
  ∃ payload, Known payload ∧ bytes = manifestBytes codec payload

def IsChunk (Known : Bytes → Prop) (bytes : Bytes) : Prop :=
  ∃ payload, Known payload ∧ bytes ∈ payload.toChunks cacheChunkSizeBytes

/-- The cache holds exactly the contents: every row is counted, and every counted row has its
    file. -/
structure Sound (codec : CacheCodec) (Known : Bytes → Prop) (run : CacheRun) : Prop where
  balanced : Balanced codec Known run.storage.metadata fun _ => 0
  named : ∀ key, run.storage.metadata.entries.get key =
    (run.contents.get key).map (entryFor codec)
  known : ∀ key payload, run.contents.get key = some payload → Known payload
  manifestsBacked : ∀ hash, run.storage.metadata.manifests.has hash = true →
    run.storage.manifestFiles.has hash = true
  chunksBacked : ∀ hash, run.storage.metadata.chunks.has hash = true →
    run.storage.chunkFiles.has hash = true
  manifestsGenuine : Genuine codec (IsManifest codec Known) run.storage.manifestFiles
  chunksGenuine : Genuine codec (IsChunk Known) run.storage.chunkFiles

theorem sound_start : Sound codec Known CacheRun.start where
  balanced :=
    { manifests := fun _ => rfl
      chunks := fun _ => rfl
      described := by intro _ _ found; cases found
      listed := by intro _ member; cases member }
  named := fun _ => rfl
  known := by intro _ _ found; cases found
  manifestsBacked := by intro _ present; cases present
  chunksBacked := by intro _ present; cases present
  manifestsGenuine := by intro _ _ found; cases found
  chunksGenuine := by intro _ _ found; cases found

theorem has_delAll_of_get {ρ : Type} {files : Table String Bytes} {table : Table String ρ}
    {hashes : List String} (gone : ∀ hash ∈ hashes, table.get hash = none) {hash : String}
    (present : table.has hash = true) (stored : files.has hash = true) :
    (files.delAll hashes).has hash = true := by
  have unlisted : hash ∉ hashes := by
    intro listed
    rw [Table.has, gone hash listed] at present
    cases present
  rw [Table.has, get_delAll, if_neg unlisted]
  exact stored

variable {contents : Contents}

variable {entries : Table String KeyEntryRecord}

theorem sound_commit {storage : CacheStorage} {change : GarbageCollectionPlan × CacheMetadata}
    (settled : Settled codec Known change entries)
    (named : ∀ key, entries.get key = (contents.get key).map (entryFor codec))
    (known : ∀ key payload, contents.get key = some payload → Known payload)
    (manifestsBacked : ∀ hash, change.2.manifests.has hash = true →
      storage.manifestFiles.has hash = true)
    (chunksBacked : ∀ hash, change.2.chunks.has hash = true → storage.chunkFiles.has hash = true)
    (manifestsGenuine : Genuine codec (IsManifest codec Known) storage.manifestFiles)
    (chunksGenuine : Genuine codec (IsChunk Known) storage.chunkFiles) :
    Sound codec Known ⟨commit storage change, contents⟩ where
  balanced := settled.balanced
  named := by
    intro key
    rw [← named key, ← settled.entries]
    rfl
  known := known
  manifestsBacked := fun hash present =>
    has_delAll_of_get settled.manifestsGone present (manifestsBacked hash present)
  chunksBacked := fun hash present =>
    has_delAll_of_get settled.chunksGone present (chunksBacked hash present)
  manifestsGenuine := delAll_genuine manifestsGenuine _
  chunksGenuine := delAll_genuine chunksGenuine _

variable {run : CacheRun}

theorem Sound.commit (sound : Sound codec Known run)
    {change : GarbageCollectionPlan × CacheMetadata} (settled : Settled codec Known change entries)
    (within : RowsWithin change.2 run.storage.metadata)
    (named : ∀ key, entries.get key = (contents.get key).map (entryFor codec))
    (known : ∀ key payload, contents.get key = some payload → Known payload) :
    Sound codec Known ⟨BerryKeepClientCache.commit run.storage change, contents⟩ :=
  sound_commit settled named known
    (fun hash present => sound.manifestsBacked hash (within.manifests hash present))
    (fun hash present => sound.chunksBacked hash (within.chunks hash present))
    sound.manifestsGenuine sound.chunksGenuine

variable {payload : Bytes}

theorem known_put
    (known : ∀ key payload, contents.get key = some payload → Known payload)
    (new : Known payload) (target : String) :
    ∀ key found, (contents.put target payload).get key = some found → Known found := by
  intro key found stored
  rcases get_put_some stored with ⟨-, rfl⟩ | ⟨-, stored⟩
  · exact new
  · exact known key found stored

theorem known_del
    (known : ∀ key payload, contents.get key = some payload → Known payload) (target : String) :
    ∀ key found, (contents.del target).get key = some found → Known found := by
  intro key found stored
  exact known key found (get_del_some stored).2

theorem sound_upsert (sound : Sound codec Known run) (key : String)
    (known : Known payload) :
    Sound codec Known (CacheRun.exec codec (.upsert key payload) run) := by
  obtain ⟨change, done, settled, rows⟩ := upsertKey_ok sound.balanced key known
  have pieces : ∀ piece ∈ payload.toChunks cacheChunkSizeBytes, IsChunk Known piece :=
    fun piece listed => ⟨payload, known, listed⟩
  have executed : CacheRun.exec codec (.upsert key payload) run =
      ⟨commit (persistPayload codec run.storage payload).2 change, run.contents.put key payload⟩ := by
    -- The payload is persisted in files only, so the transaction sees the rows as they were.
    have committed : upsertKey (persistPayload codec run.storage payload).2.metadata key
        (persistPayload codec run.storage payload).1 = .ok change := done
    unfold CacheRun.exec CacheCall.exec
    simp only [CacheCall.effect, committed]
  rw [executed]
  apply sound_commit settled
  · intro other
    simp only [get_put]
    split
    · rfl
    · exact sound.named other
  · exact known_put sound.known known key
  · intro hash present
    refine (writeMissing_has _ _ hash).mpr ?_
    rcases rows.manifests hash present with older | new
    · exact .inl (sound.manifestsBacked hash older)
    · exact .inr new
  · intro hash present
    refine (writeMissings_has _ hash _).mpr ?_
    rcases rows.chunks hash present with older | new
    · exact .inl (sound.chunksBacked hash older)
    · right
      simpa [chunkRefs] using new
  · exact writeMissing_genuine sound.manifestsGenuine ⟨payload, known, rfl⟩
  · exact writeMissings_genuine _ _ sound.chunksGenuine pieces

theorem sound_remove (sound : Sound codec Known run) (key : String) :
    Sound codec Known (CacheRun.exec codec (.remove key) run) := by
  apply sound.commit (removeKeyInner_settled sound.balanced key) (removeKeyInner_rows _ key)
  · intro other
    simp only [CacheCall.effect, get_del]
    split
    · rfl
    · exact sound.named other
  · exact known_del sound.known key

variable {overwrite : Bool}

theorem freed_get {to_key key : String} (different : key ≠ to_key) :
    (if overwrite then entries.del to_key else entries).get key = entries.get key := by
  cases overwrite with
  | false => rfl
  | true => exact get_del_other _ different

theorem sound_absent (sound : Sound codec Known run) {key : String}
    (absent : run.contents.get key = none) : run.storage.metadata.entries.get key = none := by
  rw [sound.named, absent, Option.map_none]

theorem sound_stored (sound : Sound codec Known run) {key : String}
    (stored : run.contents.get key = some payload) :
    run.storage.metadata.entries.get key = some (entryFor codec payload) := by
  rw [sound.named, stored, Option.map_some]

theorem sound_idle (sound : Sound codec Known run) :
    Sound codec Known ⟨commit run.storage (.default, run.storage.metadata), run.contents⟩ :=
  sound.commit (settled_default sound.balanced) ⟨fun _ kept => kept, fun _ kept => kept⟩
    sound.named sound.known

theorem sound_rename (sound : Sound codec Known run) {from_key to_key : String}
    (stored : run.contents.get from_key = some payload)
    (clear : if from_key = to_key then overwrite = false
      else overwrite = true ∨ run.contents.get to_key = none) :
    Sound codec Known (CacheRun.exec codec (.rename from_key to_key overwrite) run) := by
  have source := sound_stored sound stored
  have settled := removeTarget_settled sound.balanced to_key overwrite
  have still : (removeTarget run.storage.metadata to_key overwrite).2.entries.get from_key =
      some (entryFor codec payload) := by
    rw [settled.entries]
    by_cases same : from_key = to_key
    · rw [if_pos same] at clear
      rw [clear]
      exact source
    · rw [freed_get same]
      exact source
  have free : ((removeTarget run.storage.metadata to_key overwrite).2.entries.del from_key).get
      to_key = none := by
    rw [settled.entries, get_del]
    split
    · rfl
    · next different =>
      rw [if_neg (Ne.symm different)] at clear
      cases overwrite with
      | true => exact get_del_self _ _
      | false =>
        rcases clear with impossible | absent
        · cases impossible
        · exact sound_absent sound absent
  have renamed := settled.sorted (settled.balanced.renamed still free) (fun _ gone => gone) rfl
  have within := removeTarget_rows run.storage.metadata to_key overwrite
  unfold CacheRun.exec CacheCall.exec renameKey
  simp only [source, CacheCall.effect, stored]
  apply sound.commit renamed ⟨within.manifests, within.chunks⟩
  · intro key
    simp only [get_put, settled.entries]
    split
    · rfl
    · next different =>
      simp only [get_del]
      split
      · rfl
      · rw [freed_get different]
        exact sound.named key
  · exact known_put (known_del sound.known from_key) (sound.known from_key payload stored) to_key

theorem sound_copy (sound : Sound codec Known run) {from_key to_key : String}
    (stored : run.contents.get from_key = some payload)
    (clear : overwrite = true ∧ (from_key ≠ to_key ∨
        ∃ other, other ≠ from_key ∧ run.contents.get other = run.contents.get from_key) ∨
      overwrite = false ∧ run.contents.get to_key = none) :
    Sound codec Known (CacheRun.exec codec (.copy from_key to_key overwrite) run) := by
  have source := sound_stored sound stored
  have settled := removeTarget_settled sound.balanced to_key overwrite
  -- Some entry still names the manifest after the target is freed.
  have witness : ∃ key, (removeTarget run.storage.metadata to_key overwrite).2.entries.get key =
      some (entryFor codec payload) := by
    rw [settled.entries]
    rcases clear with ⟨_, different | ⟨other, different, same⟩⟩ | ⟨kept, _⟩
    · exact ⟨from_key, (freed_get different).trans source⟩
    · by_cases equal : from_key = to_key
      · refine ⟨other, (freed_get (equal ▸ different)).trans ?_⟩
        exact sound_stored sound (same.trans stored)
      · exact ⟨from_key, (freed_get equal).trans source⟩
    · rw [kept]
      exact ⟨from_key, source⟩
  have free : (removeTarget run.storage.metadata to_key overwrite).2.entries.get to_key = none := by
    rw [settled.entries]
    rcases clear with ⟨freed, _⟩ | ⟨kept, absent⟩
    · rw [freed]
      exact get_del_self _ _
    · rw [kept]
      exact sound_absent sound absent
  obtain ⟨key, named⟩ := witness
  obtain ⟨row, found, _⟩ := settled.balanced.row_of_entry named
  have present := (has_iff _ _).mpr ⟨row, found⟩
  have copied := settled.balanced.copied (entryFor codec payload) found free
  have within := removeTarget_rows run.storage.metadata to_key overwrite
  unfold CacheRun.exec CacheCall.exec copyKey
  simp only [source, CacheCall.effect, stored]
  have sorted := settled.sorted copied (by
      intro hash gone
      simp only [addManifestReference, found, get_put]
      split
      · next same =>
        rw [same, found] at gone
        cases gone
      · exact gone) rfl
  apply sound.commit sorted
  · constructor
    · intro hash kept
      simp only [addManifestReference, found, has_put_of_has present] at kept
      exact within.manifests hash kept
    · exact within.chunks
  · intro other
    simp only [get_put, settled.entries]
    split
    · rfl
    · next different =>
      rw [freed_get different]
      exact sound.named other
  · exact known_put sound.known (sound.known from_key payload stored) to_key

end Runs

section Reading
variable {codec : CacheCodec} {Known : Bytes → Prop}

def CollisionFree (codec : CacheCodec) (Known : Bytes → Prop) : Prop :=
  ∀ a b, IsManifest codec Known a ∨ IsChunk Known a → IsManifest codec Known b ∨ IsChunk Known b →
    codec.digest a = codec.digest b → a = b

theorem toChunks_go_flatten {α : Type} (n : Nat) (xs : List α) :
    ∀ (piece : Array α) (pieces : Array (List α)),
      (List.toChunks.go n xs piece pieces).flatten = pieces.toList.flatten ++ piece.toList ++ xs := by
  induction xs with
  | nil =>
    intro piece pieces
    simp [List.toChunks.go]
  | cons x xs ih =>
    intro piece pieces
    rw [List.toChunks.go]
    split
    · simp [ih]
    · simp [ih]

theorem toChunks_flatten {α : Type} (size : Nat) (xs : List α) :
    (xs.toChunks size).flatten = xs := by
  cases xs with
  | nil => cases size <;> rfl
  | cons x xs =>
    cases size with
    | zero => simp [List.toChunks]
    | succ n =>
      rw [List.toChunks, toChunks_go_flatten]
      · simp
      · intro impossible
        cases impossible

theorem hash_determines (collisionFree : CollisionFree codec Known) {a b : Bytes}
    (first : IsManifest codec Known a ∨ IsChunk Known a)
    (second : IsManifest codec Known b ∨ IsChunk Known b)
    (same : hashHex codec a = hashHex codec b) : a = b :=
  collisionFree a b first second (toHex_injective same)

theorem pieces_determined (collisionFree : CollisionFree codec Known) (pieces : List Bytes) :
    ∀ others : List Bytes, (∀ piece ∈ pieces, IsChunk Known piece) →
      (∀ piece ∈ others, IsChunk Known piece) →
      pieces.map (hashHex codec) = others.map (hashHex codec) → pieces = others := by
  induction pieces with
  | nil =>
    intro others _ _ same
    exact (List.map_eq_nil_iff.mp same.symm).symm
  | cons piece rest ih =>
    intro others first second same
    cases others with
    | nil => cases same
    | cons other others =>
      simp only [List.map_cons, List.cons.injEq] at same
      have heads := hash_determines collisionFree (.inr (first piece List.mem_cons_self))
        (.inr (second other List.mem_cons_self)) same.1
      have tails := ih others (fun p listed => first p (List.mem_cons_of_mem _ listed))
        (fun p listed => second p (List.mem_cons_of_mem _ listed)) same.2
      rw [heads, tails]

theorem payload_determined (collisionFree : CollisionFree codec Known)
    (faithful : Function.Injective codec.encodeManifest) {payload other : Bytes}
    (first : Known payload) (second : Known other)
    (same : manifestHash codec payload = manifestHash codec other) : payload = other := by
  have texts := hash_determines collisionFree (.inl ⟨payload, first, rfl⟩)
    (.inl ⟨other, second, rfl⟩) same
  have chunks : chunkRefs codec payload = chunkRefs codec other :=
    congrArg CachedManifest.chunks (faithful texts)
  have hashes := congrArg (List.map fun chunk : CachedChunkRef => chunk.hash) chunks
  simp only [chunkRefs, List.map_map] at hashes
  have pieces := pieces_determined collisionFree _ _ (fun piece listed => ⟨payload, first, listed⟩)
    (fun piece listed => ⟨other, second, listed⟩) hashes
  rw [← toChunks_flatten cacheChunkSizeBytes payload, pieces, toChunks_flatten]

theorem readChunks_pieces {storage : CacheStorage} (pieces : List Bytes)
    (stored : ∀ piece ∈ pieces, storage.chunkFiles.get (hashHex codec piece) = some piece) :
    readChunks codec storage (pieces.map fun piece => ⟨hashHex codec piece, piece.length⟩) =
      .ok pieces.flatten := by
  induction pieces with
  | nil => rfl
  | cons piece rest ih =>
    have later := ih fun p listed => stored p (List.mem_cons_of_mem _ listed)
    have here : readChunk codec storage ⟨hashHex codec piece, piece.length⟩ = .ok piece := by
      simp [readChunk, stored piece List.mem_cons_self]
    rw [List.map_cons, readChunks, here, later]
    rfl

theorem chunkRows_refs (codec : CacheCodec) (payload : Bytes) :
    (chunkRows codec payload).map (fun row => (⟨row.chunkHash, row.sizeBytes⟩ : CachedChunkRef)) =
      chunkRefs codec payload := by
  unfold chunkRows
  rw [List.map_map]
  have second : ((fun row : ManifestChunkRow => (⟨row.chunkHash, row.sizeBytes⟩ : CachedChunkRef)) ∘
      chunkRow (manifestHash codec payload)) = Prod.fst := rfl
  rw [second, List.zipIdx_map_fst]

theorem sound_files {run : CacheRun} (sound : Sound codec Known run)
    (collisionFree : CollisionFree codec Known)
    (faithful : Function.Injective codec.encodeManifest) {key : String} {payload : Bytes}
    (stored : run.contents.get key = some payload) :
    (∃ row, run.storage.metadata.manifests.get (manifestHash codec payload) = some row ∧
      row.totalSizeBytes = payload.length) ∧
      rowsOf run.storage.metadata.manifestChunks (manifestHash codec payload) =
        chunkRows codec payload ∧
      run.storage.manifestFiles.get (manifestHash codec payload) =
        some (manifestBytes codec payload) ∧
      ∀ piece ∈ payload.toChunks cacheChunkSizeBytes,
        run.storage.chunkFiles.get (hashHex codec piece) = some piece := by
  have known := sound.known key payload stored
  obtain ⟨row, found, _⟩ := sound.balanced.row_of_entry (sound_stored sound stored)
  change run.storage.metadata.manifests.get (manifestHash codec payload) = some row at found
  obtain ⟨other, other_known, named, total, rows⟩ := sound.balanced.described _ row found
  have same := payload_determined collisionFree faithful other_known known named
  subst same
  refine ⟨⟨row, found, total⟩, rows, ?_, ?_⟩
  · obtain ⟨bytes, file⟩ := (has_iff _ _).mp
      (sound.manifestsBacked _ ((has_iff _ _).mpr ⟨row, found⟩))
    obtain ⟨hash, text⟩ := sound.manifestsGenuine _ bytes file
    have equal := hash_determines collisionFree (.inl ⟨other, known, rfl⟩) (.inl text) hash
    rw [file, ← equal]
  · intro piece listed
    have chunk_known : IsChunk Known piece := ⟨other, known, listed⟩
    have counted : 0 < rowCount run.storage.metadata (hashHex codec piece) := by
      have member : (hashHex codec piece) ∈ (chunkRows codec other).map (·.chunkHash) := by
        rw [chunkRows_hashes]
        simp only [chunkRefs, List.map_map]
        exact List.mem_map.mpr ⟨piece, listed, rfl⟩
      obtain ⟨chunk_row, row_listed, hash⟩ := List.mem_map.mp member
      rw [← rows] at row_listed
      exact List.countP_pos_iff.mpr
        ⟨chunk_row, (List.mem_filter.mp row_listed).1, beq_iff_eq.mpr hash⟩
    have present := sound.balanced.chunks.present counted
    obtain ⟨chunk_row, chunk_found, _⟩ := Option.map_eq_some_iff.mp present
    obtain ⟨bytes, file⟩ := (has_iff _ _).mp
      (sound.chunksBacked _ ((has_iff _ _).mpr ⟨chunk_row, chunk_found⟩))
    obtain ⟨hash, text⟩ := sound.chunksGenuine _ bytes file
    have equal := hash_determines collisionFree (.inr chunk_known) (.inr text) hash
    rw [file, ← equal]

theorem sound_reads {run : CacheRun} (sound : Sound codec Known run)
    (collisionFree : CollisionFree codec Known)
    (faithful : Function.Injective codec.encodeManifest) {key : String} {payload : Bytes}
    (stored : run.contents.get key = some payload) :
    tryGetCached codec run.storage key = .ok (some payload) := by
  obtain ⟨⟨row, found, total⟩, rows, _, files⟩ :=
    sound_files sound collisionFree faithful stored
  have loaded : loadManifest run.storage (manifestHash codec payload) =
      .ok (manifestFor codec payload) := by
    unfold loadManifest
    rw [found]
    simp only [selectChunks_described rows, chunkRows_refs, total]
    rfl
  have read : readManifestPayload codec run.storage (manifestFor codec payload) = .ok payload := by
    unfold readManifestPayload manifestFor chunkRefs
    rw [readChunks_pieces _ files, toChunks_flatten]
    change (if payload.length ≠ payload.length then _ else _) = _
    rw [if_neg (by simp)]
    rfl
  unfold tryGetCached lookupKey
  rw [sound_stored sound stored]
  simp only [entryFor, loaded]
  change (if payload.length ≠ payload.length then _ else _) = _
  rw [if_neg (by simp), read]
  rfl

end Reading

section Exactness
variable {codec : CacheCodec} {Known : Bytes → Prop} {run : CacheRun}

structure CacheExact (codec : CacheCodec) (run : CacheRun) : Prop where
  manifestCounts : ∀ hash row, run.storage.metadata.manifests.get hash = some row →
    row.refCount = entryCount run.storage.metadata hash
  chunkCounts : ∀ hash row, run.storage.metadata.chunks.get hash = some row →
    row.refCount = rowCount run.storage.metadata hash
  readable : ∀ key entry, run.storage.metadata.entries.get key = some entry →
    ∃ payload, run.contents.get key = some payload ∧
      run.storage.manifestFiles.get entry.manifestHash = some (manifestBytes codec payload) ∧
      (∀ chunk ∈ payload.toChunks cacheChunkSizeBytes,
        run.storage.chunkFiles.get (hashHex codec chunk) = some chunk) ∧
      tryGetCached codec run.storage key = .ok (some payload)
  manifestsUsed : ∀ hash row, run.storage.metadata.manifests.get hash = some row →
    0 < entryCount run.storage.metadata hash
  chunksUsed : ∀ hash row, run.storage.metadata.chunks.get hash = some row →
    0 < rowCount run.storage.metadata hash

theorem exact_of_sound (collisionFree : CollisionFree codec Known)
    (faithful : Function.Injective codec.encodeManifest) (sound : Sound codec Known run) :
    CacheExact codec run where
  manifestCounts := fun _ _ found =>
    (sound.balanced.manifests.count (counts_of_get _ _ found)).1
  chunkCounts := fun _ _ found => (sound.balanced.chunks.count (counts_of_get _ _ found)).1
  readable := by
    intro key entry found
    rw [sound.named] at found
    obtain ⟨payload, stored, rfl⟩ := Option.map_eq_some_iff.mp found
    obtain ⟨_, _, manifest_file, chunk_files⟩ := sound_files sound collisionFree faithful stored
    exact ⟨payload, stored, manifest_file, chunk_files,
      sound_reads sound collisionFree faithful stored⟩
  manifestsUsed := fun _ _ found =>
    (sound.balanced.manifests.count (counts_of_get _ _ found)).2
  chunksUsed := fun _ _ found => (sound.balanced.chunks.count (counts_of_get _ _ found)).2

/-- The target of a rename or copy is free when the entry is written, or was freed with its
    reference, and freeing it did not take the manifest of the source. -/
def TargetFree (run : CacheRun) : CacheCall → Prop
  | .upsert _ _ => True
  | .rename from_key to_key overwrite =>
    run.contents.get from_key = none ∨
      if from_key = to_key then overwrite = false
      else overwrite = true ∨ run.contents.get to_key = none
  | .copy from_key to_key overwrite =>
    run.contents.get from_key = none ∨
      overwrite = true ∧ (from_key ≠ to_key ∨
        ∃ other, other ≠ from_key ∧ run.contents.get other = run.contents.get from_key) ∨
      overwrite = false ∧ run.contents.get to_key = none
  | .remove _ => True

def Stores (Known : Bytes → Prop) : CacheCall → Prop
  | .upsert _ payload => Known payload
  | _ => True

theorem sound_exec (sound : Sound codec Known run) (call : CacheCall)
    (stores : Stores Known call) (free : TargetFree run call) :
    Sound codec Known (CacheRun.exec codec call run) := by
  cases call with
  | upsert key payload => exact sound_upsert sound key stores
  | remove key => exact sound_remove sound key
  | rename from_key to_key overwrite =>
    cases stored : run.contents.get from_key with
    | some payload =>
      refine sound_rename sound stored (free.resolve_left ?_)
      rw [stored]
      exact Option.some_ne_none payload
    | none =>
      have idle := sound_idle sound
      unfold CacheRun.exec CacheCall.exec renameKey
      simpa only [sound_absent sound stored, CacheCall.effect, stored] using idle
  | copy from_key to_key overwrite =>
    cases stored : run.contents.get from_key with
    | some payload =>
      refine sound_copy sound stored (free.resolve_left ?_)
      rw [stored]
      exact Option.some_ne_none payload
    | none =>
      have idle := sound_idle sound
      unfold CacheRun.exec CacheCall.exec copyKey
      simpa only [sound_absent sound stored, CacheCall.effect, stored] using idle

/-- Counts that belong to other references than those of the entries show: as a wrong count, or
    as an entry whose manifest is gone. -/
theorem inexact_of_counts {refs : String → Nat}
    (counted : Exact (counts run.storage.metadata.manifests ManifestRow.refCount) refs)
    (hash : String) (different : refs hash ≠ entryCount run.storage.metadata hash) :
    ¬CacheExact codec run := by
  intro exact
  cases found : run.storage.metadata.manifests.get hash with
  | some row =>
    have count := (counted.count (counts_of_get _ _ found)).1
    exact different (count.symm.trans (exact.manifestCounts hash row found))
  | none =>
    have unused := counted.absent (counts_of_absent _ _ found)
    have used : 0 < entryCount run.storage.metadata hash := by omega
    obtain ⟨key, entry, stored, named⟩ := (countWhere_pos _ _).mp used
    obtain ⟨payload, _, _, _, read⟩ := exact.readable key entry stored
    have failed : tryGetCached codec run.storage key =
        .error "manifest not present in cache metadata" := by
      unfold tryGetCached lookupKey
      rw [stored]
      simp only [loadManifest, beq_iff_eq.mp named, found]
      rfl
    rw [failed] at read
    cases read

variable {key : String}

theorem entryCount_entered (db : CacheMetadata) (absent : db.entries.get key = none)
    (payload : Bytes) :
    entryCount { db with entries := db.entries.put key (entryFor codec payload) }
      (manifestHash codec payload) = entryCount db (manifestHash codec payload) + 1 := by
  rw [entryCount_put, del_absent _ absent]
  simp only [entryFor, one_self]

theorem overwritten_absent (sound : Sound codec Known run) (key : String) :
    (removeTarget run.storage.metadata key true).2.entries.get key = none := by
  rw [(removeTarget_settled sound.balanced key true).entries]
  exact get_del_self _ _

theorem rename_to_itself_inexact (sound : Sound codec Known run) {payload : Bytes}
    (stored : run.contents.get key = some payload) :
    ¬CacheExact codec (CacheRun.exec codec (.rename key key true) run) := by
  have settled := removeTarget_settled sound.balanced key true
  have absent := overwritten_absent sound key
  have entered := @entryCount_entered codec key (removeTarget run.storage.metadata key true).2
    absent payload
  unfold CacheRun.exec CacheCall.exec renameKey
  simp only [sound_stored sound stored]
  refine inexact_of_counts settled.balanced.manifests (manifestHash codec payload) ?_
  rw [del_absent _ absent]
  exact Nat.ne_of_lt (entered ▸ Nat.lt_succ_self _)

theorem rename_onto_entry_inexact (sound : Sound codec Known run) {from_key to_key : String}
    {payload other : Bytes} (different : from_key ≠ to_key)
    (stored : run.contents.get from_key = some payload)
    (taken : run.contents.get to_key = some other) :
    ¬CacheExact codec (CacheRun.exec codec (.rename from_key to_key false) run) := by
  have source := sound_stored sound stored
  have target : (run.storage.metadata.entries.del from_key).get to_key =
      some (entryFor codec other) :=
    (get_del_other _ (Ne.symm different)).trans (sound_stored sound taken)
  unfold CacheRun.exec CacheCall.exec renameKey
  simp only [source]
  refine inexact_of_counts sound.balanced.manifests (manifestHash codec other) ?_
  change _ ≠ entryCount { run.storage.metadata with
    entries := (run.storage.metadata.entries.del from_key).put to_key (entryFor codec payload) } _
  have whole := entryCount_del run.storage.metadata source (manifestHash codec other)
  have rest := entryCount_del run.storage.metadata target (manifestHash codec other)
  change entryCount run.storage.metadata _ = _ at whole
  rw [entryCount_put, whole, rest]
  simp only [entryFor, one_self]
  omega

theorem copy_to_itself_inexact (sound : Sound codec Known run)
    (collisionFree : CollisionFree codec Known)
    (faithful : Function.Injective codec.encodeManifest) {payload : Bytes}
    (stored : run.contents.get key = some payload)
    (alone : ¬∃ other, other ≠ key ∧ run.contents.get other = run.contents.get key) :
    ¬CacheExact codec (CacheRun.exec codec (.copy key key true) run) := by
  have settled := removeTarget_settled sound.balanced key true
  have entries : (removeTarget run.storage.metadata key true).2.entries =
      run.storage.metadata.entries.del key := settled.entries
  have absent := overwritten_absent sound key
  -- No other entry names the manifest, so its row went with the entry.
  have unused : entryCount (removeTarget run.storage.metadata key true).2
      (manifestHash codec payload) = 0 := by
    by_contra used
    obtain ⟨other, entry, found, named⟩ := (countWhere_pos _ _).mp (Nat.pos_of_ne_zero used)
    rw [entries] at found
    obtain ⟨different, found⟩ := get_del_some found
    rw [sound.named] at found
    obtain ⟨held, other_stored, rfl⟩ := Option.map_eq_some_iff.mp found
    have same := payload_determined collisionFree faithful (sound.known other held other_stored)
      (sound.known key payload stored) (beq_iff_eq.mp named)
    refine alone ⟨other, different, ?_⟩
    rw [other_stored, stored, same]
  have gone : (removeTarget run.storage.metadata key true).2.manifests.get
      (manifestHash codec payload) = none := by
    have count := settled.balanced.manifests (manifestHash codec payload)
    beta_reduce at count
    rw [unused, if_pos rfl] at count
    exact Option.map_eq_none_iff.mp count
  unfold CacheRun.exec CacheCall.exec copyKey
  simp only [sound_stored sound stored]
  have untouched : addManifestReference (removeTarget run.storage.metadata key true).2.manifests
      (entryFor codec payload).manifestHash =
        (removeTarget run.storage.metadata key true).2.manifests := by
    simp only [addManifestReference, entryFor, gone]
  rw [untouched]
  have entered := @entryCount_entered codec key (removeTarget run.storage.metadata key true).2
    absent payload
  refine inexact_of_counts settled.balanced.manifests (manifestHash codec payload) ?_
  exact Nat.ne_of_lt (entered ▸ Nat.lt_succ_self _)

theorem copy_onto_entry_inexact (sound : Sound codec Known run) {from_key to_key : String}
    {payload other : Bytes} (stored : run.contents.get from_key = some payload)
    (taken : run.contents.get to_key = some other) :
    ¬CacheExact codec (CacheRun.exec codec (.copy from_key to_key false) run) := by
  have source := sound_stored sound stored
  obtain ⟨row, found, _⟩ := sound.balanced.row_of_entry source
  have referenced := sound.balanced.referenced found
  unfold CacheRun.exec CacheCall.exec copyKey
  simp only [source]
  refine inexact_of_counts referenced.manifests (manifestHash codec other) ?_
  change entryCount run.storage.metadata _ + _ ≠ entryCount { run.storage.metadata with
    entries := run.storage.metadata.entries.put to_key (entryFor codec payload) } _
  have whole := entryCount_del run.storage.metadata (sound_stored sound taken)
    (manifestHash codec other)
  change entryCount run.storage.metadata _ = _ at whole
  rw [entryCount_put, whole]
  simp only [entryFor, one_self]
  omega

theorem exec_inexact (collisionFree : CollisionFree codec Known)
    (faithful : Function.Injective codec.encodeManifest) (sound : Sound codec Known run)
    (call : CacheCall) (taken : ¬TargetFree run call) :
    ¬CacheExact codec (CacheRun.exec codec call run) := by
  cases call with
  | upsert key payload => exact absurd trivial taken
  | remove key => exact absurd trivial taken
  | rename from_key to_key overwrite =>
    simp only [TargetFree, not_or] at taken
    obtain ⟨cached, clash⟩ := taken
    obtain ⟨payload, stored⟩ := Option.ne_none_iff_exists'.mp cached
    by_cases same : from_key = to_key
    · subst same
      rw [if_pos rfl, Bool.not_eq_false] at clash
      rw [clash]
      exact rename_to_itself_inexact sound stored
    · rw [if_neg same, not_or, Bool.not_eq_true] at clash
      obtain ⟨other, held⟩ := Option.ne_none_iff_exists'.mp clash.2
      rw [clash.1]
      exact rename_onto_entry_inexact sound same stored held
  | copy from_key to_key overwrite =>
    simp only [TargetFree, not_or] at taken
    obtain ⟨cached, overwriting, keeping⟩ := taken
    obtain ⟨payload, stored⟩ := Option.ne_none_iff_exists'.mp cached
    cases overwrite with
    | true =>
      simp only [true_and, not_or, not_not] at overwriting
      obtain ⟨same, alone⟩ := overwriting
      subst same
      exact copy_to_itself_inexact sound collisionFree faithful stored alone
    | false =>
      simp only [true_and] at keeping
      obtain ⟨other, held⟩ := Option.ne_none_iff_exists'.mp keeping
      exact copy_onto_entry_inexact sound stored held

end Exactness

def StoredIn (calls : List CacheCall) (payload : Bytes) : Prop :=
  ∃ key, .upsert key payload ∈ calls

/-- The counts are exact in every state of a run precisely if each call of it finds its target
    free. -/
theorem cache_references_exact_iff (codec : CacheCodec) (calls : List CacheCall)
    (collisionFree : CollisionFree codec (StoredIn calls))
    (faithful : Function.Injective codec.encodeManifest) :
    (∀ done, done <+: calls →
      CacheExact codec (runAll (CacheRun.exec codec) CacheRun.start done)) ↔
      AllSteps (CacheRun.exec codec) TargetFree CacheRun.start calls := by
  apply allSteps_iff_of (Stores (StoredIn calls)) (Sound codec (StoredIn calls))
  · intro run call stores free sound
    exact sound_exec sound call stores free
  · intro run sound
    exact exact_of_sound collisionFree faithful sound
  · intro run call _ sound taken
    exact exec_inexact collisionFree faithful sound call taken
  · intro call listed
    cases call with
    | upsert key payload => exact ⟨key, listed⟩
    | rename from_key to_key overwrite => trivial
    | copy from_key to_key overwrite => trivial
    | remove key => trivial
  · exact sound_start

section Example

def byteHash (byte : UInt8) : String :=
  if byte = 1 then "48fc721fbbc172e0925fa27af1671de225ba927134802998b10a1568a188652b"
  else "ab13bedf42e84bae0f7c62c7dd6a8ada571e8829bed6ea558217f0361b5e25d0"

def byteManifest (byte : UInt8) : CachedManifest := ⟨1, [⟨byteHash byte, 1⟩]⟩

def manifestJson (byte : UInt8) : Bytes :=
  textBytes ("\x7b\"total_size_bytes\":1,\"chunks\":[\x7b\"hash\":\"" ++ byteHash byte ++
    "\",\"size_bytes\":1\x7d]\x7d")

def byteDigests : List (Bytes × String) :=
  [([1], byteHash 1), ([2], byteHash 2),
    (manifestJson 1, "b7a320d414cf321311c9dff9297f755a81040f410251c57db6a86f2d6a9234ac"),
    (manifestJson 2, "783b7a4053c486997b48eafda992b9a809ff08ee314ecbe6c9401034e37baf7c")]

/-- The digests and the JSON of the payloads `[1]` and `[2]`; other manifest texts differ in
    length. -/
def byteCodec : CacheCodec where
  chunksDir := "chunks"
  digest bytes := ((byteDigests.find? fun row => row.1 = bytes).map fun row => ofHex row.2).getD bytes
  encodeManifest manifest :=
    if manifest = byteManifest 1 then manifestJson 1
    else if manifest = byteManifest 2 then manifestJson 2
    else List.replicate (Encodable.encode (manifest.totalSizeBytes,
      manifest.chunks.map fun chunk => (chunk.hash.toList.map Char.toNat, chunk.sizeBytes))) 0

theorem byteCodec_texts : manifestBytes byteCodec [1] = manifestJson 1 ∧
    manifestBytes byteCodec [2] = manifestJson 2 := by
  decide +kernel

theorem byteDigests_apart : ∀ a ∈ byteDigests.map Prod.fst, ∀ b ∈ byteDigests.map Prod.fst,
    byteCodec.digest a = byteCodec.digest b → a = b := by
  decide +kernel

theorem byteCodec_collisionFree {Known : Bytes → Prop}
    (known : ∀ payload, Known payload → payload = [1] ∨ payload = [2]) :
    CollisionFree byteCodec Known := by
  have listed : ∀ a, IsManifest byteCodec Known a ∨ IsChunk Known a →
      a ∈ byteDigests.map Prod.fst := by
    rintro a (⟨payload, stored, rfl⟩ | ⟨payload, stored, piece⟩)
    · rcases known payload stored with rfl | rfl
      · simp [byteDigests, byteCodec_texts.1]
      · simp [byteDigests, byteCodec_texts.2]
    · have chunks : ([1] : Bytes).toChunks cacheChunkSizeBytes = [[1]] ∧
          ([2] : Bytes).toChunks cacheChunkSizeBytes = [[2]] := by
        decide +kernel
      rcases known payload stored with rfl | rfl
      · rw [chunks.1, List.mem_singleton] at piece
        simp [byteDigests, piece]
      · rw [chunks.2, List.mem_singleton] at piece
        simp [byteDigests, piece]
  exact fun a b from_a from_b => byteDigests_apart a (listed a from_a) b (listed b from_b)

theorem zeros_not_manifest (n : Nat) (byte : UInt8) : List.replicate n 0 ≠ manifestJson byte := by
  intro same
  have member : (34 : UInt8) ∈ manifestJson byte := by
    unfold manifestJson byteHash
    split <;> decide +kernel
  rw [← same] at member
  exact absurd (List.eq_of_mem_replicate member) (by decide)

theorem unary_injective {manifest other : CachedManifest}
    (same : List.replicate (Encodable.encode (manifest.totalSizeBytes,
        manifest.chunks.map fun chunk => (chunk.hash.toList.map Char.toNat, chunk.sizeBytes)))
        (0 : UInt8) =
      List.replicate (Encodable.encode (other.totalSizeBytes,
        other.chunks.map fun chunk => (chunk.hash.toList.map Char.toNat, chunk.sizeBytes))) 0) :
    manifest = other := by
  have lengths := congrArg List.length same
  simp only [List.length_replicate] at lengths
  have encoded := Encodable.encode_injective lengths
  obtain ⟨total, chunks⟩ := Prod.mk.inj encoded
  have chunk_injective : Function.Injective fun chunk : CachedChunkRef =>
      (chunk.hash.toList.map Char.toNat, chunk.sizeBytes) := by
    intro a b equal
    obtain ⟨hash, size⟩ := Prod.mk.inj equal
    have texts := List.map_injective_iff.mpr (fun _ _ => Char.toNat_inj.mp) hash
    cases a
    cases b
    simp only [CachedChunkRef.mk.injEq]
    exact ⟨String.toList_injective texts, size⟩
  have refs := List.map_injective_iff.mpr chunk_injective chunks
  cases manifest
  cases other
  simp only [CachedManifest.mk.injEq]
  exact ⟨total, refs⟩

theorem byteCodec_faithful : Function.Injective byteCodec.encodeManifest := by
  have apart : manifestJson 1 ≠ manifestJson 2 := by decide +kernel
  intro manifest other same
  simp only [byteCodec] at same
  split at same
  · next first =>
    split at same
    · next also => rw [first, also]
    · split at same
      · exact absurd same apart
      · exact absurd same.symm (zeros_not_manifest _ 1)
  · split at same
    · next second =>
      split at same
      · exact absurd same.symm apart
      · split at same
        · next also => rw [second, also]
        · exact absurd same.symm (zeros_not_manifest _ 2)
    · split at same
      · exact absurd same (zeros_not_manifest _ 1)
      · split at same
        · exact absurd same (zeros_not_manifest _ 2)
        · exact unary_injective same

theorem copied_entry_exact :
    CacheExact byteCodec (runAll (CacheRun.exec byteCodec) CacheRun.start
      [.upsert "a" [1], .upsert "b" [2], .copy "a" "b" true, .rename "b" "c" false, .remove "a"]) := by
  refine (cache_references_exact_iff byteCodec _ (byteCodec_collisionFree ?_)
    byteCodec_faithful).mpr ?_ _ (List.prefix_refl _)
  · rintro payload ⟨key, listed⟩
    simp only [List.mem_cons, CacheCall.upsert.injEq, List.not_mem_nil, reduceCtorEq, or_false]
      at listed
    exact listed.imp And.right And.right
  · simp [AllSteps, TargetFree, CacheRun.exec, CacheCall.effect, CacheRun.start, get_put]

/-- Copying an entry to its own key loses its payload, and a rename onto a cached key leaves a
    manifest that nothing names. -/
theorem target_not_freed :
    ¬CacheExact byteCodec (runAll (CacheRun.exec byteCodec) CacheRun.start
        [.upsert "a" [1], .copy "a" "a" true]) ∧
      ¬CacheExact byteCodec (runAll (CacheRun.exec byteCodec) CacheRun.start
        [.upsert "a" [1], .upsert "b" [2], .rename "a" "b" false]) := by
  have first := sound_exec (@sound_start byteCodec fun payload => payload = [1] ∨ payload = [2])
    (.upsert "a" [1]) (.inl rfl) trivial
  have second := sound_exec first (.upsert "b" [2]) (.inr rfl) trivial
  constructor
  · have stored : Table.get (CacheRun.exec byteCodec (.upsert "a" [1]) CacheRun.start).contents
        "a" = some [1] := rfl
    refine copy_to_itself_inexact first (byteCodec_collisionFree fun _ => id) byteCodec_faithful
      stored ?_
    rintro ⟨other, different, held⟩
    simp [CacheRun.exec, CacheCall.effect, CacheRun.start, get_put, different] at held
  · exact @rename_onto_entry_inexact _ _ _ second "a" "b" [1] [2] (by decide) rfl rfl

end Example

end BerryKeepCacheExactness
