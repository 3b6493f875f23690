import BerryKeep.ContentCleanup

/-!
Objects made of chunks that are already in the store. An upload of a known size
is cut into chunks of one size and a last one with the rest; the put checks the
sizes and the bytes of every chunk before it writes the manifest, so a put that
succeeds describes exactly the bytes that a read of its chunks returns.
-/
namespace BerryKeepUploadAssembly
open FiniteTable TextOperations StatefulProgram BerryKeepContentCodec BerryKeepStoragePool
  BerryKeepCatalog BerryKeepVersionGraph BerryKeepCurrentNamespace BerryKeepNodeStore
  BerryKeepLineageResolution BerryKeepStoreOperations BerryKeepContentCleanup

abbrev UploadChunkRef := ChunkRef

def uploadChunkCount (total_size_bytes chunk_size_bytes : Nat) : Nat :=
  if total_size_bytes = 0 then 1 else (total_size_bytes - 1) / chunk_size_bytes + 1

def expectedUploadChunkSize (total_size_bytes chunk_size_bytes chunk_count index : Nat) :
    Option Nat :=
  if chunk_count = 0 then none
  else if chunk_count ≤ index then none
  else if index + 1 < chunk_count then some chunk_size_bytes
  else some (total_size_bytes - (chunk_count - 1) * chunk_size_bytes)

inductive LocalChunkIntegrity where
  | valid
  | missing
  | sizeMismatch (actual_size_bytes : Nat)
  | hashMismatch (actual_hash : String)

def validateChunkPathIntegrity (codec : Codec) (st : ContentStore) (chunk_path : FilePath)
    (hash : String) (expected_size_bytes : Nat) : LocalChunkIntegrity :=
  match st.fileAt chunk_path with
  | none => .missing
  | some file =>
    if file.bytes.length ≠ expected_size_bytes then .sizeMismatch file.bytes.length
    else if hashHex codec file.bytes ≠ hash then .hashMismatch (hashHex codec file.bytes)
    else .valid

def availableUploadChunkRefs (codec : Codec) (st : ContentStore) :
    List UploadChunkRef → Except StoreError (List (Option UploadChunkRef))
  | [] => .ok []
  | chunk_ref :: chunk_refs => do
    let chunk_path ← st.pool.contentPath .chunk chunk_ref.hash
    let entry := match validateChunkPathIntegrity codec st chunk_path chunk_ref.hash
        chunk_ref.sizeBytes with
      | .valid => some chunk_ref
      | .missing | .sizeMismatch _ | .hashMismatch _ => none
    let available ← availableUploadChunkRefs codec st chunk_refs
    return entry :: available

def ingestChunkAuto (codec : Codec) (payload : Bytes) : StoreM (String × Bool) := do
  let hash := hashHex codec payload
  let outcome ← persistStorageContent codec .chunk hash payload
  return (hash, outcome.stored)

def computedTotalSize (key : String) : Nat → List UploadChunkRef → Except StoreError Nat
  | acc, [] => .ok acc
  | acc, chunk_ref :: chunk_refs =>
    if acc + chunk_ref.sizeBytes < 2 ^ 64 then
      computedTotalSize key (acc + chunk_ref.sizeBytes) chunk_refs
    else .error (.bail ("chunk size overflow while validating upload for key=" ++ key ++
      " hash=" ++ chunk_ref.hash))

def checkUploadChunk (codec : Codec) (st : ContentStore) (chunk : UploadChunkRef) :
    Except StoreError Unit := do
  let chunk_path ← st.pool.contentPath .chunk chunk.hash
  match validateChunkPathIntegrity codec st chunk_path chunk.hash chunk.sizeBytes with
  | .valid => .ok ()
  | .missing => .error (.bail ("upload manifest references missing chunk hash=" ++ chunk.hash))
  | .sizeMismatch actual_size_bytes =>
    .error (.bail ("upload chunk size mismatch hash=" ++ chunk.hash ++ " expected=" ++
      toString chunk.sizeBytes ++ " actual=" ++ toString actual_size_bytes))
  | .hashMismatch actual_hash =>
    .error (.bail ("upload chunk hash mismatch hash=" ++ chunk.hash ++ " actual=" ++ actual_hash))

def putObjectFromChunks (codec : Codec) (key : String) (total_size_bytes : Nat)
    (chunk_refs : List UploadChunkRef) (options : PutOptions) : StoreM PutResult := do
  let computed_total_size_bytes ← lift (computedTotalSize key 0 chunk_refs)
  refuseIf (computed_total_size_bytes ≠ total_size_bytes)
    (.bail ("total_size_bytes mismatch for key=" ++ key ++ ": expected=" ++
      toString total_size_bytes ++ " computed=" ++ toString computed_total_size_bytes))
  let st := (← get).content
  forEach chunk_refs fun chunk => lift (checkUploadChunk codec st chunk)
  let manifest_bytes := codec.encodeManifest ⟨key, total_size_bytes, chunk_refs⟩
  let manifest_hash := hashHex codec manifest_bytes
  let _ ← persistStorageContent codec .manifest manifest_hash manifest_bytes
  finalizePutFromManifestHash codec key manifest_hash options 0 0

/-- The path under which an object is bound, the first one if it is bound to several and its
    preferred version names none of them. -/
def currentPathForObjectId (s : Store) (object_id : String) : Option String :=
  if isBlank object_id then none
  else match (listKeysForObjectId s.catalog.current object_id).insertionSort (· ≤ ·) with
    | [] => none
    | [path] => some path
    | path :: paths =>
      let preferred_path := (s.catalog.loadVersionIndex object_id).bind fun index =>
        (index.preferredHeadVersionId.bind index.versions.get).bind fun record =>
          record.logicalPath
      some ((preferred_path.filter fun preferred => preferred ∈ path :: paths).getD path)

def hasVersionsByObjectId (codec : Codec) (s : Store) (object_id : String) : Bool :=
  !isBlank object_id && (s.catalog.loadVersionIndex object_id).any fun index =>
    ((currentPathForObjectId s object_id).or (resolveKeyForVersionIndex codec s.content index)).isSome

def currentRevision (s : Store) (key : String) : Option String :=
  ((objectIdForKey s.catalog.current key).bind s.catalog.loadVersionIndex).bind choosePreferredHead

def readChunk (st : ContentStore) (chunk : ChunkRef) : Option Bytes :=
  match st.pool.contentPath .chunk chunk.hash with
  | .error _ => none
  | .ok chunk_path => (st.fileAt chunk_path).map fun file => file.bytes

def readChunks (st : ContentStore) : List ChunkRef → Option (List Bytes)
  | [] => some []
  | chunk :: chunks => do
    let bytes ← readChunk st chunk
    let rest ← readChunks st chunks
    return bytes :: rest

def chunkRefOf (codec : Codec) (payload : Bytes) : ChunkRef := ⟨hashHex codec payload, payload.length⟩

section Sizes
variable {total cs : Nat}

theorem uploadChunkCount_pos : 0 < uploadChunkCount total cs := by
  unfold uploadChunkCount
  split
  · omega
  · exact Nat.succ_pos _

theorem consumed_le (total cs : Nat) : (uploadChunkCount total cs - 1) * cs ≤ total := by
  unfold uploadChunkCount
  split
  · omega
  · have rest := Nat.div_mul_le_self (total - 1) cs
    simp only [Nat.add_sub_cancel]
    omega

theorem init_sum {sizes : List Nat} {count : Nat} (full : sizes.length < count)
    (expected : ∀ i size, sizes[i]? = some size →
      expectedUploadChunkSize total cs count i = some size) : sizes.sum = sizes.length * cs := by
  induction sizes using List.reverseRecOn with
  | nil => simp
  | append_singleton sizes size ih =>
    simp only [List.length_append, List.length_singleton] at full
    have last := expected sizes.length size (by simp)
    have before := ih (by omega) fun i other found => expected i other
      (by rw [List.getElem?_append_left (List.getElem?_eq_some_iff.mp found).choose, found])
    unfold expectedUploadChunkSize at last
    rw [if_neg (by omega), if_neg (by omega), if_pos full] at last
    cases last
    rw [List.sum_append, before]
    simp [Nat.succ_mul]

theorem expected_sizes_sum {sizes : List Nat} (length : sizes.length = uploadChunkCount total cs)
    (expected : ∀ i size, sizes[i]? = some size →
      expectedUploadChunkSize total cs (uploadChunkCount total cs) i = some size) :
    sizes.sum = total := by
  have some_chunk := @uploadChunkCount_pos total cs
  induction sizes using List.reverseRecOn with
  | nil =>
    simp only [List.length_nil] at length
    omega
  | append_singleton sizes size _ =>
    simp only [List.length_append, List.length_singleton] at length
    have last := expected sizes.length size (by simp)
    have before := @init_sum total cs sizes (uploadChunkCount total cs) (by omega)
      fun i other found => expected i other
        (by rw [List.getElem?_append_left (List.getElem?_eq_some_iff.mp found).choose, found])
    have consumed := consumed_le total cs
    unfold expectedUploadChunkSize at last
    rw [if_neg (by omega), if_neg (by omega), if_neg (by omega), ← length,
      Nat.add_sub_cancel] at last
    rw [← length, Nat.add_sub_cancel] at consumed
    cases last
    rw [List.sum_append, before, List.sum_singleton]
    omega

end Sizes

section Chunks
variable {codec : Codec} {st : ContentStore}

theorem availableUploadChunkRefs_named {chunk_refs : List UploadChunkRef} :
    ∀ {available}, availableUploadChunkRefs codec st chunk_refs = .ok available →
      available.length = chunk_refs.length ∧
      ∀ (i : Nat) (chunk_ref : UploadChunkRef), available[i]? = some (some chunk_ref) →
        chunk_refs[i]? = some chunk_ref := by
  induction chunk_refs with
  | nil =>
    intro available done
    cases done
    simp
  | cons head chunk_refs ih =>
    intro available done
    obtain ⟨chunk_path, _, done⟩ := except_bind_ok done
    obtain ⟨rest, found, done⟩ := except_bind_ok done
    cases done
    obtain ⟨length, named⟩ := ih found
    constructor
    · simp [length]
    · intro i chunk_ref listed
      cases i with
      | zero =>
        simp only [List.getElem?_cons_zero, Option.some.injEq] at listed ⊢
        split at listed
        · exact Option.some.inj listed
        all_goals cases listed
      | succ i => exact named i chunk_ref listed

theorem checkUploadChunk_read {chunk : UploadChunkRef}
    (passed : checkUploadChunk codec st chunk = .ok ()) :
    ∃ bytes, readChunk st chunk = some bytes ∧ chunkRefOf codec bytes = chunk := by
  obtain ⟨chunk_path, resolved, passed⟩ := except_bind_ok passed
  unfold validateChunkPathIntegrity at passed
  cases stored : st.fileAt chunk_path with
  | none =>
    simp only [stored] at passed
    cases passed
  | some file =>
    simp only [stored] at passed
    by_cases size : file.bytes.length = chunk.sizeBytes
    · by_cases hash : hashHex codec file.bytes = chunk.hash
      · refine ⟨file.bytes, ?_, ?_⟩
        · unfold readChunk
          simp [resolved, stored]
        · unfold chunkRefOf
          rw [size, hash]
      · rw [if_neg (not_not.mpr size), if_pos hash] at passed
        cases passed
    · rw [if_pos size] at passed
      cases passed

theorem checkUploadChunks_read (s : Store) {chunk_refs : List UploadChunkRef} :
    Ensures (forEach chunk_refs fun chunk => lift (checkUploadChunk codec st chunk)) s
      fun result t => t = s ∧ (result = .ok () → ∃ chunks, readChunks st chunk_refs = some chunks ∧
        chunks.map (chunkRefOf codec) = chunk_refs) := by
  induction chunk_refs with
  | nil => exact ⟨rfl, fun _ => ⟨[], rfl, rfl⟩⟩
  | cons chunk chunk_refs ih =>
    refine ensures_lift (fun _ _ => ⟨rfl, fun failed => by cases failed⟩) fun _ passed => ?_
    refine ensures_mono ih fun result t rest => ⟨rest.1, fun done => ?_⟩
    obtain ⟨bytes, read, ref⟩ := checkUploadChunk_read passed
    obtain ⟨chunks, reads, refs⟩ := rest.2 done
    exact ⟨bytes :: chunks, by simp [readChunks, read, reads], by simp [ref, refs]⟩

end Chunks

section Reads
variable {codec : Codec} {kind k : StorageContentKind} {hash h : String}

def KeepsRead (kind : StorageContentKind) (hash : String) (s t : Store) : Prop :=
  SameReads kind hash s.content t.content

theorem keepsRead_refl (s : Store) : KeepsRead kind hash s s := ⟨rfl, rfl, rfl, fun _ _ => rfl⟩

theorem keepsRead_trans (a b c : Store) (before : KeepsRead kind hash a b)
    (after : KeepsRead kind hash b c) : KeepsRead kind hash a c where
  paths := after.paths.trans before.paths
  mounted := after.mounted.trans before.mounted
  location := after.location.trans before.location
  files := fun file own => (after.files file own).trans (before.files file own)

theorem keepsRead_of_content {s t : Store} (same : t.content = s.content) : KeepsRead kind hash s t := by
  unfold KeepsRead
  rw [same]
  exact keepsRead_refl s

theorem persistStorageContent_keepsRead (other : (k, h) ≠ (kind, hash)) (payload : Bytes) :
    Keeps (KeepsRead k h) (persistStorageContent codec kind hash payload) := by
  have bind {α β : Type} {m : StoreM α} {f : α → StoreM β} (first : Keeps (KeepsRead k h) m)
      (next : ∀ a, Keeps (KeepsRead k h) (f a)) : Keeps (KeepsRead k h) (m >>= f) :=
    keeps_bind keepsRead_trans first next
  unfold persistStorageContent
  refine bind (keeps_get keepsRead_refl) fun s => ?_
  refine bind (keeps_lift keepsRead_refl _) fun existing_path => ?_
  refine keeps_ite (keeps_pure keepsRead_refl _) ?_
  refine bind (fun _ => keepsRead_of_content rfl) fun free => ?_
  refine bind (keeps_lift keepsRead_refl _) fun target => ?_
  refine bind (fun _ => ⟨rfl, rfl, rfl, fun _ _ => rfl⟩) fun _ => ?_
  refine keeps_lift_bind keepsRead_refl fun target_path placed => ?_
  have foreign : ∀ file, Belongs k h file → file ≠ target_path := by
    intro file own same
    subst same
    exact other (belongs_unique (contentPath_belongs placed) own)
  refine bind (fun _ => keepsRead_of_content rfl) fun now => ?_
  refine bind (fun s => ⟨rfl, rfl, rfl, fun file own => get_put_other _ _ (foreign file own)⟩)
    fun _ => ?_
  refine bind (fun _ => ⟨rfl, rfl, rfl, fun _ _ => rfl⟩) fun _ => ?_
  exact bind (fun s => ⟨rfl, rfl, get_put_other _ _ other, fun _ _ => rfl⟩)
    fun _ => keeps_pure keepsRead_refl _

theorem finalizePut_content (key manifest_hash : String) (options : PutOptions)
    (new_chunks dedup_reused_chunks : Nat) :
    Keeps (fun s t : Store => t.content = s.content)
      (finalizePutFromManifestHash codec key manifest_hash options new_chunks
        dedup_reused_chunks) := by
  have refl : ∀ s : Store, s.content = s.content := fun _ => rfl
  have trans : ∀ a b c : Store, b.content = a.content → c.content = b.content →
      c.content = a.content := fun _ _ _ before after => after.trans before
  have bind {α β : Type} {m : StoreM α} {f : α → StoreM β}
      (first : Keeps (fun s t : Store => t.content = s.content) m)
      (next : ∀ a, Keeps (fun s t : Store => t.content = s.content) (f a)) :
      Keeps (fun s t : Store => t.content = s.content) (m >>= f) := keeps_bind trans first next
  unfold finalizePutFromManifestHash
  refine bind ?_ fun object_id => ?_
  · unfold objectIdOrGenerate
    refine bind (keeps_get refl) fun s => ?_
    split
    · exact keeps_pure refl _
    · exact fun _ => rfl
  refine bind (keeps_get refl) fun s => ?_
  refine bind (keeps_lift refl _) fun _ => ?_
  refine bind (markManifestLocallyOwned_keeps (R := fun s t : Store => t.content = s.content) refl
    trans (fun _ _ => rfl) (fun _ _ => rfl) codec manifest_hash) fun _ => ?_
  refine bind (fun _ => rfl) fun nanos => ?_
  refine bind (keeps_lift refl _) fun version_id => ?_
  split
  · refine bind (keeps_refuseIf refl _ _) fun _ => ?_
    exact bind (fun _ => rfl) fun _ => keeps_pure refl _
  · split
    · exact keeps_pure refl _
    · refine bind (fun _ => rfl) fun created_at_unix => ?_
      exact bind (fun _ => rfl) fun _ => keeps_pure refl _

theorem finalizePut_manifest (key manifest_hash : String) (options : PutOptions)
    (new_chunks dedup_reused_chunks : Nat) :
    Returns (fun outcome => outcome.manifestHash = manifest_hash)
      (finalizePutFromManifestHash codec key manifest_hash options new_chunks
        dedup_reused_chunks) := by
  unfold finalizePutFromManifestHash
  refine returns_bind fun object_id => returns_bind fun s => returns_bind fun _ => ?_
  refine returns_bind fun _ => returns_bind fun nanos => returns_bind fun version_id => ?_
  split
  · exact returns_bind fun _ => returns_bind fun _ => returns_pure rfl
  · split
    · next head reused =>
      unfold reusableHead at reused
      split at reused
      · cases reused
      · have repeats := of_decide_eq_true (Option.filter_eq_some_iff.mp reused).2
        exact returns_pure repeats.1
    · exact returns_bind fun _ => returns_bind fun _ => returns_pure rfl

end Reads

section Put
variable {codec : Codec}

theorem readChunk_same {s t : Store} {chunk : ChunkRef} (same : KeepsRead .chunk chunk.hash s t) :
    readChunk t.content chunk = readChunk s.content chunk := by
  unfold readChunk
  rw [sameReads_contentPath same]
  cases placed : s.content.pool.contentPath .chunk chunk.hash with
  | error error => rfl
  | ok chunk_path => simp only [sameReads_fileAt same (contentPath_ok placed)]

theorem readChunks_same {s t : Store} (same : ∀ hash, KeepsRead .chunk hash s t)
    (chunks : List ChunkRef) : readChunks t.content chunks = readChunks s.content chunks := by
  induction chunks with
  | nil => rfl
  | cons chunk chunks ih => simp [readChunks, readChunk_same (same chunk.hash), ih]

theorem putObjectFromChunks_stored (key : String) (total_size_bytes : Nat)
    (chunk_refs : List UploadChunkRef) (options : PutOptions) (s : Store) :
    Ensures (putObjectFromChunks codec key total_size_bytes chunk_refs options) s
      fun result t => ∀ outcome, result = .ok outcome →
        outcome.manifestHash =
          hashHex codec (codec.encodeManifest ⟨key, total_size_bytes, chunk_refs⟩) ∧
        ∃ chunks, readChunks t.content chunk_refs = some chunks ∧
          chunks.map (chunkRefOf codec) = chunk_refs := by
  unfold putObjectFromChunks
  refine ensures_lift (fun _ _ _ failed => by cases failed) fun computed _ => ?_
  refine ensures_refuseIf (fun _ _ failed => by cases failed) fun _ => ensures_get ?_
  refine ensures_bind (checkUploadChunks_read s) (fun _ t checked => ?_)
    fun _ _ _ _ failed => by cases failed
  obtain ⟨rfl, read⟩ := checked
  obtain ⟨chunks, reads, refs⟩ := read rfl
  refine ensures_after (R := fun s t => ∀ hash, KeepsRead .chunk hash s t)
    (fun s hash => persistStorageContent_keepsRead (by simp) _ s) (fun _ u kept => ?_)
    fun _ _ _ _ failed => by cases failed
  intro outcome done
  refine ⟨finalizePut_manifest key _ options 0 0 u outcome done, chunks, ?_, refs⟩
  rw [finalizePut_content key _ options 0 0 u, readChunks_same kept, reads]

end Put

end BerryKeepUploadAssembly
