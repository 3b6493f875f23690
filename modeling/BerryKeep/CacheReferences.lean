import BerryKeep.ClientCache
import BerryKeep.ReferenceCount

/-!
The reference counts in the database of the client cache. `Balanced` says that
the counts are those of the references, up to the references a transaction
still has to release; each statement keeps it, and so do the calls that free
their target first.
-/
namespace BerryKeepCacheReferences
open FiniteTable StatefulProgram ReferenceCount BerryKeepContentCodec BerryKeepClientCache

section Counts

def entryCount (db : CacheMetadata) (manifest_hash : String) : Nat :=
  db.entries.countWhere fun entry => entry.manifestHash == manifest_hash

def rowCount (db : CacheMetadata) (chunk_hash : String) : Nat :=
  db.manifestChunks.countP fun row => row.chunkHash == chunk_hash

def counts {ρ : Type} (table : Table String ρ) (count : ρ → Nat) : String → Option Nat :=
  fun hash => (table.get hash).map count

variable {ρ : Type} (table : Table String ρ) (count : ρ → Nat)

theorem counts_put (hash : String) (row : ρ) :
    counts (table.put hash row) count = Function.update (counts table count) hash (some (count row)) := by
  funext other
  by_cases same : other = hash
  · subst same
    rw [Function.update_self, counts, get_put_self, Option.map_some]
  · rw [Function.update_of_ne same, counts, get_put_other _ _ same, counts]

theorem counts_del (hash : String) :
    counts (table.del hash) count = Function.update (counts table count) hash none := by
  funext other
  by_cases same : other = hash
  · subst same
    rw [Function.update_self, counts, get_del_self, Option.map_none]
  · rw [Function.update_of_ne same, counts, get_del_other _ same, counts]

variable {hash : String}

theorem counts_of_get {row : ρ} (found : table.get hash = some row) :
    counts table count hash = some (count row) := by
  rw [counts, found, Option.map_some]

theorem counts_of_absent (absent : table.get hash = none) :
    counts table count hash = none := by
  rw [counts, absent, Option.map_none]

theorem insertChunk_counts (chunks : Table String ChunkRow) (chunk : CachedChunkRef) :
    counts (insertChunk chunks chunk) ChunkRow.refCount =
      acquire (counts chunks ChunkRow.refCount) chunk.hash := by
  unfold insertChunk acquire
  cases found : chunks.get chunk.hash with
  | none => simp only [counts_put, counts_of_absent _ _ found, Option.getD_none, Nat.zero_add]
  | some row => simp only [counts_put, counts_of_get _ _ found, Option.getD_some]

theorem addManifestReference_counts (manifests : Table String ManifestRow)
    {row : ManifestRow} (found : manifests.get hash = some row) :
    counts (addManifestReference manifests hash) ManifestRow.refCount =
      acquire (counts manifests ManifestRow.refCount) hash := by
  unfold addManifestReference acquire
  simp only [found, counts_put, counts_of_get _ _ found, Option.getD_some]

theorem releaseChunk_counts (state : Table String ChunkRow × List String) (chunk_hash : String) :
    counts (releaseChunk state chunk_hash).1 ChunkRow.refCount =
      release (counts state.1 ChunkRow.refCount) chunk_hash := by
  unfold releaseChunk release
  cases found : state.1.get chunk_hash with
  | none =>
    rw [counts_of_absent _ _ found]
    exact (Function.update_eq_self_iff.mpr (counts_of_absent _ _ found).symm).symm
  | some row =>
    rw [counts_of_get _ _ found]
    simp only [lowered]
    split
    · rw [counts_put]
    · rw [counts_del]

variable (chunk_hashes : List String)

theorem releaseChunks_counts :
    ∀ state : Table String ChunkRow × List String,
      counts (chunk_hashes.foldl releaseChunk state).1 ChunkRow.refCount =
        chunk_hashes.foldl release (counts state.1 ChunkRow.refCount) := by
  induction chunk_hashes with
  | nil => intro state; rfl
  | cons chunk_hash rest ih =>
    intro state
    rw [List.foldl_cons, List.foldl_cons, ih, releaseChunk_counts]

theorem releaseChunk_gone (state : Table String ChunkRow × List String) (chunk_hash : String)
    (gone : ∀ hash ∈ state.2, state.1.get hash = none) :
    ∀ hash ∈ (releaseChunk state chunk_hash).2, (releaseChunk state chunk_hash).1.get hash = none := by
  intro hash listed
  unfold releaseChunk at listed ⊢
  cases found : state.1.get chunk_hash with
  | none =>
    rw [found] at listed
    exact gone hash listed
  | some row =>
    rw [found] at listed
    simp only at listed ⊢
    split at listed
    · next more =>
      rw [if_pos more]
      have different : hash ≠ chunk_hash := by
        intro same
        rw [same] at listed
        rw [gone _ listed] at found
        cases found
      simp only [get_put_other _ _ different]
      exact gone hash listed
    · next last =>
      rw [if_neg last]
      simp only [get_del]
      split
      · rfl
      · next different =>
        rcases List.mem_append.mp listed with older | here
        · exact gone hash older
        · exact absurd (List.mem_singleton.mp here) different

theorem releaseChunks_gone :
    ∀ state : Table String ChunkRow × List String,
      (∀ hash ∈ state.2, state.1.get hash = none) →
      ∀ hash ∈ (chunk_hashes.foldl releaseChunk state).2,
        (chunk_hashes.foldl releaseChunk state).1.get hash = none := by
  intro state gone
  exact List.foldlRecOn (motive := fun state => ∀ hash ∈ state.2, state.1.get hash = none)
    chunk_hashes _ gone fun state gone chunk_hash _ => releaseChunk_gone state chunk_hash gone

theorem releaseChunks_kept (hash : String) :
    ∀ state : Table String ChunkRow × List String,
      (chunk_hashes.foldl releaseChunk state).1.has hash = true → state.1.has hash = true := by
  induction chunk_hashes with
  | nil => intro state kept; exact kept
  | cons chunk_hash rest ih =>
    intro state kept
    have earlier := ih _ kept
    unfold releaseChunk at earlier
    cases found : state.1.get chunk_hash with
    | none =>
      rw [found] at earlier
      exact earlier
    | some row =>
      by_cases same : hash = chunk_hash
      · rw [same, has_iff]
        exact ⟨row, found⟩
      · rw [found] at earlier
        simp only at earlier
        rw [has_iff] at earlier ⊢
        split at earlier
        · simpa only [get_put_other _ _ same] using earlier
        · simpa only [get_del_other _ same] using earlier

end Counts

section Balance
variable {codec : CacheCodec} {Known : Bytes → Prop} {db : CacheMetadata} {extra : String → Nat}

def manifestHash (codec : CacheCodec) (payload : Bytes) : String :=
  hashHex codec (manifestBytes codec payload)

def manifestFor (codec : CacheCodec) (payload : Bytes) : ManifestRecord :=
  ⟨manifestHash codec payload, payload.length, chunkRefs codec payload⟩

def chunkRow (manifest_hash : String) (item : CachedChunkRef × Nat) : ManifestChunkRow :=
  ⟨manifest_hash, item.2, item.1.hash, item.1.sizeBytes⟩

def chunkRows (codec : CacheCodec) (payload : Bytes) : List ManifestChunkRow :=
  (chunkRefs codec payload).zipIdx.map (chunkRow (manifestHash codec payload))

def rowsOf (rows : List ManifestChunkRow) (manifest_hash : String) : List ManifestChunkRow :=
  rows.filter fun row => row.manifestHash == manifest_hash

/-- The counts are those of the references, with `extra` manifest references still to be
    released; each manifest lists the chunks of one known payload. -/
structure Balanced (codec : CacheCodec) (Known : Bytes → Prop) (db : CacheMetadata)
    (extra : String → Nat) : Prop where
  manifests : Exact (counts db.manifests ManifestRow.refCount)
    (fun hash => entryCount db hash + extra hash)
  chunks : Exact (counts db.chunks ChunkRow.refCount) (rowCount db)
  described : ∀ hash row, db.manifests.get hash = some row → ∃ payload, Known payload ∧
    manifestHash codec payload = hash ∧ row.totalSizeBytes = payload.length ∧
    rowsOf db.manifestChunks hash = chunkRows codec payload
  listed : ∀ row ∈ db.manifestChunks, db.manifests.has row.manifestHash = true

variable {hash : String}

theorem rowsOf_unlisted (balanced : Balanced codec Known db extra)
    (absent : db.manifests.has hash = false) : rowsOf db.manifestChunks hash = [] := by
  rw [rowsOf, List.filter_eq_nil_iff]
  intro row member same
  have present := balanced.listed row member
  rw [beq_iff_eq.mp same, absent] at present
  cases present

theorem selectChunks_described {rows : List ManifestChunkRow} {payload : Bytes}
    (described : rowsOf rows hash = chunkRows codec payload) :
    selectChunks rows hash = chunkRows codec payload := by
  have sorted : (chunkRows codec payload).Pairwise fun a b =>
      decide (a.chunkIndex ≤ b.chunkIndex) = true := by
    unfold chunkRows
    rw [List.pairwise_map, List.pairwise_iff_getElem]
    intro i j low high before
    simp only [chunkRow, List.getElem_zipIdx, decide_eq_true_eq]
    omega
  unfold selectChunks
  rw [← rowsOf, described]
  exact List.mergeSort_of_pairwise sorted

theorem chunkRows_hashes (codec : CacheCodec) (payload : Bytes) :
    (chunkRows codec payload).map (·.chunkHash) = (chunkRefs codec payload).map (·.hash) := by
  unfold chunkRows
  rw [List.map_map]
  have second : ((fun row : ManifestChunkRow => row.chunkHash) ∘
      chunkRow (manifestHash codec payload)) = (fun chunk : CachedChunkRef => chunk.hash) ∘ Prod.fst := rfl
  rw [second, ← List.map_map, List.zipIdx_map_fst]

theorem Balanced.reentered (balanced : Balanced codec Known db extra)
    (entries : Table String KeyEntryRecord) {more : String → Nat}
    (moved : ∀ hash, entryCount db hash + extra hash =
      entryCount { db with entries := entries } hash + more hash) :
    Balanced codec Known { db with entries := entries } more where
  manifests := balanced.manifests.congr moved
  chunks := balanced.chunks
  described := balanced.described
  listed := balanced.listed

theorem entryCount_put (db : CacheMetadata) (entries : Table String KeyEntryRecord) (key : String)
    (entry : KeyEntryRecord) (hash : String) :
    entryCount { db with entries := entries.put key entry } hash =
      entryCount { db with entries := entries.del key } hash + one entry.manifestHash hash := by
  unfold entryCount one
  rw [countWhere_put]
  simp only [beq_iff_eq, @eq_comm _ hash]

theorem entryCount_del (db : CacheMetadata) {entries : Table String KeyEntryRecord} {key : String}
    {entry : KeyEntryRecord} (stored : entries.get key = some entry) (hash : String) :
    entryCount { db with entries := entries } hash =
      entryCount { db with entries := entries.del key } hash + one entry.manifestHash hash := by
  unfold entryCount one
  rw [countWhere_del _ stored]
  simp only [beq_iff_eq, @eq_comm _ hash]

/-- What a transaction leaves: exact counts, these entries, and a plan that names only rows
    that are gone. -/
structure Settled (codec : CacheCodec) (Known : Bytes → Prop)
    (change : GarbageCollectionPlan × CacheMetadata) (entries : Table String KeyEntryRecord) :
    Prop where
  balanced : Balanced codec Known change.2 fun _ => 0
  entries : change.2.entries = entries
  manifestsGone : ∀ hash ∈ change.1.manifestHashes, change.2.manifests.get hash = none
  chunksGone : ∀ hash ∈ change.1.chunkHashes, change.2.chunks.get hash = none

theorem settled_default (balanced : Balanced codec Known db fun _ => 0) :
    Settled codec Known (.default, db) db.entries where
  balanced := balanced
  entries := rfl
  manifestsGone := by intro _ listed; cases listed
  chunksGone := by intro _ listed; cases listed

structure RowsWithin (after before : CacheMetadata) : Prop where
  manifests : ∀ hash, after.manifests.has hash = true → before.manifests.has hash = true
  chunks : ∀ hash, after.chunks.has hash = true → before.chunks.has hash = true

theorem has_put_of_has {ρ : Type} {table : Table String ρ}
    (present : table.has hash = true) (row : ρ) (other : String) :
    (table.put hash row).has other = table.has other := by
  unfold Table.has at present ⊢
  rw [get_put]
  split
  · next same => rw [same, present, Option.isSome_some]
  · rfl

theorem rowCount_split (db : CacheMetadata) (manifest_hash chunk_hash : String) :
    rowCount db chunk_hash =
      rowCount { db with
        manifestChunks := db.manifestChunks.filter fun row => row.manifestHash != manifest_hash }
          chunk_hash +
        ((rowsOf db.manifestChunks manifest_hash).map (·.chunkHash)).count chunk_hash := by
  unfold rowCount rowsOf
  generalize db.manifestChunks = rows
  rw [List.count, List.countP_map]
  induction rows with
  | nil => rfl
  | cons row rows ih =>
    by_cases same : row.manifestHash = manifest_hash
    · simp [same, List.countP_cons] at ih ⊢
      omega
    · simp [same, List.countP_cons] at ih ⊢
      omega

theorem Balanced.lowered {row : ManifestRow}
    (balanced : Balanced codec Known db (one hash)) (found : db.manifests.get hash = some row)
    (more : 1 < row.refCount) :
    Balanced codec Known { db with
      manifests := db.manifests.put hash { row with refCount := row.refCount - 1 } }
      (fun _ => 0) := by
  have present : db.manifests.has hash = true := (has_iff _ _).mpr ⟨row, found⟩
  constructor
  · have released : counts (db.manifests.put hash { row with refCount := row.refCount - 1 })
        ManifestRow.refCount = release (counts db.manifests ManifestRow.refCount) hash := by
      rw [counts_put, release, counts_of_get _ _ found, ReferenceCount.lowered, if_pos more]
    simp only [released]
    exact balanced.manifests.release
  · exact balanced.chunks
  · intro other found_row stored
    rcases get_put_some stored with ⟨rfl, rfl⟩ | ⟨-, stored⟩
    · exact balanced.described other row found
    · exact balanced.described other found_row stored
  · intro listed member
    rw [has_put_of_has present]
    exact balanced.listed listed member

theorem Balanced.dropped {row : ManifestRow}
    (balanced : Balanced codec Known db (one hash)) (found : db.manifests.get hash = some row)
    (last : ¬1 < row.refCount) :
    Balanced codec Known { db with
      manifestChunks := db.manifestChunks.filter fun row => row.manifestHash != hash
      manifests := db.manifests.del hash
      chunks := (((selectChunks db.manifestChunks hash).map (·.chunkHash)).foldl releaseChunk
        (db.chunks, [])).1 } (fun _ => 0) := by
  obtain ⟨payload, _, _, _, rows⟩ := balanced.described hash row found
  constructor
  · have released : counts (db.manifests.del hash) ManifestRow.refCount =
        release (counts db.manifests ManifestRow.refCount) hash := by
      rw [counts_del, release, counts_of_get _ _ found, ReferenceCount.lowered, if_neg last]
    simp only [released]
    exact balanced.manifests.release
  · simp only [releaseChunks_counts]
    apply Exact.releaseAll
    refine balanced.chunks.congr fun chunk_hash => ?_
    rw [rowCount_split db hash, selectChunks_described rows, rows]
    rfl
  · intro other found_row stored
    obtain ⟨different, stored⟩ := get_del_some stored
    obtain ⟨described, known, named, total, listed⟩ := balanced.described other found_row stored
    refine ⟨described, known, named, total, ?_⟩
    rw [← listed, rowsOf, rowsOf, List.filter_filter]
    apply List.filter_congr
    intro listed_row _
    by_cases same : listed_row.manifestHash = other
    · simp [same, different]
    · simp [same]
  · intro listed_row member
    obtain ⟨before, other⟩ := List.mem_filter.mp member
    have different : listed_row.manifestHash ≠ hash := by simpa using other
    have present := balanced.listed listed_row before
    rw [has_iff] at present ⊢
    simpa only [get_del_other _ different] using present

theorem Balanced.pending (balanced : Balanced codec Known db (one hash)) :
    ∃ row, db.manifests.get hash = some row := by
  cases found : db.manifests.get hash with
  | some row => exact ⟨row, rfl⟩
  | none =>
    have unused := balanced.manifests.absent (counts_of_absent _ _ found)
    simp only [one_self] at unused
    omega

theorem releaseManifestReference_settled
    (balanced : Balanced codec Known db (one hash)) :
    Settled codec Known (releaseManifestReference db hash) db.entries := by
  obtain ⟨row, found⟩ := balanced.pending
  unfold releaseManifestReference
  simp only [found]
  split
  · next more => exact settled_default (balanced.lowered found more)
  · next last =>
    constructor
    · exact balanced.dropped found last
    · rfl
    · intro other listed
      rw [List.mem_singleton.mp listed]
      exact get_del_self _ _
    · exact releaseChunks_gone _ (db.chunks, []) (fun _ none => by cases none)

theorem releaseManifestReference_rows (db : CacheMetadata) (hash : String) :
    RowsWithin (releaseManifestReference db hash).2 db := by
  unfold releaseManifestReference
  cases found : db.manifests.get hash with
  | none => exact ⟨fun _ kept => kept, fun _ kept => kept⟩
  | some row =>
    simp only
    split
    · have present : db.manifests.has hash = true := (has_iff _ _).mpr ⟨row, found⟩
      constructor
      · intro other kept
        simpa only [has_put_of_has present] using kept
      · exact fun _ kept => kept
    · constructor
      · intro other kept
        rw [has_iff] at kept ⊢
        obtain ⟨found_row, stored⟩ := kept
        exact ⟨found_row, (get_del_some stored).2⟩
      · intro other kept
        exact releaseChunks_kept _ other (db.chunks, []) kept

theorem removeKeyInner_settled (balanced : Balanced codec Known db fun _ => 0) (key : String) :
    Settled codec Known (removeKeyInner db key) (db.entries.del key) := by
  unfold removeKeyInner
  cases stored : db.entries.get key with
  | none =>
    simp only [del_absent _ stored]
    exact settled_default balanced
  | some entry =>
    apply releaseManifestReference_settled
    apply balanced.reentered
    intro hash
    exact entryCount_del db stored hash

theorem removeKeyInner_rows (db : CacheMetadata) (key : String) :
    RowsWithin (removeKeyInner db key).2 db := by
  unfold removeKeyInner
  cases db.entries.get key with
  | none => exact ⟨fun _ kept => kept, fun _ kept => kept⟩
  | some entry =>
    have rows := releaseManifestReference_rows { db with entries := db.entries.del key }
      entry.manifestHash
    exact ⟨rows.manifests, rows.chunks⟩

end Balance

section Storing
variable {codec : CacheCodec} {Known : Bytes → Prop} {db : CacheMetadata}

theorem insertChunks_ok (hash : String) (chunks : List CachedChunkRef) :
    ∀ (start : Nat) (db : CacheMetadata),
      (∀ row ∈ db.manifestChunks, row.manifestHash = hash → row.chunkIndex < start) →
      insertChunks hash (chunks.zipIdx start) db = .ok { db with
        manifestChunks := db.manifestChunks ++ (chunks.zipIdx start).map (chunkRow hash)
        chunks := chunks.foldl insertChunk db.chunks } := by
  induction chunks with
  | nil =>
    intro start db _
    simp [insertChunks]
  | cons chunk rest ih =>
    intro start db below
    have unique : (db.manifestChunks.any fun other =>
        other.manifestHash == hash && other.chunkIndex == start) = false := by
      rw [List.any_eq_false]
      intro row member
      have earlier := below row member
      simp only [Bool.and_eq_true, beq_iff_eq, not_and]
      intro same
      have := earlier same
      omega
    rw [List.zipIdx_cons, insertChunks, insertManifestChunk]
    simp only [unique, Bool.false_eq_true, if_false]
    change insertChunks hash _ _ = _
    rw [ih (start + 1)]
    · simp [chunkRow]
    · intro row member same
      rcases List.mem_append.mp member with older | here
      · have := below row older same
        omega
      · rw [List.mem_singleton.mp here]
        exact Nat.lt_succ_self start

theorem insertedChunks_counts (chunks : List CachedChunkRef) :
    ∀ table : Table String ChunkRow,
      counts (chunks.foldl insertChunk table) ChunkRow.refCount =
        (chunks.map (·.hash)).foldl acquire (counts table ChunkRow.refCount) := by
  induction chunks with
  | nil => intro table; rfl
  | cons chunk rest ih =>
    intro table
    rw [List.foldl_cons, List.map_cons, List.foldl_cons, ih, insertChunk_counts]

theorem insertedChunks_rows (chunks : List CachedChunkRef) (hash : String) :
    ∀ table : Table String ChunkRow, (chunks.foldl insertChunk table).has hash = true →
      table.has hash = true ∨ hash ∈ chunks.map (·.hash) := by
  induction chunks with
  | nil => intro table kept; exact .inl kept
  | cons chunk rest ih =>
    intro table kept
    rcases ih _ kept with earlier | later
    · by_cases same : hash = chunk.hash
      · exact .inr (by simp [same])
      · left
        rw [has_iff] at earlier ⊢
        unfold insertChunk at earlier
        split at earlier
        · simpa only [get_put_other _ _ same] using earlier
        · simpa only [get_put_other _ _ same] using earlier
    · exact .inr (by simp [later])

theorem Balanced.referenced {extra : String → Nat} (balanced : Balanced codec Known db extra)
    {hash : String} {row : ManifestRow} (found : db.manifests.get hash = some row) :
    Balanced codec Known { db with manifests := addManifestReference db.manifests hash }
      (fun other => extra other + one hash other) := by
  have added : addManifestReference db.manifests hash =
      db.manifests.put hash { row with refCount := row.refCount + 1 } := by
    simp only [addManifestReference, found]
  constructor
  · simp only [addManifestReference_counts _ found]
    refine (balanced.manifests.acquire hash).congr fun other => ?_
    exact Nat.add_assoc _ _ _
  · exact balanced.chunks
  · intro other found_row stored
    simp only [added] at stored
    rcases get_put_some stored with ⟨rfl, rfl⟩ | ⟨-, stored⟩
    · exact balanced.described other row found
    · exact balanced.described other found_row stored
  · intro listed member
    simp only [added]
    rw [has_put_of_has ((has_iff _ _).mpr ⟨row, found⟩)]
    exact balanced.listed listed member

theorem rowsOf_append (rows others : List ManifestChunkRow) (hash : String) :
    rowsOf (rows ++ others) hash = rowsOf rows hash ++ rowsOf others hash :=
  List.filter_append ..

theorem rowsOf_chunkRows (codec : CacheCodec) (payload : Bytes) (hash : String) :
    rowsOf (chunkRows codec payload) hash =
      if manifestHash codec payload = hash then chunkRows codec payload else [] := by
  have own : ∀ row ∈ chunkRows codec payload, row.manifestHash = manifestHash codec payload := by
    intro row member
    unfold chunkRows at member
    obtain ⟨item, _, rfl⟩ := List.mem_map.mp member
    rfl
  unfold rowsOf
  split
  · next same =>
    rw [List.filter_eq_self]
    intro row member
    rw [own row member, same, beq_self_eq_true]
  · next different =>
    rw [List.filter_eq_nil_iff]
    intro row member
    rw [own row member]
    simpa using different

variable {payload : Bytes}

theorem Balanced.inserted (balanced : Balanced codec Known db fun _ => 0)
    (known : Known payload) (absent : db.manifests.has (manifestHash codec payload) = false) :
    Balanced codec Known { db with
      manifests := db.manifests.put (manifestHash codec payload) ⟨payload.length, 1⟩
      manifestChunks := db.manifestChunks ++ chunkRows codec payload
      chunks := (chunkRefs codec payload).foldl insertChunk db.chunks }
      (one (manifestHash codec payload)) := by
  have missing : db.manifests.get (manifestHash codec payload) = none := by
    simpa [Table.has] using absent
  constructor
  · have acquired : counts (db.manifests.put (manifestHash codec payload) ⟨payload.length, 1⟩)
        ManifestRow.refCount =
        acquire (counts db.manifests ManifestRow.refCount) (manifestHash codec payload) := by
      rw [counts_put, acquire, counts_of_absent _ _ missing]
      rfl
    simp only [acquired]
    exact balanced.manifests.acquire _
  · simp only [insertedChunks_counts]
    refine (balanced.chunks.acquireAll _).congr fun hash => ?_
    simp only [rowCount, List.countP_append]
    rw [← chunkRows_hashes, List.count, List.countP_map]
    rfl
  · intro hash row stored
    simp only [get_put] at stored
    simp only [rowsOf_append, rowsOf_chunkRows]
    split at stored
    · next same =>
      subst same
      cases stored
      refine ⟨payload, known, rfl, rfl, ?_⟩
      rw [rowsOf_unlisted balanced absent, if_pos rfl, List.nil_append]
    · next different =>
      obtain ⟨other, other_known, named, total, rows⟩ := balanced.described hash row stored
      refine ⟨other, other_known, named, total, ?_⟩
      rw [rows, if_neg (Ne.symm different), List.append_nil]
  · intro row member
    rw [has_iff]
    simp only [get_put]
    rcases List.mem_append.mp member with older | here
    · split
      · exact ⟨_, rfl⟩
      · exact (has_iff _ _).mp (balanced.listed row older)
    · unfold chunkRows at here
      obtain ⟨item, _, rfl⟩ := List.mem_map.mp here
      exact ⟨_, if_pos rfl⟩

structure RowsStored (codec : CacheCodec) (after before : CacheMetadata) (payload : Bytes) :
    Prop where
  manifests : ∀ hash, after.manifests.has hash = true →
    before.manifests.has hash = true ∨ hash = manifestHash codec payload
  chunks : ∀ hash, after.chunks.has hash = true →
    before.chunks.has hash = true ∨ hash ∈ (chunkRefs codec payload).map (·.hash)

theorem storeManifest_ok (balanced : Balanced codec Known db fun _ => 0) (known : Known payload) :
    ∃ stored, storeManifest db (manifestFor codec payload) = .ok stored ∧
      Balanced codec Known stored (one (manifestHash codec payload)) ∧
      stored.entries = db.entries ∧ RowsStored codec stored db payload := by
  unfold storeManifest manifestFor
  split
  · next present =>
    obtain ⟨row, found⟩ := (has_iff _ _).mp present
    refine ⟨_, rfl, ?_, rfl, ?_, fun _ kept => .inl kept⟩
    · have referenced := balanced.referenced found
      simpa only [Nat.zero_add] using referenced
    · intro hash kept
      left
      simp only [addManifestReference, found, has_put_of_has present] at kept
      exact kept
  · next missing =>
    have absent : db.manifests.has (manifestHash codec payload) = false := by simpa using missing
    have inserted := insertChunks_ok (manifestHash codec payload) (chunkRefs codec payload) 0
      { db with manifests := db.manifests.put (manifestHash codec payload) ⟨payload.length, 1⟩ }
      (by
        intro row member same
        have present := balanced.listed row member
        rw [same, absent] at present
        cases present)
    refine ⟨_, inserted, balanced.inserted known absent, rfl, ?_, ?_⟩
    · intro hash kept
      by_cases same : hash = manifestHash codec payload
      · exact .inr same
      · left
        rw [has_iff] at kept ⊢
        simpa only [get_put_other _ _ same] using kept
    · intro hash kept
      exact insertedChunks_rows _ hash _ kept

def entryFor (codec : CacheCodec) (payload : Bytes) : KeyEntryRecord :=
  ⟨manifestHash codec payload, payload.length⟩

theorem upsertKey_ok (balanced : Balanced codec Known db fun _ => 0) (key : String)
    (known : Known payload) :
    ∃ change, upsertKey db key (manifestFor codec payload) = .ok change ∧
      Settled codec Known change (db.entries.put key (entryFor codec payload)) ∧
      RowsStored codec change.2 db payload := by
  unfold upsertKey
  simp only
  split
  · next same =>
    obtain ⟨entry, stored, named⟩ := Option.map_eq_some_iff.mp same
    refine ⟨_, rfl, ?_, fun _ kept => .inl kept, fun _ kept => .inl kept⟩
    constructor
    · apply balanced.reentered
      intro hash
      rw [entryCount_put]
      exact (entryCount_del db stored hash).trans (by rw [named]; rfl)
    · rfl
    · intro other listed; cases listed
    · intro other listed; cases listed
  · obtain ⟨stored, done, stored_balanced, entries, rows⟩ := storeManifest_ok balanced known
    rw [done]
    cases found : db.entries.get key with
    | none =>
      refine ⟨_, rfl, ?_, rows.manifests, rows.chunks⟩
      constructor
      · apply stored_balanced.reentered
        intro hash
        rw [entryCount_put, del_absent _ (entries.symm ▸ found)]
        rfl
      · simp only [entries]
        rfl
      · intro other listed; cases listed
      · intro other listed; cases listed
    | some entry =>
      have moved : Balanced codec Known
          { stored with entries := stored.entries.put key (entryFor codec payload) }
          (one entry.manifestHash) := by
        apply stored_balanced.reentered
        intro hash
        rw [entryCount_put]
        have before := entryCount_del stored (entries.symm ▸ found) hash
        simp only [entryFor]
        change entryCount stored hash = _ at before
        omega
      have settled := releaseManifestReference_settled moved
      have within := releaseManifestReference_rows
        { stored with entries := stored.entries.put key (entryFor codec payload) }
        entry.manifestHash
      refine ⟨_, rfl, ?_, ?_, ?_⟩
      · simp only [entries] at settled ⊢
        exact settled
      · intro hash kept
        exact rows.manifests hash (within.manifests hash kept)
      · intro hash kept
        exact rows.chunks hash (within.chunks hash kept)

end Storing

section Moving
variable {codec : CacheCodec} {Known : Bytes → Prop} {db : CacheMetadata}

theorem Balanced.renamed (balanced : Balanced codec Known db fun _ => 0) {from_key to_key : String}
    {source : KeyEntryRecord} (stored : db.entries.get from_key = some source)
    (free : (db.entries.del from_key).get to_key = none) :
    Balanced codec Known
      { db with entries := (db.entries.del from_key).put to_key source } (fun _ => 0) := by
  apply balanced.reentered
  intro hash
  rw [entryCount_put, del_absent _ free]
  exact entryCount_del db stored hash

theorem Balanced.copied (balanced : Balanced codec Known db fun _ => 0) {to_key : String}
    (source : KeyEntryRecord) {row : ManifestRow}
    (found : db.manifests.get source.manifestHash = some row)
    (free : db.entries.get to_key = none) :
    Balanced codec Known { db with
      manifests := addManifestReference db.manifests source.manifestHash
      entries := db.entries.put to_key source } (fun _ => 0) := by
  refine (balanced.referenced found).reentered (db.entries.put to_key source) ?_
  intro hash
  rw [entryCount_put, del_absent _ free]
  simp only [Nat.zero_add, Nat.add_zero]

theorem mem_sortDedup (hashes : List String) (hash : String) :
    hash ∈ sortDedup hashes ↔ hash ∈ hashes := by
  rw [sortDedup, List.mem_dedup, List.mem_mergeSort]

theorem Settled.sorted {change : GarbageCollectionPlan × CacheMetadata}
    {entries : Table String KeyEntryRecord} (settled : Settled codec Known change entries)
    {after : CacheMetadata} (balanced : Balanced codec Known after fun _ => 0)
    (manifests : ∀ hash, change.2.manifests.get hash = none → after.manifests.get hash = none)
    (chunks : after.chunks = change.2.chunks) :
    Settled codec Known (change.1.sorted, after) after.entries where
  balanced := balanced
  entries := rfl
  manifestsGone := fun hash listed =>
    manifests hash (settled.manifestsGone hash ((mem_sortDedup _ _).mp listed))
  chunksGone := by
    intro hash listed
    rw [chunks]
    exact settled.chunksGone hash ((mem_sortDedup _ _).mp listed)

theorem removeTarget_settled (balanced : Balanced codec Known db fun _ => 0) (to_key : String)
    (overwrite : Bool) :
    Settled codec Known (removeTarget db to_key overwrite)
      (if overwrite then db.entries.del to_key else db.entries) := by
  cases overwrite with
  | false =>
    exact settled_default balanced
  | true => exact removeKeyInner_settled balanced to_key

theorem removeTarget_rows (db : CacheMetadata) (to_key : String) (overwrite : Bool) :
    RowsWithin (removeTarget db to_key overwrite).2 db := by
  cases overwrite with
  | false => exact ⟨fun _ kept => kept, fun _ kept => kept⟩
  | true => exact removeKeyInner_rows db to_key

theorem Balanced.row_of_entry (balanced : Balanced codec Known db fun _ => 0) {key : String}
    {entry : KeyEntryRecord} (stored : db.entries.get key = some entry) :
    ∃ row, db.manifests.get entry.manifestHash = some row ∧
      row.refCount = entryCount db entry.manifestHash := by
  have used : 0 < entryCount db entry.manifestHash :=
    (countWhere_pos _ _).mpr ⟨key, entry, stored, beq_self_eq_true _⟩
  have present := balanced.manifests.present (k := entry.manifestHash) (by omega)
  obtain ⟨row, found, count⟩ := Option.map_eq_some_iff.mp present
  exact ⟨row, found, count⟩

end Moving

end BerryKeepCacheReferences
