import BerryKeep.NodeStore

/-!
Reading an object as a whole and in ranges. Four functions walk the chunks of
a manifest with a running offset, skip what ends before the range and stop
where it ends; they differ in what they do with a chunk in between. The walk is
one definition here with that step as its parameter.
-/
namespace BerryKeepObjectRanges
open TextOperations BerryKeepContentCodec BerryKeepStoragePool BerryKeepNodeStore

section Model

inductive StoreReadError where
  | notFound
  | corrupt (message : String)
  | internal (error : StoreError)
  | panicked
  deriving DecidableEq, Repr

abbrev ReadResult := Except StoreReadError

def usizeMax : Nat := 2 ^ 64 - 1

def isizeMax : Nat := 2 ^ 63 - 1

def saturatingAdd (a b : Nat) : Nat := min (a + b) usizeMax

/-- A buffer cannot be larger than the largest signed size. -/
def withCapacity (capacity : Nat) : ReadResult Unit :=
  if isizeMax < capacity then .error .panicked else .ok ()

def slice (bytes : Bytes) (start stop : Nat) : Bytes := (bytes.take stop).drop start

variable (codec : Codec) (st : ContentStore)

def loadForRead (manifest_hash : String) : ReadResult ObjectManifest :=
  match loadManifestByHash codec st manifest_hash with
  | .error error => .error (.internal error)
  | .ok none => .error (.corrupt ("manifest missing for hash=" ++ manifest_hash))
  | .ok (some manifest) => .ok manifest

def chunkPath (chunk : ChunkRef) : ReadResult FilePath :=
  match st.pool.contentPath .chunk chunk.hash with
  | .error error => .error (.internal error)
  | .ok path => .ok path

def missingChunk (chunk : ChunkRef) : StoreReadError := .corrupt ("missing chunk hash=" ++ chunk.hash)

def sizeMismatch (chunk : ChunkRef) (actual : Nat) : StoreReadError :=
  .corrupt ("size mismatch for chunk hash=" ++ chunk.hash ++ " expected=" ++
    toString chunk.sizeBytes ++ " actual=" ++ toString actual)

def readVerifiedChunk (chunk : ChunkRef) : ReadResult Bytes := do
  let path ← chunkPath st chunk
  match st.fileAt path with
  | none => .error (missingChunk chunk)
  | some file =>
    if file.bytes.length ≠ chunk.sizeBytes then
      .error (sizeMismatch chunk file.bytes.length)
    else if hashHex codec file.bytes ≠ chunk.hash then
      .error (.corrupt ("hash mismatch for chunk expected=" ++ chunk.hash ++ " actual=" ++
        hashHex codec file.bytes))
    else .ok file.bytes

def assembleChunks : List ChunkRef → Bytes → ReadResult Bytes
  | [], assembled => .ok assembled
  | chunk :: chunks, assembled => do
    let payload ← readVerifiedChunk codec st chunk
    assembleChunks chunks (assembled ++ payload)

def readObjectByManifestHash (manifest_hash : String) : ReadResult Bytes := do
  let manifest ← loadForRead codec st manifest_hash
  withCapacity manifest.totalSizeBytes
  let assembled ← assembleChunks codec st manifest.chunks []
  if assembled.length ≠ manifest.totalSizeBytes then
    .error (.corrupt ("assembled payload size mismatch key=" ++ manifest.key ++ " expected=" ++
      toString manifest.totalSizeBytes ++ " actual=" ++ toString assembled.length))
  else .ok assembled

def openRange (manifest_hash : String) (start end_exclusive : Nat) : ReadResult ObjectManifest :=
  if end_exclusive < start then
    .error (.internal (.bail ("invalid range start=" ++ toString start ++ " end=" ++
      toString end_exclusive)))
  else do
    let manifest ← loadForRead codec st manifest_hash
    if manifest.totalSizeBytes < end_exclusive then
      .error (.internal (.bail ("range end_exclusive=" ++ toString end_exclusive ++
        " exceeds object size=" ++ toString manifest.totalSizeBytes)))
    else .ok manifest

def visitRange {α : Type} (start end_exclusive : Nat)
    (visit : α → ChunkRef × Nat → ReadResult α) : List ChunkRef → Nat → α → ReadResult α
  | [], _, acc => .ok acc
  | chunk :: chunks, offset, acc =>
    let chunk_end := saturatingAdd offset chunk.sizeBytes
    if chunk_end ≤ start then visitRange start end_exclusive visit chunks chunk_end acc
    else if end_exclusive ≤ offset then .ok acc
    else do
      let acc ← visit acc (chunk, offset)
      visitRange start end_exclusive visit chunks chunk_end acc

def readSlice (start end_exclusive : Nat) (assembled : Bytes) (place : ChunkRef × Nat) :
    ReadResult Bytes := do
  let payload ← readVerifiedChunk codec st place.1
  let slice_start := start - place.2
  let slice_end := min payload.length (end_exclusive - place.2)
  .ok (if slice_start < slice_end then assembled ++ slice payload slice_start slice_end
    else assembled)

def readObjectRangeByManifestHash (manifest_hash : String) (start end_exclusive : Nat) :
    ReadResult Bytes := do
  let manifest ← openRange codec st manifest_hash start end_exclusive
  if start = end_exclusive then .ok []
  else do
    withCapacity (end_exclusive - start)
    let assembled ← visitRange start end_exclusive (readSlice codec st start end_exclusive)
      manifest.chunks 0 []
    if assembled.length ≠ end_exclusive - start then
      .error (.corrupt ("assembled range size mismatch expected=" ++
        toString (end_exclusive - start) ++ " actual=" ++ toString assembled.length))
    else .ok assembled

structure ObjectStreamChunkPlan where
  hash : String
  path : FilePath
  start : Nat
  len : Nat
  deriving DecidableEq, Repr

def localChunkMatchesRef (chunk : ChunkRef) : ReadResult Bool := do
  let path ← chunkPath st chunk
  match st.fileAt path with
  | none => .ok false
  | some file =>
    .ok (decide (file.bytes.length = chunk.sizeBytes) && decide (hashHex codec file.bytes = chunk.hash))

def planSlice (start end_exclusive : Nat) (planned : List ObjectStreamChunkPlan × Nat)
    (place : ChunkRef × Nat) : ReadResult (List ObjectStreamChunkPlan × Nat) := do
  let path ← chunkPath st place.1
  match st.fileAt path with
  | none => .error (missingChunk place.1)
  | some file =>
    if file.bytes.length ≠ place.1.sizeBytes then
      .error (sizeMismatch place.1 file.bytes.length)
    else do
      let is_valid ← localChunkMatchesRef codec st place.1
      if !is_valid then
        .error (.corrupt ("hash mismatch for chunk expected=" ++ place.1.hash))
      else
        let slice_start := start - place.2
        let slice_end := min place.1.sizeBytes (end_exclusive - place.2)
        .ok (if slice_start < slice_end then
            (planned.1 ++ [⟨place.1.hash, path, slice_start, slice_end - slice_start⟩],
              saturatingAdd planned.2 (slice_end - slice_start))
          else planned)

def planObjectRangeByManifestHash (manifest_hash : String) (start end_exclusive : Nat) :
    ReadResult (List ObjectStreamChunkPlan) := do
  let manifest ← openRange codec st manifest_hash start end_exclusive
  let planned ← visitRange start end_exclusive (planSlice codec st start end_exclusive)
    manifest.chunks 0 ([], 0)
  if planned.2 ≠ end_exclusive - start then
    .error (.corrupt ("planned range size mismatch expected=" ++
      toString (end_exclusive - start) ++ " actual=" ++ toString planned.2))
  else .ok planned.1

def noteMissing (missing : List ChunkRef) (place : ChunkRef × Nat) : ReadResult (List ChunkRef) := do
  let path ← chunkPath st place.1
  match st.fileAt path with
  | none => .ok (missing ++ [place.1])
  | some file =>
    if file.bytes.length = place.1.sizeBytes then do
      let is_valid ← localChunkMatchesRef codec st place.1
      .ok (if is_valid then missing else missing ++ [place.1])
    else .ok (missing ++ [place.1])

def missingChunksForManifestRange (manifest_hash : String) (start end_exclusive : Nat) :
    ReadResult (List ChunkRef) := do
  let manifest ← openRange codec st manifest_hash start end_exclusive
  visitRange start end_exclusive (noteMissing codec st) manifest.chunks 0 []

def noteHash (hashes : List String) (place : ChunkRef × Nat) : ReadResult (List String) :=
  .ok (hashes ++ [place.1.hash])

def chunkHashesForManifestRange (manifest_hash : String) (start end_exclusive : Nat) :
    ReadResult (List String) := do
  let manifest ← openRange codec st manifest_hash start end_exclusive
  visitRange start end_exclusive noteHash manifest.chunks 0 []

def planBytes : List ObjectStreamChunkPlan → Option Bytes
  | [] => some []
  | planned :: rest => do
    let file ← st.fileAt planned.path
    let later ← planBytes rest
    return slice file.bytes planned.start (planned.start + planned.len) ++ later

end Model

section Layout

def placed : Nat → List ChunkRef → List (ChunkRef × Nat)
  | _, [] => []
  | offset, chunk :: chunks => (chunk, offset) :: placed (offset + chunk.sizeBytes) chunks

def overlaps (start stop : Nat) (place : ChunkRef × Nat) : Bool :=
  decide (start < place.2 + place.1.sizeBytes) && decide (place.2 < stop)

def visited (start stop offset : Nat) (chunks : List ChunkRef) : List (ChunkRef × Nat) :=
  (placed offset chunks).filter (overlaps start stop)

def totalSize (chunks : List ChunkRef) : Nat := (chunks.map (·.sizeBytes)).sum

theorem placed_offsets (chunks : List ChunkRef) :
    ∀ (offset : Nat) (place : ChunkRef × Nat), place ∈ placed offset chunks →
      offset ≤ place.2 ∧ place.2 + place.1.sizeBytes ≤ offset + totalSize chunks ∧
        place.1 ∈ chunks := by
  induction chunks with
  | nil =>
    intro offset place listed
    cases listed
  | cons chunk chunks ih =>
    intro offset place listed
    have size : totalSize (chunk :: chunks) = chunk.sizeBytes + totalSize chunks := by simp [totalSize]
    rcases List.mem_cons.mp listed with rfl | later
    · exact ⟨Nat.le_refl _, by simp only [size]; omega, List.mem_cons_self⟩
    · obtain ⟨low, high, inside⟩ := ih _ place later
      exact ⟨by omega, by omega, List.mem_cons_of_mem _ inside⟩

theorem visited_past (start : Nat) {stop offset : Nat} (past : stop ≤ offset)
    (chunks : List ChunkRef) : visited start stop offset chunks = [] := by
  unfold visited
  rw [List.filter_eq_nil_iff]
  intro place listed
  have low := (placed_offsets chunks offset place listed).1
  simp only [overlaps, Bool.and_eq_true, decide_eq_true_eq, not_and]
  omega

variable {start stop : Nat}

theorem visitRange_eq {α : Type} (visit : α → ChunkRef × Nat → ReadResult α)
    (chunks : List ChunkRef) :
    ∀ (offset : Nat) (acc : α), offset + totalSize chunks ≤ usizeMax →
      visitRange start stop visit chunks offset acc =
        (visited start stop offset chunks).foldlM visit acc := by
  induction chunks with
  | nil =>
    intro offset acc _
    rfl
  | cons chunk chunks ih =>
    intro offset acc fits
    have size : totalSize (chunk :: chunks) = chunk.sizeBytes + totalSize chunks := by simp [totalSize]
    have chunk_end : saturatingAdd offset chunk.sizeBytes = offset + chunk.sizeBytes := by
      unfold saturatingAdd
      omega
    simp only [visitRange, chunk_end]
    by_cases before : offset + chunk.sizeBytes ≤ start
    · have skipped : visited start stop offset (chunk :: chunks) =
          visited start stop (offset + chunk.sizeBytes) chunks := by
        unfold visited
        rw [placed, List.filter_cons_of_neg]
        simp only [overlaps, Bool.and_eq_true, decide_eq_true_eq, not_and]
        omega
      rw [if_pos before, skipped]
      exact ih _ acc (by omega)
    · rw [if_neg before]
      by_cases past : stop ≤ offset
      · rw [if_pos past, visited_past start past]
        rfl
      · have taken : visited start stop offset (chunk :: chunks) =
            (chunk, offset) :: visited start stop (offset + chunk.sizeBytes) chunks := by
          unfold visited
          rw [placed, List.filter_cons_of_pos]
          simp only [overlaps, Bool.and_eq_true, decide_eq_true_eq]
          omega
        rw [if_neg past, taken, List.foldlM_cons]
        congr 1
        funext next
        exact ih _ next (by omega)

def window (start stop offset : Nat) (bytes : Bytes) : Bytes :=
  slice bytes (start - offset) (stop - offset)

theorem window_append (start stop offset : Nat) (first rest : Bytes) :
    window start stop offset (first ++ rest) =
      window start stop offset first ++ window start stop (offset + first.length) rest := by
  unfold window slice
  rw [List.take_append, List.drop_append, List.length_take]
  congr 1
  have left : start - offset - first.length = start - (offset + first.length) := by omega
  have right : stop - offset - first.length = stop - (offset + first.length) := by omega
  by_cases inside : first.length ≤ stop - offset
  · rw [Nat.min_eq_right inside, left, right]
  · have nothing : stop - (offset + first.length) = 0 := by omega
    rw [right, nothing]
    simp

theorem window_outside {place : ChunkRef × Nat} {payload : Bytes}
    (size : payload.length = place.1.sizeBytes) (outside : overlaps start stop place = false) :
    window start stop place.2 payload = [] := by
  simp only [overlaps, Bool.and_eq_false_iff, decide_eq_false_iff_not] at outside
  unfold window slice
  rw [List.drop_eq_nil_iff, List.length_take]
  omega

theorem window_visited {payload : ChunkRef → Bytes} (chunks : List ChunkRef) :
    ∀ offset : Nat, (∀ chunk ∈ chunks, (payload chunk).length = chunk.sizeBytes) →
      window start stop offset (chunks.flatMap payload) =
        (visited start stop offset chunks).flatMap fun place =>
          window start stop place.2 (payload place.1) := by
  induction chunks with
  | nil =>
    intro offset _
    simp [window, slice, visited, placed]
  | cons chunk chunks ih =>
    intro offset sizes
    have here := sizes chunk List.mem_cons_self
    have later := ih (offset + chunk.sizeBytes) fun other listed =>
      sizes other (List.mem_cons_of_mem _ listed)
    rw [List.flatMap_cons, window_append, here, later]
    unfold visited
    rw [placed]
    cases inside : overlaps start stop (chunk, offset) with
    | true => rw [List.filter_cons_of_pos inside, List.flatMap_cons]
    | false =>
      rw [List.filter_cons_of_neg (by simp [inside]),
        @window_outside start stop (chunk, offset) _ here inside, List.nil_append]

end Layout

section Visitors
variable {codec : Codec} {st : ContentStore} {start stop : Nat}

def payloadOf (codec : Codec) (st : ContentStore) (chunk : ChunkRef) : Bytes :=
  match readVerifiedChunk codec st chunk with
  | .ok payload => payload
  | .error _ => []

def Readable (codec : Codec) (st : ContentStore) (chunk : ChunkRef) : Prop :=
  readVerifiedChunk codec st chunk = .ok (payloadOf codec st chunk)

variable {chunk : ChunkRef}

theorem readable_of_ok {payload : Bytes}
    (read : readVerifiedChunk codec st chunk = .ok payload) : Readable codec st chunk := by
  unfold Readable payloadOf
  rw [read]

theorem Readable.file (readable : Readable codec st chunk) :
    ∃ path file, chunkPath st chunk = .ok path ∧ st.fileAt path = some file ∧
      file.bytes = payloadOf codec st chunk ∧ file.bytes.length = chunk.sizeBytes ∧
      hashHex codec file.bytes = chunk.hash := by
  have read := readable
  unfold Readable readVerifiedChunk at read
  cases located : chunkPath st chunk with
  | error error =>
    rw [located] at read
    cases read
  | ok path =>
    rw [located] at read
    cases there : st.fileAt path with
    | none =>
      simp only [bind, Except.bind, there] at read
      cases read
    | some file =>
      simp only [bind, Except.bind, there] at read
      split at read
      · cases read
      · next size =>
        split at read
        · cases read
        · next hash =>
          exact ⟨path, file, rfl, there, Except.ok.inj read, not_not.mp size, not_not.mp hash⟩

theorem Readable.size (readable : Readable codec st chunk) :
    (payloadOf codec st chunk).length = chunk.sizeBytes := by
  obtain ⟨path, file, _, _, same, size, _⟩ := readable.file
  rw [← same, size]

theorem Readable.matches (readable : Readable codec st chunk) :
    localChunkMatchesRef codec st chunk = .ok true := by
  obtain ⟨path, file, located, there, _, size, hash⟩ := readable.file
  unfold localChunkMatchesRef
  simp only [located, bind, Except.bind, there, size, hash, decide_true, Bool.and_self]

theorem slice_eq_window (payload : Bytes) (offset : Nat) :
    (if start - offset < min payload.length (stop - offset) then
      slice payload (start - offset) (min payload.length (stop - offset)) else []) =
      window start stop offset payload := by
  unfold window slice
  split
  · rw [List.take_eq_take_iff.mpr]
    omega
  · next empty =>
    symm
    rw [List.drop_eq_nil_iff, List.length_take]
    omega

variable {place : ChunkRef × Nat}

theorem readSlice_readable (readable : Readable codec st place.1) (assembled : Bytes) :
    readSlice codec st start stop assembled place =
      .ok (assembled ++ window start stop place.2 (payloadOf codec st place.1)) := by
  unfold readSlice
  rw [readable, ← slice_eq_window]
  simp only [bind, Except.bind]
  split
  · rfl
  · rw [List.append_nil]

variable (places : List (ChunkRef × Nat))

theorem readSlices :
    ∀ assembled : Bytes, (∀ place ∈ places, Readable codec st place.1) →
      places.foldlM (readSlice codec st start stop) assembled =
        .ok (assembled ++ places.flatMap fun place =>
          window start stop place.2 (payloadOf codec st place.1)) := by
  induction places with
  | nil =>
    intro assembled _
    rw [List.foldlM_nil, List.flatMap_nil, List.append_nil]
    rfl
  | cons place places ih =>
    intro assembled readable
    rw [List.foldlM_cons, readSlice_readable (readable place List.mem_cons_self)]
    simp only [bind, Except.bind]
    rw [ih _ fun other listed => readable other (List.mem_cons_of_mem _ listed), List.flatMap_cons,
      List.append_assoc]

theorem noteMissing_readable :
    ∀ missing : List ChunkRef, (∀ place ∈ places, Readable codec st place.1) →
      places.foldlM (noteMissing codec st) missing = .ok missing := by
  induction places with
  | nil =>
    intro missing _
    rfl
  | cons place places ih =>
    intro missing readable
    have here := readable place List.mem_cons_self
    obtain ⟨path, file, located, there, _, size, _⟩ := here.file
    have step : noteMissing codec st missing place = .ok missing := by
      unfold noteMissing
      simp only [located, bind, Except.bind, there, size, here.matches, if_true]
    rw [List.foldlM_cons, step]
    exact ih missing fun other listed => readable other (List.mem_cons_of_mem _ listed)

theorem noteHashes :
    ∀ hashes : List String,
      places.foldlM noteHash hashes = .ok (hashes ++ places.map (·.1.hash)) := by
  induction places with
  | nil =>
    intro hashes
    rw [List.map_nil, List.append_nil]
    rfl
  | cons place places ih =>
    intro hashes
    rw [List.foldlM_cons, noteHash]
    simp only [bind, Except.bind]
    rw [ih, List.map_cons, List.append_assoc]
    rfl

def slicePlan (st : ContentStore) (start stop : Nat) (place : ChunkRef × Nat) :
    Option ObjectStreamChunkPlan :=
  let slice_start := start - place.2
  let slice_end := min place.1.sizeBytes (stop - place.2)
  match chunkPath st place.1 with
  | .error _ => none
  | .ok path =>
    if slice_start < slice_end then
      some ⟨place.1.hash, path, slice_start, slice_end - slice_start⟩
    else none

theorem planSlice_readable (readable : Readable codec st place.1)
    (planned : List ObjectStreamChunkPlan × Nat)
    (fits : planned.2 + (window start stop place.2 (payloadOf codec st place.1)).length ≤ usizeMax) :
    planSlice codec st start stop planned place =
      .ok (planned.1 ++ (slicePlan st start stop place).toList,
        planned.2 + (window start stop place.2 (payloadOf codec st place.1)).length) := by
  obtain ⟨path, file, located, there, same, size, _⟩ := readable.file
  have length : (window start stop place.2 (payloadOf codec st place.1)).length =
      min place.1.sizeBytes (stop - place.2) - (start - place.2) := by
    unfold window slice
    rw [List.length_drop, List.length_take, readable.size]
    omega
  rw [length] at fits
  unfold planSlice slicePlan
  rw [length]
  simp only [located, bind, Except.bind, there, size, ne_eq, not_true, if_false, readable.matches,
    Bool.not_true, Bool.false_eq_true]
  split
  · next inside =>
    rw [saturatingAdd, Nat.min_eq_left fits]
    rfl
  · next outside =>
    have nothing : min place.1.sizeBytes (stop - place.2) - (start - place.2) = 0 := by omega
    rw [nothing]
    simp

theorem slicePlan_bytes (readable : Readable codec st place.1) (rest : List ObjectStreamChunkPlan) :
    planBytes st ((slicePlan st start stop place).toList ++ rest) =
      (planBytes st rest).map
        (window start stop place.2 (payloadOf codec st place.1) ++ ·) := by
  obtain ⟨path, file, located, there, same, size, _⟩ := readable.file
  have cut := @slice_eq_window start stop (payloadOf codec st place.1) place.2
  rw [readable.size] at cut
  unfold slicePlan
  simp only [located]
  rw [← cut]
  split
  · next inside =>
    have stop_at : start - place.2 + (min place.1.sizeBytes (stop - place.2) - (start - place.2)) =
        min place.1.sizeBytes (stop - place.2) := by omega
    simp only [Option.toList_some, List.cons_append, List.nil_append, planBytes, there, stop_at]
    rw [← same]
    cases planBytes st rest <;> rfl
  · simp only [Option.toList_none, List.nil_append]
    cases planBytes st rest <;> rfl

theorem planSlices :
    ∀ planned : List ObjectStreamChunkPlan × Nat, (∀ place ∈ places, Readable codec st place.1) →
      planned.2 + (places.flatMap fun place =>
        window start stop place.2 (payloadOf codec st place.1)).length ≤ usizeMax →
      places.foldlM (planSlice codec st start stop) planned =
        .ok (planned.1 ++ places.filterMap (slicePlan st start stop),
          planned.2 + (places.flatMap fun place =>
            window start stop place.2 (payloadOf codec st place.1)).length) := by
  induction places with
  | nil =>
    intro planned _ _
    simp only [List.filterMap_nil, List.append_nil, List.flatMap_nil, List.length_nil, Nat.add_zero]
    rfl
  | cons place places ih =>
    intro planned readable fits
    rw [List.flatMap_cons, List.length_append] at fits
    rw [List.foldlM_cons, planSlice_readable (readable place List.mem_cons_self) planned (by omega)]
    simp only [bind, Except.bind]
    rw [ih _ (fun other listed => readable other (List.mem_cons_of_mem _ listed)) (by simp only; omega)]
    simp only [List.flatMap_cons, List.length_append, List.append_assoc, Nat.add_assoc]
    congr 2
    cases planned_here : slicePlan st start stop place with
    | none => rw [List.filterMap_cons_none planned_here]; rfl
    | some slice => rw [List.filterMap_cons_some planned_here]; rfl

theorem plannedBytes (readable : ∀ place ∈ places, Readable codec st place.1) :
    planBytes st (places.filterMap (slicePlan st start stop)) =
      some (places.flatMap fun place =>
        window start stop place.2 (payloadOf codec st place.1)) := by
  induction places with
  | nil => rfl
  | cons place places ih =>
    have later := ih fun other listed => readable other (List.mem_cons_of_mem _ listed)
    have split : (place :: places).filterMap (slicePlan st start stop) =
        (slicePlan st start stop place).toList ++ places.filterMap (slicePlan st start stop) := by
      cases planned_here : slicePlan st start stop place with
      | none => rw [List.filterMap_cons_none planned_here]; rfl
      | some slice => rw [List.filterMap_cons_some planned_here]; rfl
    rw [split, slicePlan_bytes (readable place List.mem_cons_self), later, List.flatMap_cons]
    rfl

end Visitors

section WholeReads
variable {codec : Codec} {st : ContentStore}

theorem assembleChunks_ok (chunks : List ChunkRef) :
    ∀ {assembled bytes : Bytes}, assembleChunks codec st chunks assembled = .ok bytes →
      (∀ chunk ∈ chunks, Readable codec st chunk) ∧
        bytes = assembled ++ chunks.flatMap (payloadOf codec st) := by
  induction chunks with
  | nil =>
    intro assembled bytes read
    cases read
    constructor
    · intro chunk listed
      cases listed
    · simp
  | cons chunk chunks ih =>
    intro assembled bytes read
    rw [assembleChunks] at read
    cases here : readVerifiedChunk codec st chunk with
    | error error =>
      rw [here] at read
      cases read
    | ok payload =>
      rw [here] at read
      have readable : Readable codec st chunk := readable_of_ok here
      have same : payload = payloadOf codec st chunk := by
        rw [readable] at here
        exact (Except.ok.inj here).symm
      obtain ⟨others, total⟩ := ih read
      constructor
      · intro other listed
        rcases List.mem_cons.mp listed with rfl | later
        · exact readable
        · exact others other later
      · rw [total, same, List.flatMap_cons, List.append_assoc]

structure WholeRead (codec : Codec) (st : ContentStore) (manifest_hash : String) (bytes : Bytes)
    (manifest : ObjectManifest) : Prop where
  loaded : loadForRead codec st manifest_hash = .ok manifest
  readable : ∀ chunk ∈ manifest.chunks, Readable codec st chunk
  content : bytes = manifest.chunks.flatMap (payloadOf codec st)
  size : bytes.length = manifest.totalSizeBytes
  bounded : bytes.length ≤ isizeMax

variable {manifest_hash : String} {bytes : Bytes}

theorem readObject_ok
    (read : readObjectByManifestHash codec st manifest_hash = .ok bytes) :
    ∃ manifest, WholeRead codec st manifest_hash bytes manifest := by
  unfold readObjectByManifestHash at read
  cases loaded : loadForRead codec st manifest_hash with
  | error error =>
    rw [loaded] at read
    cases read
  | ok manifest =>
    rw [loaded] at read
    simp only [bind, Except.bind, withCapacity] at read
    split at read
    · cases read
    · next capacity =>
      split at capacity
      · cases capacity
      · next fits =>
        cases assembled : assembleChunks codec st manifest.chunks [] with
        | error error =>
          rw [assembled] at read
          cases read
        | ok whole =>
          rw [assembled] at read
          simp only at read
          split at read
          · cases read
          · next size =>
            cases read
            obtain ⟨readable, content⟩ := assembleChunks_ok manifest.chunks assembled
            have length := not_not.mp size
            exact ⟨manifest, loaded, readable, by simpa using content, length, by omega⟩

variable {manifest : ObjectManifest}

theorem WholeRead.chunkBytes
    (whole : WholeRead codec st manifest_hash bytes manifest) :
    totalSize manifest.chunks = bytes.length := by
  rw [whole.content, List.length_flatMap, totalSize]
  congr 1
  apply List.map_congr_left
  intro chunk listed
  exact (whole.readable chunk listed).size.symm

theorem WholeRead.opened
    (whole : WholeRead codec st manifest_hash bytes manifest) {start stop : Nat}
    (ordered : start ≤ stop) (inside : stop ≤ bytes.length) :
    openRange codec st manifest_hash start stop = .ok manifest := by
  unfold openRange
  rw [if_neg (by omega), whole.loaded]
  simp only [bind, Except.bind]
  rw [if_neg (by rw [← whole.size]; omega)]

theorem WholeRead.visits
    (whole : WholeRead codec st manifest_hash bytes manifest) (start stop : Nat) {α : Type}
    (visit : α → ChunkRef × Nat → ReadResult α) (acc : α) :
    visitRange start stop visit manifest.chunks 0 acc =
      (visited start stop 0 manifest.chunks).foldlM visit acc := by
  apply visitRange_eq
  have limits : isizeMax ≤ usizeMax := by decide
  have size := whole.chunkBytes
  have bounded := whole.bounded
  omega

theorem WholeRead.visited_readable
    (whole : WholeRead codec st manifest_hash bytes manifest)
    (start stop : Nat) :
    ∀ place ∈ visited start stop 0 manifest.chunks, Readable codec st place.1 := by
  intro place listed
  have inside := placed_offsets manifest.chunks 0 place (List.mem_filter.mp listed).1
  exact whole.readable place.1 inside.2.2

theorem WholeRead.range
    (whole : WholeRead codec st manifest_hash bytes manifest) (start stop : Nat) :
    ((visited start stop 0 manifest.chunks).flatMap fun place =>
      window start stop place.2 (payloadOf codec st place.1)) = slice bytes start stop := by
  rw [← window_visited manifest.chunks 0 fun chunk listed => (whole.readable chunk listed).size,
    ← whole.content]
  rfl

end WholeReads

variable {start stop : Nat}

theorem slice_length {bytes : Bytes} (inside : stop ≤ bytes.length) :
    (slice bytes start stop).length = stop - start := by
  unfold slice
  rw [List.length_drop, List.length_take]
  omega

theorem slicePlan_hash {codec : Codec} {st : ContentStore} (filled : start < stop)
    {place : ChunkRef × Nat} (readable : Readable codec st place.1)
    (inside : overlaps start stop place = true) :
    (slicePlan st start stop place).map (·.hash) =
      if place.1.sizeBytes ≠ 0 then some place.1.hash else none := by
  obtain ⟨path, file, located, _⟩ := readable.file
  simp only [overlaps, Bool.and_eq_true, decide_eq_true_eq] at inside
  unfold slicePlan
  simp only [located]
  by_cases empty : place.1.sizeBytes = 0
  · rw [if_neg (by omega), if_neg (by simp [empty])]
    rfl
  · rw [if_pos (by omega), if_pos empty]
    rfl

theorem planned_hashes {codec : Codec} {st : ContentStore}
    (filled : start < stop) (places : List (ChunkRef × Nat))
    (readable : ∀ place ∈ places, Readable codec st place.1)
    (inside : ∀ place ∈ places, overlaps start stop place = true) :
    (places.filterMap (slicePlan st start stop)).map (·.hash) =
      (places.filter fun place => place.1.sizeBytes ≠ 0).map (·.1.hash) := by
  rw [List.map_filterMap]
  induction places with
  | nil => rfl
  | cons place places ih =>
    have here := slicePlan_hash filled (readable place List.mem_cons_self)
      (inside place List.mem_cons_self)
    have later := ih (fun other listed => readable other (List.mem_cons_of_mem _ listed))
      (fun other listed => inside other (List.mem_cons_of_mem _ listed))
    by_cases empty : place.1.sizeBytes = 0
    · rw [if_neg (by simp [empty])] at here
      simp only [List.filterMap_cons, here]
      rw [later, List.filter_cons_of_neg (by simp [empty])]
    · rw [if_pos empty] at here
      simp only [List.filterMap_cons, here]
      rw [later, List.filter_cons_of_pos (by simpa using empty), List.map_cons]

/-- Where an object can be read as a whole, every range of it can be read and planned with the
    same bytes, no chunk of the range is missing, and the hashes listed for it are those of the
    planned slices and of empty chunks strictly inside it. -/
theorem range_reads_agree (codec : Codec) (st : ContentStore) (manifest_hash : String)
    (bytes : Bytes) (start stop : Nat)
    (read : readObjectByManifestHash codec st manifest_hash = .ok bytes) (ordered : start ≤ stop)
    (inside : stop ≤ bytes.length) :
    readObjectRangeByManifestHash codec st manifest_hash start stop =
        .ok (slice bytes start stop) ∧
    (∃ plan, planObjectRangeByManifestHash codec st manifest_hash start stop = .ok plan ∧
      planBytes st plan = some (slice bytes start stop)) ∧
    missingChunksForManifestRange codec st manifest_hash start stop = .ok [] ∧
    (start < stop → ∃ (plan : List ObjectStreamChunkPlan) (places : List (ChunkRef × Nat)),
      planObjectRangeByManifestHash codec st manifest_hash start stop = .ok plan ∧
      chunkHashesForManifestRange codec st manifest_hash start stop =
        .ok (places.map (·.1.hash)) ∧
      (∃ manifest, loadForRead codec st manifest_hash = .ok manifest ∧
        places.Sublist (placed 0 manifest.chunks)) ∧
      plan.map (·.hash) =
        (places.filter fun place => place.1.sizeBytes ≠ 0).map (·.1.hash) ∧
      ∀ place ∈ places, place.1.sizeBytes = 0 → start < place.2 ∧ place.2 < stop) := by
  obtain ⟨manifest, whole⟩ := readObject_ok read
  have opened := whole.opened ordered inside
  have readable := whole.visited_readable start stop
  have range := whole.range start stop
  have length := @slice_length start stop bytes inside
  have limits : isizeMax ≤ usizeMax := by decide
  have bounded := whole.bounded
  have planned : planObjectRangeByManifestHash codec st manifest_hash start stop =
      .ok ((visited start stop 0 manifest.chunks).filterMap (slicePlan st start stop)) := by
    have slices := @planSlices codec st start stop (visited start stop 0 manifest.chunks) ([], 0)
      readable (by rw [range, length]; omega)
    rw [range, length] at slices
    unfold planObjectRangeByManifestHash
    rw [opened]
    simp only [bind, Except.bind, whole.visits, slices, Nat.zero_add, ne_eq, not_true, if_false,
      List.nil_append]
  refine ⟨?_, ⟨_, planned, ?_⟩, ?_, fun filled => ⟨_, visited start stop 0 manifest.chunks,
    planned, ?_, ⟨manifest, whole.loaded, List.filter_sublist⟩, ?_, ?_⟩⟩
  · unfold readObjectRangeByManifestHash
    rw [opened]
    simp only [bind, Except.bind]
    split
    · next same =>
      have nothing : (slice bytes start stop).length = 0 := by omega
      rw [List.length_eq_zero_iff.mp nothing]
    · have capacity : withCapacity (stop - start) = .ok () := by
        unfold withCapacity
        rw [if_neg (by omega)]
      rw [capacity]
      simp only [whole.visits, readSlices _ _ readable, range, List.nil_append, length, ne_eq,
        not_true, if_false]
  · rw [plannedBytes _ readable, range]
  · unfold missingChunksForManifestRange
    rw [opened]
    simp only [bind, Except.bind, whole.visits, noteMissing_readable _ _ readable]
  · unfold chunkHashesForManifestRange
    rw [opened]
    simp only [bind, Except.bind, whole.visits, noteHashes, List.nil_append]
  · exact planned_hashes filled _ readable fun place listed => (List.mem_filter.mp listed).2
  · intro place listed empty
    have overlapping := (List.mem_filter.mp listed).2
    simp only [overlaps, empty, Bool.and_eq_true, decide_eq_true_eq] at overlapping
    exact overlapping

section Example

def lengthCodec (manifest : ObjectManifest) : Codec where
  digest payload := List.replicate 32 payload.length.toUInt8
  digest_length _ := List.length_replicate
  encodeManifest _ := []
  decodeManifest _ := some manifest

def lengthHash (length : UInt8) : String := toHex (List.replicate 32 length)

def twoChunkManifest : ObjectManifest := ⟨"key", 3, [⟨lengthHash 2, 2⟩, ⟨lengthHash 1, 1⟩]⟩

def twoChunkStore : ContentStore where
  pool := ⟨[⟨⟨"legacy-primary", .active, 1, 0⟩, true⟩], legacyPrimary_nodup,
    FiniteTable.Table.empty⟩
  disk := ((FiniteTable.Table.empty.put (chunkFile "legacy-primary" (lengthHash 2)) ⟨[1, 2], 0⟩).put
    (chunkFile "legacy-primary" (lengthHash 1)) ⟨[3], 0⟩).put
    (manifestFile "legacy-primary" (lengthHash 0)) ⟨[], 0⟩
  mounted _ := true
  records := FiniteTable.Table.empty

theorem last_two_bytes_read :
    readObjectByManifestHash (lengthCodec twoChunkManifest) twoChunkStore (lengthHash 0) =
        .ok [1, 2, 3] ∧
      readObjectRangeByManifestHash (lengthCodec twoChunkManifest) twoChunkStore (lengthHash 0) 1 3 =
        .ok [2, 3] := by
  have whole : readObjectByManifestHash (lengthCodec twoChunkManifest) twoChunkStore
      (lengthHash 0) = .ok [1, 2, 3] := by decide +kernel
  exact ⟨whole, (range_reads_agree _ _ _ _ 1 3 whole (by decide) (by decide)).1⟩

end Example

end BerryKeepObjectRanges
