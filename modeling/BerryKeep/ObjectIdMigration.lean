import Mathlib.Algebra.Order.BigOperators.Group.Finset
import Mathlib.Data.Finset.Card
import BerryKeep.ObjectIdentity

/-!
The migration that gives every path of an old store an object id of its own.
Ids are handed out from three sources in turn: the ids that paths have already,
the ids that the stored versions suggest for the paths without one, and new
ids. All three go through one set of claimed ids. The stored indexes are read
page by page and repaired on the way, so the scan writes to the table it walks.
-/
namespace BerryKeepObjectIdMigration
open FiniteTable TextOperations StatefulProgram BerryKeepContentCodec BerryKeepVersionGraph
  BerryKeepCatalog BerryKeepCurrentNamespace BerryKeepStoragePool BerryKeepNodeStore
  BerryKeepStoreCalls BerryKeepObjectIdentity

/-- The namespace as it is loaded. A path of `objects` may lack an object id. -/
structure CurrentState where
  objects : Table String String
  objectIds : Table String String

def loadCurrentState (rows : Bindings) : CurrentState where
  objects := rows.mapValues (·.manifestHash)
  objectIds := rows.mapValues (·.objectId)

-- The payload of a row decides its hash, which no field of the index does.
structure StoredIndex where
  index : FileVersionIndex
  payloadHash : String

structure LegacyStore where
  current : CurrentState
  indexes : Table String StoredIndex
  backfillComplete : Bool
  seconds : Nat → Nat
  uuids : Nat → String

abbrev LegacyM := Program LegacyStore StoreError

structure Surroundings where
  codec : Codec
  content : ContentStore
  indexHash : FileVersionIndex → String

structure LoadedIndex where
  index : FileVersionIndex
  identityWasNormalized : Bool
  persistedObjectId : String

structure LegacyObjectIdCandidate where
  objectId : String
  priority : Nat
  createdAtUnix : Nat
  deriving DecidableEq, Repr

structure ObjectIdMigrationAssignment where
  objectId : String
  needsVersionBackfill : Bool
  deriving DecidableEq, Repr

structure Assignments where
  byPath : Table String ObjectIdMigrationAssignment
  claimed : Finset String

abbrev Candidates := Table (String × String) LegacyObjectIdCandidate

def objectIdMigrationVersionIndexBatchSize : Nat := 128

def unixTs : LegacyM Nat :=
  modifyGet fun s => (s.seconds 0, { s with seconds := fun n => s.seconds (n + 1) })

def nowV7 : LegacyM String :=
  modifyGet fun s => (s.uuids 0, { s with uuids := fun n => s.uuids (n + 1) })

def generateObjectId : LegacyM String := do return "obj-" ++ (← nowV7)

-- The source draws until an id is unclaimed.
def generateUnclaimedObjectId (claimed : Finset String) : Nat → LegacyM String
  | 0 => throw .outOfFuel
  | draws + 1 => do
    let object_id ← generateObjectId
    if object_id ∈ claimed then generateUnclaimedObjectId claimed draws else return object_id

def CurrentState.existingObjectId (current : CurrentState) (path : String) : Option String :=
  (current.objectIds.get path).filter fun object_id => !isBlank object_id

def uniqueBindings (current : CurrentState) : List String → Finset String → Bool
  | [], _ => true
  | path :: paths, object_ids =>
    match current.existingObjectId path with
    | none => false
    | some object_id =>
      if object_id ∈ object_ids then false
      else uniqueBindings current paths (insert object_id object_ids)

def currentStateHasUniqueObjectIdBindings (current : CurrentState) : Bool :=
  uniqueBindings current current.objects.keys ∅

def withIdentity (index : FileVersionIndex) (object_id : String) : FileVersionIndex where
  objectId := object_id
  versions := index.versions.mapValues fun record => { record with objectId := object_id }
  headVersionIds := index.headVersionIds
  preferredHeadVersionId := index.preferredHeadVersionId
  keyed := by
    intro id record stored
    rw [get_mapValues] at stored
    obtain ⟨old, found, rfl⟩ := Option.map_eq_some_iff.mp stored
    exact index.keyed id old found

def canonicalObjectId (persisted_object_id : String) (row : StoredIndex) : String :=
  if isBlank persisted_object_id then
    if isBlank row.index.objectId then "legacy-empty-index-" ++ row.payloadHash
    else row.index.objectId
  else persisted_object_id

def decodeVersionIndex (persisted_object_id : String) (row : StoredIndex) : LoadedIndex :=
  let canonical_object_id := canonicalObjectId persisted_object_id row
  { index := withIdentity row.index canonical_object_id
    identityWasNormalized := isBlank persisted_object_id ||
      row.index.objectId != canonical_object_id ||
      row.index.versions.values.any fun record =>
        isBlank record.objectId || record.objectId != canonical_object_id
    persistedObjectId := persisted_object_id }

def LegacyStore.loadVersionIndex (s : LegacyStore) (object_id : String) : Option LoadedIndex :=
  (s.indexes.get object_id).map (decodeVersionIndex object_id)

def ahead (after_object_id : Option String) (object_id : String) : Bool :=
  after_object_id.all fun cursor => decide (cursor < object_id)

def LegacyStore.pageAfter (s : LegacyStore) (after_object_id : Option String) (limit : Nat) :
    List String :=
  (s.indexes.sortedKeys.filter (ahead after_object_id)).take (max limit 1)

def LegacyStore.loadVersionIndexesAfter (s : LegacyStore) (after_object_id : Option String)
    (limit : Nat) : List LoadedIndex :=
  (s.pageAfter after_object_id limit).filterMap s.loadVersionIndex

def persistVersionIndexByObjectId (env : Surroundings) (object_id : String)
    (index : FileVersionIndex) : LegacyM Unit := do
  lift (validateVersionIndexIdentity object_id index)
  modify fun s => { s with indexes := s.indexes.put object_id ⟨index, env.indexHash index⟩ }

def deleteVersionIndexByObjectId (object_id : String) : LegacyM Unit :=
  modify fun s => { s with indexes := s.indexes.del object_id }

def upsertCurrentObject (path : String) (entry : CurrentObjectEntry) : LegacyM Unit :=
  modify fun s => { s with current :=
    ⟨s.current.objects.put path entry.manifestHash, s.current.objectIds.put path entry.objectId⟩ }

def markObjectIdBackfillComplete : LegacyM Unit :=
  modify fun s => { s with backfillComplete := true }

def uncontested (loaded : LoadedIndex) : LegacyM FileVersionIndex := do
  let s ← get
  if loaded.persistedObjectId ≠ loaded.index.objectId ∧ s.indexes.has loaded.index.objectId then do
    let replacement_object_id ← generateObjectId
    return withIdentity loaded.index replacement_object_id
  else return loaded.index

def repairNormalizedVersionIndexIdentity (env : Surroundings) (loaded : LoadedIndex) :
    LegacyM FileVersionIndex :=
  if !loaded.identityWasNormalized then pure loaded.index
  else do
    let index ← uncontested loaded
    persistVersionIndexByObjectId env index.objectId index
    onlyIf (loaded.persistedObjectId != index.objectId)
      (deleteVersionIndexByObjectId loaded.persistedObjectId)
    return index

def preferredRecord (index : FileVersionIndex) : Option FileVersionRecord :=
  index.preferredHeadVersionId.bind index.versions.get

def CurrentState.unresolvedBindings (current : CurrentState) : List (String × String) :=
  current.objects.entries.filter fun binding => (current.existingObjectId binding.1).isNone

def LegacyObjectIdCandidate.outranks (candidate existing : LegacyObjectIdCandidate) : Bool :=
  existing.priority < candidate.priority ||
    (existing.priority == candidate.priority &&
      (existing.createdAtUnix < candidate.createdAtUnix ||
        (existing.createdAtUnix == candidate.createdAtUnix &&
          existing.objectId < candidate.objectId)))

def updateLegacyObjectIdCandidate (candidates_by_binding : Candidates) (path manifest_hash : String)
    (candidate : LegacyObjectIdCandidate) : Candidates :=
  if (candidates_by_binding.get (path, manifest_hash)).all candidate.outranks then
    candidates_by_binding.put (path, manifest_hash) candidate
  else candidates_by_binding

-- The source remembers the answer for each hash; the manifests do not change under the scan.
def Surroundings.manifestPath (env : Surroundings) (manifest_hash : String) : Option String :=
  match loadManifestByHash env.codec env.content manifest_hash with
  | .ok manifest => manifest.map fun manifest => manifest.key
  | .error _ => none

def considerRecord (env : Surroundings) (unresolved_bindings : List (String × String))
    (index : FileVersionIndex) (candidates_by_binding : Candidates) (record : FileVersionRecord) :
    Candidates :=
  let is_preferred_head := index.preferredHeadVersionId = some record.versionId
  let direct_path := record.logicalPath.filter fun path =>
    decide ((path, record.manifestHash) ∈ unresolved_bindings)
  if record.manifestHash = tombstoneManifestHash then candidates_by_binding
  else match direct_path with
    | some path =>
      updateLegacyObjectIdCandidate candidates_by_binding path record.manifestHash
        ⟨index.objectId, if is_preferred_head then 4 else 3, record.createdAtUnix⟩
    | none =>
      if record.manifestHash ∉ unresolved_bindings.map Prod.snd then candidates_by_binding
      else match env.manifestPath record.manifestHash with
        | none => candidates_by_binding
        | some path =>
          if (path, record.manifestHash) ∈ unresolved_bindings then
            updateLegacyObjectIdCandidate candidates_by_binding path record.manifestHash
              ⟨index.objectId, if is_preferred_head then 2 else 1, record.createdAtUnix⟩
          else candidates_by_binding

def scanIndex (env : Surroundings) (unresolved_bindings : List (String × String))
    (candidates_by_binding : Candidates) (loaded : LoadedIndex) : LegacyM Candidates := do
  let index ← repairNormalizedVersionIndexIdentity env loaded
  -- A deleted lineage says nothing about a live path.
  if (preferredRecord index).any fun record => record.manifestHash = tombstoneManifestHash then
    return candidates_by_binding
  else
    return index.versions.values.foldl (considerRecord env unresolved_bindings index)
      candidates_by_binding

def scanVersionIndexes (env : Surroundings) (unresolved_bindings : List (String × String)) :
    Nat → Option String → Candidates → LegacyM Candidates
  | 0, _, _ => throw .outOfFuel
  | pages + 1, after_object_id, candidates_by_binding => do
    let s ← get
    let indexes := s.loadVersionIndexesAfter after_object_id objectIdMigrationVersionIndexBatchSize
    match indexes.getLast? with
    | none => return candidates_by_binding
    | some last => do
      let candidates_by_binding ← foldEach indexes candidates_by_binding
        (scanIndex env unresolved_bindings)
      scanVersionIndexes env unresolved_bindings pages (some last.persistedObjectId)
        candidates_by_binding

-- A repaired row may be met again further on, so a row costs at most two pages.
def legacyObjectIdCandidatesForCurrentState (env : Surroundings) (current : CurrentState) :
    LegacyM (Table String LegacyObjectIdCandidate) :=
  if current.unresolvedBindings = [] then pure Table.empty
  else do
    let s ← get
    let candidates_by_binding ← scanVersionIndexes env current.unresolvedBindings
      (2 * s.indexes.size + 1) none Table.empty
    return candidates_by_binding.entries.foldl
      (fun candidates row => candidates.put row.1.1 row.2) Table.empty

def CurrentState.currentObjects (current : CurrentState) : List (String × String) :=
  current.objects.entries.insertionSort fun left right => left.1 ≤ right.1

def CurrentState.groupPath (current : CurrentState) (groups : Table String (List String))
    (row : String × String) : Table String (List String) :=
  match current.existingObjectId row.1 with
  | none => groups
  | some object_id => groups.put object_id ((groups.get object_id).getD [] ++ [row.1])

def CurrentState.pathsByExistingObjectId (current : CurrentState) : Table String (List String) :=
  current.currentObjects.foldl current.groupPath Table.empty

/-- The path that keeps an id: the one that the preferred version names, or the first. -/
def keptPath (s : LegacyStore) (object_id : String) (paths : List String) : String :=
  let sorted := paths.insertionSort (· ≤ ·)
  let preferred_path :=
    if 1 < sorted.length then
      ((s.loadVersionIndex object_id).bind fun loaded =>
        (preferredRecord loaded.index).bind fun record => record.logicalPath).filter
          fun path => decide (path ∈ sorted)
    else none
  preferred_path.getD (sorted.headD "")

def claimExisting (s : LegacyStore) (groups : Table String (List String)) (given : Assignments)
    (object_id : String) : Assignments :=
  match groups.get object_id with
  | none => given
  | some paths =>
    { byPath := given.byPath.put (keptPath s object_id paths) ⟨object_id, false⟩
      claimed := insert object_id given.claimed }

def ClaimsBefore (left right : String × LegacyObjectIdCandidate) : Prop :=
  right.2.priority < left.2.priority ∨
    (right.2.priority = left.2.priority ∧
      (right.2.createdAtUnix < left.2.createdAtUnix ∨
        (right.2.createdAtUnix = left.2.createdAtUnix ∧ left.1 ≤ right.1)))

instance : DecidableRel ClaimsBefore := fun left right => by
  unfold ClaimsBefore
  exact inferInstance

def claimCandidate (given : Assignments) (row : String × LegacyObjectIdCandidate) : Assignments :=
  if given.byPath.has row.1 ∨ row.2.objectId ∈ given.claimed then given
  else
    { byPath := given.byPath.put row.1 ⟨row.2.objectId, true⟩
      claimed := insert row.2.objectId given.claimed }

def assignedBefore (s : LegacyStore) (current : CurrentState)
    (legacy_candidates : Table String LegacyObjectIdCandidate) : Assignments :=
  let groups := current.pathsByExistingObjectId
  (legacy_candidates.entries.insertionSort ClaimsBefore).foldl claimCandidate
    (groups.sortedKeys.foldl (claimExisting s groups) ⟨Table.empty, ∅⟩)

def migratedVersion (version_id object_id path manifest_hash : String) (created_at_unix : Nat)
    (index : FileVersionIndex) : FileVersionIndex :=
  (index.insertRecord
    { versionId := version_id
      objectId := object_id
      manifestHash := manifest_hash
      logicalPath := some path
      parentVersionIds := index.preferredHeadVersionId.toList
      state := .confirmed
      createdAtUnix := created_at_unix
      copiedFromObjectId := none
      copiedFromVersionId := none
      copiedFromPath := none }).recomputed

def ensureMigratedObjectVersion (env : Surroundings) (object_id path manifest_hash : String)
    (created_at_unix : Nat) : LegacyM Unit := do
  let s ← get
  let index := ((s.loadVersionIndex object_id).map fun loaded => loaded.index).getD
    (emptyVersionIndex object_id)
  if (preferredRecord index).any fun record => record.manifestHash = manifest_hash then
    persistVersionIndexByObjectId env object_id index
  else do
    let uuid ← nowV7
    persistVersionIndexByObjectId env object_id
      (migratedVersion ("migration-" ++ uuid) object_id path manifest_hash created_at_unix index)

/-- The assignment of a path. The source takes it out of the map; no path is met twice. -/
def assignmentFor (given : Assignments) (path : String) :
    LegacyM (ObjectIdMigrationAssignment × Assignments) :=
  match given.byPath.get path with
  | some assignment => pure (assignment, given)
  | none => do
    let object_id ← generateUnclaimedObjectId given.claimed (given.claimed.card + 1)
    return (⟨object_id, true⟩, ⟨given.byPath.put path ⟨object_id, true⟩,
      insert object_id given.claimed⟩)

def needsBackfill (s : LegacyStore) (assignment : ObjectIdMigrationAssignment) : Bool :=
  assignment.needsVersionBackfill ||
    (s.loadVersionIndex assignment.objectId).all fun loaded => loaded.identityWasNormalized

def backfillVersion (env : Surroundings) (assignment : ObjectIdMigrationAssignment)
    (path manifest_hash : String) : LegacyM Unit := do
  let s ← get
  onlyIf (needsBackfill s assignment) do
    let now ← unixTs
    ensureMigratedObjectVersion env assignment.objectId path manifest_hash now

def migratePath (env : Surroundings) (current : CurrentState) (given : Assignments)
    (row : String × String) : LegacyM Assignments := do
  let (assignment, given) ← assignmentFor given row.1
  backfillVersion env assignment row.1 row.2
  onlyIf (current.objectIds.get row.1 != some assignment.objectId)
    (upsertCurrentObject row.1 ⟨row.2, assignment.objectId⟩)
  return given

def migrateLegacyObjectIds (env : Surroundings) : LegacyM Unit := do
  let s ← get
  if s.backfillComplete then return ()
  else if currentStateHasUniqueObjectIdBindings s.current then markObjectIdBackfillComplete
  else do
    let legacy_candidates ← legacyObjectIdCandidatesForCurrentState env s.current
    let scanned ← get
    let _ ← foldEach s.current.currentObjects (assignedBefore scanned s.current legacy_candidates)
      (migratePath env s.current)
    markObjectIdBackfillComplete

section Identity

def Sound (index : FileVersionIndex) : Prop :=
  validateVersionIndexIdentity index.objectId index = .ok ()

theorem canonical_solid (persisted_object_id : String) (row : StoredIndex) :
    isBlank (canonicalObjectId persisted_object_id row) = false := by
  unfold canonicalObjectId
  split
  · split
    · unfold isBlank
      rw [String.toList_append]
      simp [isWhitespace]
    · next solid => simpa using solid
  · next solid => simpa using solid

variable {object_id : String}

theorem withIdentity_sound (index : FileVersionIndex)
    (solid : isBlank object_id = false) : Sound (withIdentity index object_id) := by
  apply validate_ok_iff.mpr
  refine ⟨solid, rfl, ?_⟩
  intro id record stored
  change (index.versions.mapValues _).get id = some record at stored
  rw [get_mapValues] at stored
  obtain ⟨old, _, rfl⟩ := Option.map_eq_some_iff.mp stored
  rfl

theorem decoded_sound (object_id : String) (row : StoredIndex) :
    Sound (decodeVersionIndex object_id row).index :=
  withIdentity_sound row.index (canonical_solid object_id row)

theorem decoded_unchanged {index : FileVersionIndex} (hash : String)
    (valid : validateVersionIndexIdentity object_id index = .ok ()) :
    (decodeVersionIndex object_id ⟨index, hash⟩).identityWasNormalized = false := by
  obtain ⟨solid, named, records⟩ := validate_ok_iff.mp valid
  have canonical : canonicalObjectId object_id ⟨index, hash⟩ = object_id := by
    simp [canonicalObjectId, solid]
  unfold decodeVersionIndex
  rw [canonical]
  simp only [solid, named, bne_self_eq_false, Bool.false_or, List.any_eq_false, Bool.or_eq_true,
    bne_iff_ne, ne_eq, not_or, not_not]
  intro record listed
  obtain ⟨id, stored⟩ := (mem_values _ _).mp listed
  have same := records id record stored
  rw [same]
  exact ⟨by simp [solid], rfl⟩

theorem loaded_sound {s : LegacyStore} {loaded : LoadedIndex}
    (found : s.loadVersionIndex object_id = some loaded) : Sound loaded.index := by
  obtain ⟨row, _, rfl⟩ := Option.map_eq_some_iff.mp found
  exact decoded_sound object_id row

theorem loaded_objectId {s : LegacyStore} {loaded : LoadedIndex}
    (solid : isBlank object_id = false) (found : s.loadVersionIndex object_id = some loaded) :
    loaded.index.objectId = object_id := by
  obtain ⟨row, _, rfl⟩ := Option.map_eq_some_iff.mp found
  change canonicalObjectId object_id row = object_id
  simp [canonicalObjectId, solid]

end Identity

structure IndexesOnly (s t : LegacyStore) : Prop where
  current : t.current = s.current
  marker : t.backfillComplete = s.backfillComplete
  uuids : ∃ drawn, t.uuids = fun n => s.uuids (n + drawn)

theorem indexesOnly_refl (s : LegacyStore) : IndexesOnly s s := ⟨rfl, rfl, 0, rfl⟩

theorem indexesOnly_trans {s t u : LegacyStore} (first : IndexesOnly s t)
    (second : IndexesOnly t u) : IndexesOnly s u := by
  obtain ⟨before, drawn_before⟩ := first.uuids
  obtain ⟨after, drawn_after⟩ := second.uuids
  refine ⟨second.current.trans first.current, second.marker.trans first.marker,
    after + before, ?_⟩
  rw [drawn_after, drawn_before]
  funext n
  exact congrArg s.uuids (Nat.add_assoc n after before)

theorem IndexesOnly.fresh {s t : LegacyStore} (step : IndexesOnly s t)
    (fresh : Function.Injective s.uuids) : Function.Injective t.uuids := by
  obtain ⟨drawn, later⟩ := step.uuids
  rw [later]
  intro m n same
  have shifted := fresh same
  omega

section Scan

/-- How much a stored row can still cost the scan: a row that will be repaired may be met twice. -/
def rowCost (object_id : String) : Option StoredIndex → Nat
  | none => 0
  | some row => if (decodeVersionIndex object_id row).identityWasNormalized then 2 else 1

def pending (indexes : Table String StoredIndex) (after_object_id : Option String) : Nat :=
  ∑ id ∈ indexes.keys.toFinset.filter (fun id => ahead after_object_id id = true),
    rowCost id (indexes.get id)

theorem rowCost_le (object_id : String) (row : Option StoredIndex) : rowCost object_id row ≤ 2 := by
  unfold rowCost
  split
  · omega
  · split <;> omega

variable (indexes : Table String StoredIndex)

theorem pending_le (after_object_id : Option String) :
    pending indexes after_object_id ≤ 2 * indexes.size := by
  have bounded := Finset.sum_le_card_nsmul
    (indexes.keys.toFinset.filter fun id => ahead after_object_id id = true)
    (fun id => rowCost id (indexes.get id)) 2 fun id _ => rowCost_le id _
  have fewer := Finset.card_filter_le indexes.keys.toFinset
    fun id => ahead after_object_id id = true
  have listed := indexes.keys.toFinset_card_le
  rw [Nat.nsmul_eq_mul] at bounded
  unfold pending Table.size
  omega

theorem pending_del (object_id : String) (after_object_id : Option String) :
    pending (indexes.del object_id) after_object_id ≤ pending indexes after_object_id := by
  unfold pending
  calc ∑ id ∈ (indexes.del object_id).keys.toFinset.filter
          (fun id => ahead after_object_id id = true), rowCost id ((indexes.del object_id).get id)
      ≤ ∑ id ∈ (indexes.del object_id).keys.toFinset.filter
          (fun id => ahead after_object_id id = true), rowCost id (indexes.get id) := by
        apply Finset.sum_le_sum
        intro id _
        rw [get_del]
        split
        · exact Nat.zero_le _
        · exact Nat.le_refl _
    _ ≤ _ := by
        apply Finset.sum_le_sum_of_subset
        apply Finset.filter_subset_filter
        intro id listed
        rw [List.mem_toFinset, mem_keys] at listed ⊢
        obtain ⟨row, stored⟩ := listed
        exact ⟨row, (get_del_some stored).2⟩

theorem pending_put (object_id : String) (row : StoredIndex)
    (after_object_id : Option String) : pending (indexes.put object_id row) after_object_id ≤
      pending indexes after_object_id + rowCost object_id (some row) := by
  have covered : (indexes.put object_id row).keys.toFinset.filter
      (fun id => ahead after_object_id id = true) ⊆
      insert object_id (indexes.keys.toFinset.filter fun id => ahead after_object_id id = true) := by
    intro id listed
    rw [Finset.mem_filter, List.mem_toFinset, mem_keys] at listed
    obtain ⟨⟨found, stored⟩, further⟩ := listed
    rw [get_put] at stored
    split at stored
    · next same => exact Finset.mem_insert.mpr (.inl same)
    · refine Finset.mem_insert_of_mem (Finset.mem_filter.mpr ⟨?_, further⟩)
      exact List.mem_toFinset.mpr ((mem_keys _ _).mpr ⟨found, stored⟩)
  unfold pending
  refine (Finset.sum_le_sum_of_subset covered).trans ?_
  rw [← Finset.add_sum_erase _ _ (Finset.mem_insert_self object_id _), get_put_self,
    Finset.erase_insert_eq_erase, Nat.add_comm]
  apply Nat.add_le_add_right
  calc ∑ id ∈ (indexes.keys.toFinset.filter
          fun id => ahead after_object_id id = true).erase object_id,
          rowCost id ((indexes.put object_id row).get id)
      = ∑ id ∈ (indexes.keys.toFinset.filter
          fun id => ahead after_object_id id = true).erase object_id,
          rowCost id (indexes.get id) := by
        apply Finset.sum_congr rfl
        intro id other
        rw [get_put_other _ _ (Finset.ne_of_mem_erase other)]
    _ ≤ _ := Finset.sum_le_sum_of_subset (Finset.erase_subset _ _)

def loadedCost (loaded : LoadedIndex) : Nat := if loaded.identityWasNormalized then 2 else 1

theorem page_stored {s : LegacyStore} {after_object_id : Option String} {limit : Nat}
    {object_id : String} (listed : object_id ∈ s.pageAfter after_object_id limit) :
    ahead after_object_id object_id = true ∧ ∃ row, s.indexes.get object_id = some row := by
  have kept := List.mem_filter.mp (List.mem_of_mem_take listed)
  exact ⟨kept.2, (mem_sortedKeys _ _).mp kept.1⟩

variable (s : LegacyStore)

theorem page_ascending (after_object_id : Option String) (limit : Nat) :
    (s.pageAfter after_object_id limit).Pairwise (· < ·) := by
  have sorted : s.indexes.sortedKeys.Pairwise (· < ·) :=
    (List.pairwise_insertionSort (· ≤ ·) s.indexes.keys).imp₂
      (fun _ _ below differ => lt_of_le_of_ne below differ) (sortedKeys_nodup s.indexes)
  exact (sorted.filter _).sublist (List.take_sublist _ _)

theorem loaded_of_rows (ids : List String)
    (stored : ∀ id ∈ ids, ∃ row, s.indexes.get id = some row) :
    (ids.filterMap s.loadVersionIndex).map LoadedIndex.persistedObjectId = ids ∧
      (ids.filterMap s.loadVersionIndex).map loadedCost =
        ids.map fun id => rowCost id (s.indexes.get id) := by
  induction ids with
  | nil => exact ⟨rfl, rfl⟩
  | cons id ids ih =>
    obtain ⟨row, found⟩ := stored id List.mem_cons_self
    have here : s.loadVersionIndex id = some (decodeVersionIndex id row) := by
      rw [LegacyStore.loadVersionIndex, found, Option.map_some]
    obtain ⟨names, costs⟩ := ih fun other listed => stored other (List.mem_cons_of_mem _ listed)
    simp only [List.filterMap_cons, here, List.map_cons, found]
    rw [names, costs]
    exact ⟨rfl, rfl⟩

theorem pending_page (after_object_id : Option String) (limit : Nat)
    {last : String} (final : (s.pageAfter after_object_id limit).getLast? = some last) :
    pending s.indexes (some last) +
      ((s.pageAfter after_object_id limit).map fun id => rowCost id (s.indexes.get id)).sum ≤
        pending s.indexes after_object_id := by
  have ascending := page_ascending s after_object_id limit
  have last_listed := List.mem_of_getLast? final
  rw [← List.sum_toFinset _ ascending.nodup]
  unfold pending
  rw [← Finset.sum_union]
  · apply Finset.sum_le_sum_of_subset
    intro id member
    rw [Finset.mem_filter, List.mem_toFinset, mem_keys]
    rcases Finset.mem_union.mp member with later | here
    · obtain ⟨listed, beyond⟩ := Finset.mem_filter.mp later
      rw [List.mem_toFinset, mem_keys] at listed
      refine ⟨listed, ?_⟩
      have reached := (page_stored last_listed).1
      cases after_object_id with
      | none => rfl
      | some cursor =>
        simp only [ahead, Option.all_some, decide_eq_true_eq] at beyond reached ⊢
        exact lt_trans reached beyond
    · have facts := page_stored (List.mem_toFinset.mp here)
      exact ⟨facts.2, facts.1⟩
  · rw [Finset.disjoint_left]
    intro id later here
    have beyond := (Finset.mem_filter.mp later).2
    simp only [ahead, Option.all_some, decide_eq_true_eq] at beyond
    have upto : id ≤ last := by
      obtain ⟨front, shape⟩ := List.getLast?_eq_some_iff.mp final
      rw [List.mem_toFinset, shape, List.mem_append, List.mem_singleton] at here
      rcases here with earlier | same
      · rw [shape, List.pairwise_append] at ascending
        exact le_of_lt (ascending.2.2 id earlier last (List.mem_singleton.mpr rfl))
      · exact le_of_eq same
    exact absurd beyond (not_lt_of_ge upto)

theorem generate_completes :
    Completes generateObjectId s fun object_id t =>
      IndexesOnly s t ∧ isBlank object_id = false ∧ t.indexes = s.indexes :=
  ⟨_, _, rfl, ⟨rfl, rfl, 1, rfl⟩, generated_not_blank _, rfl⟩

variable (env : Surroundings)

theorem persist_completes {object_id : String} {index : FileVersionIndex}
    (s : LegacyStore) (valid : validateVersionIndexIdentity object_id index = .ok ()) :
    Completes (persistVersionIndexByObjectId env object_id index) s fun _ t =>
      IndexesOnly s t ∧ t.indexes = s.indexes.put object_id ⟨index, env.indexHash index⟩ := by
  refine ⟨(), { s with indexes := s.indexes.put object_id ⟨index, env.indexHash index⟩ }, ?_,
    ⟨rfl, rfl, 0, rfl⟩, rfl⟩
  unfold persistVersionIndexByObjectId
  rw [valid]
  rfl

variable {loaded : LoadedIndex}

theorem uncontested_completes
    (sound : Sound loaded.index) : Completes (uncontested loaded) s fun index t =>
      IndexesOnly s t ∧ Sound index ∧ t.indexes = s.indexes := by
  apply completes_get
  split
  · refine completes_bind (generate_completes _) fun object_id u generated => ?_
    exact completes_pure ⟨generated.1, withIdentity_sound _ generated.2.1, generated.2.2⟩
  · exact completes_pure ⟨indexesOnly_refl _, sound, rfl⟩

theorem repair_completes (s : LegacyStore) (sound : Sound loaded.index) :
    Completes (repairNormalizedVersionIndexIdentity env loaded) s fun index t =>
      IndexesOnly s t ∧ Sound index ∧ ∀ after_object_id,
        pending t.indexes after_object_id + 1 ≤
          pending s.indexes after_object_id + loadedCost loaded := by
  unfold repairNormalizedVersionIndexIdentity loadedCost
  cases normalized : loaded.identityWasNormalized with
  | false => exact completes_pure ⟨indexesOnly_refl s, sound, fun _ => Nat.le_refl _⟩
  | true =>
    refine completes_bind (uncontested_completes s sound) ?_
    rintro index t ⟨chosen, index_sound, unchanged⟩
    refine completes_bind (persist_completes env t index_sound) ?_
    rintro _ u ⟨stored, rows⟩
    have cost : rowCost index.objectId (some ⟨index, env.indexHash index⟩) = 1 := by
      simp [rowCost, decoded_unchanged _ index_sound]
    have grown : ∀ after_object_id, pending u.indexes after_object_id ≤
        pending s.indexes after_object_id + 1 := by
      intro after_object_id
      have put := pending_put t.indexes index.objectId ⟨index, env.indexHash index⟩ after_object_id
      rw [cost, unchanged] at put
      rw [rows, unchanged]
      exact put
    have kept := indexesOnly_trans chosen stored
    have removed : Completes (onlyIf (loaded.persistedObjectId != index.objectId)
        (deleteVersionIndexByObjectId loaded.persistedObjectId)) u fun _ v =>
        IndexesOnly u v ∧ ∀ after_object_id,
          pending v.indexes after_object_id ≤ pending u.indexes after_object_id := by
      apply completes_onlyIf
      · intro _
        exact ⟨(), _, rfl, ⟨rfl, rfl, 0, rfl⟩, fun after_object_id => pending_del _ _ _⟩
      · intro _
        exact ⟨indexesOnly_refl u, fun _ => Nat.le_refl _⟩
    refine completes_bind removed ?_
    rintro _ v ⟨deleted, fewer⟩
    refine completes_pure ⟨indexesOnly_trans kept deleted, index_sound, ?_⟩
    intro after_object_id
    have first := grown after_object_id
    have second := fewer after_object_id
    simp only [↓reduceIte]
    omega

def Proposes (candidates : Candidates) : Prop :=
  ∀ binding candidate, candidates.get binding = some candidate →
    isBlank candidate.objectId = false

variable {candidates : Candidates}

theorem update_proposes {candidate : LegacyObjectIdCandidate}
    (path manifest_hash : String) (proposes : Proposes candidates)
    (solid : isBlank candidate.objectId = false) :
    Proposes (updateLegacyObjectIdCandidate candidates path manifest_hash candidate) := by
  unfold updateLegacyObjectIdCandidate
  split
  · intro binding found stored
    rcases get_put_some stored with ⟨-, rfl⟩ | ⟨-, stored⟩
    · exact solid
    · exact proposes binding found stored
  · exact proposes

variable (unresolved_bindings : List (String × String))

theorem consider_proposes {index : FileVersionIndex} (record : FileVersionRecord)
    (solid : isBlank index.objectId = false) (proposes : Proposes candidates) :
    Proposes (considerRecord env unresolved_bindings index candidates record) := by
  unfold considerRecord
  dsimp only
  split
  · exact proposes
  · split
    · exact update_proposes _ _ proposes solid
    · split
      · exact proposes
      · split
        · exact proposes
        · split
          · exact update_proposes _ _ proposes solid
          · exact proposes

theorem scanIndex_completes
    (s : LegacyStore) (sound : Sound loaded.index) (proposes : Proposes candidates) :
    Completes (scanIndex env unresolved_bindings candidates loaded) s fun found t =>
      IndexesOnly s t ∧ Proposes found ∧ ∀ after_object_id,
        pending t.indexes after_object_id + 1 ≤
          pending s.indexes after_object_id + loadedCost loaded := by
  refine completes_bind (repair_completes env s sound) ?_
  rintro index t ⟨kept, index_sound, cost⟩
  have solid := (validate_ok_iff.mp index_sound).1
  split
  · exact completes_pure ⟨kept, proposes, cost⟩
  · refine completes_pure ⟨kept, ?_, cost⟩
    exact foldl_invariant (fun _ found => Proposes found)
      (fun _ record _ before => consider_proposes env unresolved_bindings record solid before) _ proposes

theorem scanPage_completes {indexes : List LoadedIndex} (s : LegacyStore)
    (sound : ∀ loaded ∈ indexes, Sound loaded.index)
    (proposes : Proposes candidates) :
    Completes (foldEach indexes candidates (scanIndex env unresolved_bindings)) s fun found t =>
      IndexesOnly s t ∧ Proposes found ∧ ∀ after_object_id,
        pending t.indexes after_object_id + indexes.length ≤
          pending s.indexes after_object_id + (indexes.map loadedCost).sum := by
  refine completes_foldEach (fun done found t =>
    IndexesOnly s t ∧ Proposes found ∧ ∀ after_object_id,
      pending t.indexes after_object_id + done.length ≤
        pending s.indexes after_object_id + (done.map loadedCost).sum) indexes [] candidates s ?_
    ⟨indexesOnly_refl s, proposes, fun _ => Nat.le_refl _⟩
  rintro before loaded after found t shape ⟨kept, found_proposes, cost⟩
  have listed : loaded ∈ indexes := by
    rw [List.nil_append] at shape
    rw [shape]
    exact List.mem_append_right _ List.mem_cons_self
  refine completes_mono (scanIndex_completes env unresolved_bindings t (sound loaded listed) found_proposes) ?_
  rintro next u ⟨step, next_proposes, step_cost⟩
  refine ⟨indexesOnly_trans kept step, next_proposes, ?_⟩
  intro after_object_id
  have so_far := cost after_object_id
  have here := step_cost after_object_id
  simp only [List.length_append, List.length_singleton, List.map_append, List.map_cons,
    List.map_nil, List.sum_append, List.sum_cons, List.sum_nil]
  omega

/-- The scan ends within the pages it is given: each page leaves less to do than it found. -/
theorem scan_completes (pages : Nat) : ∀ (after_object_id : Option String) (candidates : Candidates)
      (s : LegacyStore), pending s.indexes after_object_id < pages →
      Proposes candidates →
      Completes (scanVersionIndexes env unresolved_bindings pages after_object_id candidates) s
        fun found t => IndexesOnly s t ∧ Proposes found := by
  induction pages with
  | zero =>
    intro after_object_id candidates s enough
    omega
  | succ pages ih =>
    intro after_object_id candidates s enough proposes
    apply completes_get
    have rows := loaded_of_rows s
      (s.pageAfter after_object_id objectIdMigrationVersionIndexBatchSize)
      fun id listed => (page_stored listed).2
    dsimp only
    split
    · exact completes_pure ⟨indexesOnly_refl s, proposes⟩
    · next last final =>
      have sound : ∀ loaded ∈ s.loadVersionIndexesAfter after_object_id
          objectIdMigrationVersionIndexBatchSize, Sound loaded.index := by
        intro loaded listed
        obtain ⟨id, _, found⟩ := List.mem_filterMap.mp listed
        exact loaded_sound found
      refine completes_bind (scanPage_completes env unresolved_bindings s sound proposes) ?_
      rintro found t ⟨kept, found_proposes, cost⟩
      have page_final : (s.pageAfter after_object_id
          objectIdMigrationVersionIndexBatchSize).getLast? = some last.persistedObjectId := by
        rw [← rows.1, List.getLast?_map]
        change Option.map _ (List.getLast? (s.loadVersionIndexesAfter _ _)) = _
        rw [final]
        rfl
      have drop := pending_page s after_object_id _ page_final
      rw [← rows.2] at drop
      have nonempty : 0 < (s.loadVersionIndexesAfter after_object_id
          objectIdMigrationVersionIndexBatchSize).length :=
        List.length_pos_of_mem (List.mem_of_getLast? final)
      have left := cost (some last.persistedObjectId)
      have fewer : pending t.indexes (some last.persistedObjectId) < pages := by
        unfold LegacyStore.loadVersionIndexesAfter at left nonempty
        omega
      refine completes_mono (ih _ found t fewer found_proposes) ?_
      rintro result u ⟨rest, proposed⟩
      exact ⟨indexesOnly_trans kept rest, proposed⟩

theorem candidates_complete (current : CurrentState) (s : LegacyStore) :
    Completes (legacyObjectIdCandidatesForCurrentState env current) s fun candidates t =>
      IndexesOnly s t ∧ ∀ path candidate, candidates.get path = some candidate →
        isBlank candidate.objectId = false := by
  unfold legacyObjectIdCandidatesForCurrentState
  split
  · refine completes_pure ⟨indexesOnly_refl s, ?_⟩
    intro path candidate found
    cases found
  · apply completes_get
    have start : Proposes Table.empty := by
      intro binding candidate found
      cases found
    have enough := pending_le s.indexes none
    refine completes_bind (scan_completes env current.unresolvedBindings
      (2 * s.indexes.size + 1) none Table.empty s (by omega) start) ?_
    rintro found t ⟨kept, proposes⟩
    refine completes_pure ⟨kept, ?_⟩
    -- The table by path holds rows of the table by binding only.
    have copied := foldl_invariant
      (f := fun (candidates : Table String LegacyObjectIdCandidate)
        (row : (String × String) × LegacyObjectIdCandidate) => candidates.put row.1.1 row.2)
      (fun done candidates => ∀ path candidate, candidates.get path = some candidate →
        ∃ row ∈ done, row.1.1 = path ∧ row.2 = candidate)
      (fun done row candidates before path candidate stored => by
        rcases get_put_some stored with ⟨same, rfl⟩ | ⟨-, stored⟩
        · exact ⟨row, by simp, same.symm, rfl⟩
        · obtain ⟨earlier, listed, facts⟩ := before path candidate stored
          exact ⟨earlier, List.mem_append_left _ listed, facts⟩)
      found.entries (b := Table.empty) (by intro path candidate stored; cases stored)
    intro path candidate stored
    obtain ⟨⟨binding, proposed⟩, listed, rfl, rfl⟩ := copied path candidate stored
    exact proposes binding proposed ((mem_entries _ _ _).mp listed)

end Scan

section Claims

def CurrentState.Holds (current : CurrentState) (path object_id : String) : Prop :=
  (∃ manifest_hash, current.objects.get path = some manifest_hash) ∧
    current.existingObjectId path = some object_id

theorem mem_currentObjects (current : CurrentState) (path manifest_hash : String) :
    (path, manifest_hash) ∈ current.currentObjects ↔
      current.objects.get path = some manifest_hash := by
  unfold CurrentState.currentObjects
  rw [List.mem_insertionSort]
  exact mem_entries _ _ _

theorem currentObjects_nodup (current : CurrentState) :
    (current.currentObjects.map Prod.fst).Nodup := by
  have perm := (List.perm_insertionSort (fun left right : String × String => left.1 ≤ right.1)
    current.objects.entries).map Prod.fst
  unfold CurrentState.currentObjects
  rw [perm.nodup_iff, entries_keys]
  exact keys_nodup _

variable {current : CurrentState}

theorem holders_unchanged {object_id : String} {row : String × String}
    (other : current.existingObjectId row.1 ≠ some object_id) (done : List (String × String))
    (path : String) :
    path ∈ (done ++ [row]).map Prod.fst ∧ current.existingObjectId path = some object_id ↔
      path ∈ done.map Prod.fst ∧ current.existingObjectId path = some object_id := by
  rw [List.map_append, List.mem_append, List.map_singleton, List.mem_singleton]
  constructor
  · rintro ⟨earlier | here, holds⟩
    · exact ⟨earlier, holds⟩
    · rw [here] at holds
      exact absurd holds other
  · intro earlier
    exact ⟨.inl earlier.1, earlier.2⟩

theorem group_exact (current : CurrentState) (object_id : String) :
    (∀ path, path ∈ (current.pathsByExistingObjectId.get object_id).getD [] ↔
        current.Holds path object_id) ∧
      current.pathsByExistingObjectId.get object_id ≠ some [] := by
  have grouped := foldl_invariant (f := current.groupPath)
    (fun done groups =>
      (∀ path, path ∈ (groups.get object_id).getD [] ↔
        path ∈ done.map Prod.fst ∧ current.existingObjectId path = some object_id) ∧
      groups.get object_id ≠ some [])
    (fun done row groups before => by
      unfold CurrentState.groupPath
      cases held : current.existingObjectId row.1 with
      | none =>
        have other : current.existingObjectId row.1 ≠ some object_id := by rw [held]; simp
        refine ⟨fun path => ?_, before.2⟩
        rw [before.1 path, holders_unchanged other]
      | some id =>
        dsimp only
        rw [get_put]
        split
        · next same =>
          subst same
          constructor
          · intro path
            rw [Option.getD_some, List.mem_append, before.1 path, List.map_append, List.mem_append,
              List.map_singleton, List.mem_singleton]
            constructor
            · rintro (earlier | rfl)
              · exact ⟨.inl earlier.1, earlier.2⟩
              · exact ⟨.inr rfl, held⟩
            · rintro ⟨earlier | here, holds⟩
              · exact .inl ⟨earlier, holds⟩
              · exact .inr here
          · simp
        · next differs =>
          have other : current.existingObjectId row.1 ≠ some object_id := by
            rw [held]
            intro same
            exact differs (Option.some.inj same).symm
          refine ⟨fun path => ?_, before.2⟩
          rw [before.1 path, holders_unchanged other])
    current.currentObjects (b := Table.empty) ⟨by simp, by simp⟩
  refine ⟨fun path => ?_, grouped.2⟩
  have listed : path ∈ current.currentObjects.map Prod.fst ↔
      ∃ manifest_hash, current.objects.get path = some manifest_hash := by
    simp only [List.mem_map, Prod.exists, exists_and_right, exists_eq_right, mem_currentObjects]
  unfold CurrentState.pathsByExistingObjectId CurrentState.Holds
  rw [grouped.1 path, listed]

variable (s : LegacyStore)

theorem keptPath_mem (object_id : String) {paths : List String}
    (nonempty : paths ≠ []) : keptPath s object_id paths ∈ paths := by
  have first : (paths.insertionSort (· ≤ ·)).headD "" ∈ paths := by
    have perm := List.perm_insertionSort (· ≤ ·) paths
    cases shape : paths.insertionSort (· ≤ ·) with
    | nil =>
      rw [shape] at perm
      exact absurd perm.nil_eq.symm nonempty
    | cons path rest =>
      rw [shape] at perm
      exact perm.subset List.mem_cons_self
  unfold keptPath
  dsimp only
  split
  · cases preferred : Option.filter _ _ with
    | none => exact first
    | some path =>
      have listed := of_decide_eq_true (Option.filter_eq_some_iff.mp preferred).2
      exact (List.mem_insertionSort _).mp listed
  · exact first

structure Distributed (given : Assignments) : Prop where
  claimed : ∀ path assignment, given.byPath.get path = some assignment →
    assignment.objectId ∈ given.claimed ∧ isBlank assignment.objectId = false
  apart : ∀ p q a b, given.byPath.get p = some a → given.byPath.get q = some b →
    a.objectId = b.objectId → p = q

variable {given : Assignments}

theorem distributed_put (distributed : Distributed given) (path : String)
    {assignment : ObjectIdMigrationAssignment} (unclaimed : assignment.objectId ∉ given.claimed)
    (solid : isBlank assignment.objectId = false) :
    Distributed ⟨given.byPath.put path assignment,
      insert assignment.objectId given.claimed⟩ := by
  constructor
  · intro other found stored
    dsimp only at stored ⊢
    rcases get_put_some stored with ⟨-, rfl⟩ | ⟨-, stored⟩
    · exact ⟨Finset.mem_insert_self _ _, solid⟩
    · obtain ⟨member, fine⟩ := distributed.claimed other found stored
      exact ⟨Finset.mem_insert_of_mem member, fine⟩
  · intro p q a b at_p at_q same
    dsimp only at at_p at_q
    rw [get_put] at at_p at_q
    split at at_p
    · next here =>
      split at at_q
      · next there => exact here.trans there.symm
      · cases at_p
        exact absurd (same ▸ (distributed.claimed q b at_q).1) unclaimed
    · split at at_q
      · cases at_q
        exact absurd (same ▸ (distributed.claimed p a at_p).1) unclaimed
      · exact distributed.apart p q a b at_p at_q same

def Extends (given later : Assignments) : Prop :=
  ∀ path assignment, given.byPath.get path = some assignment →
    later.byPath.get path = some assignment

theorem extends_put {path : String} (unassigned : given.byPath.get path = none)
    (assignment : ObjectIdMigrationAssignment) (claimed : Finset String) :
    Extends given ⟨given.byPath.put path assignment, claimed⟩ := by
  intro other found stored
  rw [get_put_other _ _ fun same => by rw [same, unassigned] at stored; cases stored]
  exact stored

def KeepsExisting (current : CurrentState) (given : Assignments) : Prop :=
  ∀ path object_id, current.Holds path object_id → ∃ keeper, current.Holds keeper object_id ∧
    given.byPath.get keeper = some ⟨object_id, false⟩

theorem KeepsExisting.later {given later : Assignments}
    (keeps : KeepsExisting current given) (further : Extends given later) :
    KeepsExisting current later := by
  intro path object_id holds
  obtain ⟨keeper, keeper_holds, stored⟩ := keeps path object_id holds
  exact ⟨keeper, keeper_holds, further _ _ stored⟩

theorem existing_solid {path object_id : String}
    (held : current.existingObjectId path = some object_id) : isBlank object_id = false := by
  have solid := (Option.filter_eq_some_iff.mp held).2
  simpa using solid

theorem claimExisting_distributes (current : CurrentState) :
    Distributed (current.pathsByExistingObjectId.sortedKeys.foldl
        (claimExisting s current.pathsByExistingObjectId) ⟨Table.empty, ∅⟩) ∧
      KeepsExisting current (current.pathsByExistingObjectId.sortedKeys.foldl
        (claimExisting s current.pathsByExistingObjectId) ⟨Table.empty, ∅⟩) := by
  -- Ids are done one by one; an assignment so far gives a path the id that it holds.
  have loop := foldl_invariant (f := claimExisting s current.pathsByExistingObjectId)
    (fun done given => done.Nodup → Distributed given ∧ (∀ id ∈ given.claimed, id ∈ done) ∧
      (∀ path a, given.byPath.get path = some a → current.Holds path a.objectId) ∧
      ∀ id ∈ done, ∀ paths, current.pathsByExistingObjectId.get id = some paths →
        given.byPath.get (keptPath s id paths) = some ⟨id, false⟩)
    (fun done id given before nodup => by
      obtain ⟨earlier, -, apart⟩ := List.nodup_append.mp nodup
      have new : id ∉ done := fun listed => apart id listed id (List.mem_singleton.mpr rfl) rfl
      obtain ⟨distributed, within, owned, kept⟩ := before earlier
      unfold claimExisting
      cases group : current.pathsByExistingObjectId.get id with
      | none =>
        refine ⟨distributed, fun other member => List.mem_append_left _ (within other member),
          owned, ?_⟩
        intro other listed paths found
        rcases List.mem_append.mp listed with before_here | here
        · exact kept other before_here paths found
        · rw [List.mem_singleton.mp here, group] at found
          cases found
      | some paths =>
        obtain ⟨members, nonempty⟩ := group_exact current id
        rw [group] at members nonempty
        have keeper_holds : current.Holds (keptPath s id paths) id :=
          (members _).mp (keptPath_mem s id fun empty => nonempty (congrArg some empty))
        have unclaimed : id ∉ given.claimed := fun member => new (within id member)
        refine ⟨distributed_put distributed _ unclaimed (existing_solid keeper_holds.2), ?_, ?_, ?_⟩
        · intro other member
          rcases Finset.mem_insert.mp member with rfl | claimed
          · exact List.mem_append_right _ (List.mem_singleton.mpr rfl)
          · exact List.mem_append_left _ (within other claimed)
        · intro path a stored
          dsimp only at stored
          rcases get_put_some stored with ⟨same, rfl⟩ | ⟨-, stored⟩
          · exact same ▸ keeper_holds
          · exact owned path a stored
        · intro other listed found_paths found
          dsimp only
          rw [get_put]
          rcases List.mem_append.mp listed with before_here | here
          · have stored := kept other before_here found_paths found
            split
            · next same =>
              have holds := owned _ _ stored
              rw [same] at holds
              have clash := holds.2.symm.trans keeper_holds.2
              exact absurd (Option.some.inj clash ▸ before_here) new
            · exact stored
          · rw [List.mem_singleton.mp here, group] at found
            cases found
            rw [List.mem_singleton.mp here, if_pos rfl])
    current.pathsByExistingObjectId.sortedKeys (b := ⟨Table.empty, ∅⟩)
    (fun _ => ⟨⟨by simp, by simp⟩, by simp, by simp, by simp⟩)
  obtain ⟨distributed, _, _, kept⟩ := loop (sortedKeys_nodup _)
  refine ⟨distributed, ?_⟩
  intro path object_id holds
  obtain ⟨members, nonempty⟩ := group_exact current object_id
  cases group : current.pathsByExistingObjectId.get object_id with
  | none =>
    have listed := (members path).mpr holds
    rw [group] at listed
    cases listed
  | some paths =>
    rw [group] at members nonempty
    have keeper := keptPath_mem s object_id fun empty => nonempty (congrArg some empty)
    refine ⟨_, (members _).mp keeper, ?_⟩
    exact kept object_id ((mem_sortedKeys _ _).mpr ⟨paths, group⟩) paths group

theorem claimCandidate_step {row : String × LegacyObjectIdCandidate}
    (solid : isBlank row.2.objectId = false) (distributed : Distributed given) :
    Distributed (claimCandidate given row) ∧ Extends given (claimCandidate given row) := by
  unfold claimCandidate
  split
  · exact ⟨distributed, fun _ _ stored => stored⟩
  · next free =>
    obtain ⟨unassigned, unclaimed⟩ := not_or.mp free
    refine ⟨@distributed_put _ distributed row.1 ⟨row.2.objectId, true⟩ unclaimed solid,
      extends_put ?_ _ _⟩
    rw [Option.eq_none_iff_forall_ne_some]
    exact fun assignment stored => unassigned ((has_iff _ _).mpr ⟨assignment, stored⟩)

theorem assignedBefore_distributes (current : CurrentState)
    {legacy_candidates : Table String LegacyObjectIdCandidate}
    (solid : ∀ path candidate, legacy_candidates.get path = some candidate →
      isBlank candidate.objectId = false) :
    Distributed (assignedBefore s current legacy_candidates) ∧
      KeepsExisting current (assignedBefore s current legacy_candidates) := by
  obtain ⟨distributed, kept⟩ := claimExisting_distributes s current
  have loop := foldl_invariant (f := claimCandidate)
    (fun done given => (∀ row ∈ done, isBlank row.2.objectId = false) →
      Distributed given ∧ KeepsExisting current given)
    (fun done row given before fine => by
      obtain ⟨fair, keeps⟩ := before fun other listed => fine other (List.mem_append_left _ listed)
      obtain ⟨next, further⟩ := claimCandidate_step
        (fine row (List.mem_append_right _ (List.mem_singleton.mpr rfl))) fair
      exact ⟨next, keeps.later further⟩)
    (legacy_candidates.entries.insertionSort ClaimsBefore) (fun _ => ⟨distributed, kept⟩)
  apply loop
  intro row listed
  rw [List.mem_insertionSort] at listed
  exact solid row.1 row.2 ((mem_entries _ _ _).mp listed)

end Claims

section Migration

/-- Distinct readings cannot all be claimed: one of the first `claimed.card + 1` is free. -/
theorem unclaimed_drawn {uuids : Nat → String} (fresh : Function.Injective uuids)
    (claimed : Finset String) : ∃ draw < claimed.card + 1, "obj-" ++ uuids draw ∉ claimed := by
  by_contra none_free
  have all_claimed : ∀ draw ∈ Finset.range (claimed.card + 1), "obj-" ++ uuids draw ∈ claimed := by
    intro draw early
    by_contra free
    exact none_free ⟨draw, Finset.mem_range.mp early, free⟩
  have apart : Set.InjOn (fun draw => "obj-" ++ uuids draw) (Finset.range (claimed.card + 1)) := by
    intro m _ n _ same
    have texts := congrArg String.toList same
    simp only [String.toList_append, List.append_cancel_left_eq] at texts
    exact fresh (String.toList_injective texts)
  have counted := Finset.card_le_card_of_injOn _ all_claimed apart
  rw [Finset.card_range] at counted
  omega

theorem generateUnclaimed_completes (claimed : Finset String) (draws : Nat) :
    ∀ s : LegacyStore, (∃ draw < draws, "obj-" ++ s.uuids draw ∉ claimed) →
      Completes (generateUnclaimedObjectId claimed draws) s fun object_id t =>
        IndexesOnly s t ∧ isBlank object_id = false ∧ object_id ∉ claimed := by
  induction draws with
  | zero =>
    rintro s ⟨draw, early, _⟩
    omega
  | succ draws ih =>
    rintro s ⟨draw, early, free⟩
    have drawn : Completes generateObjectId s fun object_id t =>
        object_id = "obj-" ++ s.uuids 0 ∧ IndexesOnly s t ∧ t.uuids = fun n => s.uuids (n + 1) :=
      ⟨_, _, rfl, rfl, ⟨rfl, rfl, 1, rfl⟩, rfl⟩
    refine completes_bind drawn ?_
    rintro object_id t ⟨named, kept, shifted⟩
    split
    · next taken =>
      have later : ∃ draw < draws, "obj-" ++ t.uuids draw ∉ claimed := by
        cases draw with
        | zero => exact absurd (named ▸ taken) free
        | succ draw =>
          rw [shifted]
          exact ⟨draw, by omega, free⟩
      refine completes_mono (ih t later) ?_
      rintro other u ⟨rest, facts⟩
      exact ⟨indexesOnly_trans kept rest, facts⟩
    · next unclaimed =>
      refine completes_pure ⟨kept, ?_, unclaimed⟩
      rw [named]
      exact generated_not_blank _

variable {given : Assignments}

theorem assignmentFor_completes (path : String) (s : LegacyStore)
    (fresh : Function.Injective s.uuids) (distributed : Distributed given) :
    Completes (assignmentFor given path) s fun result t =>
      IndexesOnly s t ∧ Distributed result.2 ∧ Extends given result.2 ∧
        result.2.byPath.get path = some result.1 := by
  unfold assignmentFor
  split
  · next assignment stored =>
    exact completes_pure ⟨indexesOnly_refl s, distributed, fun _ _ same => same, stored⟩
  · next unassigned =>
    refine completes_bind (generateUnclaimed_completes _ _ s
      (unclaimed_drawn fresh given.claimed)) ?_
    rintro object_id t ⟨kept, solid, unclaimed⟩
    exact completes_pure ⟨kept, @distributed_put _ distributed path
      ⟨object_id, true⟩ unclaimed solid, extends_put unassigned _ _, get_put_self _ _ _⟩

variable (env : Surroundings)

theorem ensureMigrated_completes {object_id : String}
    (path manifest_hash : String) (created_at_unix : Nat) (s : LegacyStore)
    (solid : isBlank object_id = false) :
    Completes (ensureMigratedObjectVersion env object_id path manifest_hash created_at_unix) s
      fun _ t => IndexesOnly s t := by
  have valid : validateVersionIndexIdentity object_id
      (((s.loadVersionIndex object_id).map fun loaded => loaded.index).getD
        (emptyVersionIndex object_id)) = .ok () := by
    cases found : s.loadVersionIndex object_id with
    | none =>
      apply validate_ok_iff.mpr
      refine ⟨solid, rfl, ?_⟩
      intro id record stored
      cases stored
    | some loaded =>
      have sound := loaded_sound found
      unfold Sound at sound
      rw [loaded_objectId solid found] at sound
      exact sound
  apply completes_get
  dsimp only
  split
  · exact completes_mono (persist_completes env s valid) fun _ _ facts => facts.1
  · have drawn : Completes nowV7 s fun _ t => IndexesOnly s t := ⟨_, _, rfl, rfl, rfl, 1, rfl⟩
    refine completes_bind drawn fun uuid t kept => ?_
    have extended : validateVersionIndexIdentity object_id
        (migratedVersion ("migration-" ++ uuid) object_id path manifest_hash created_at_unix
          (((s.loadVersionIndex object_id).map fun loaded => loaded.index).getD
            (emptyVersionIndex object_id))) = .ok () := insertRecord_valid valid rfl
    exact completes_mono (persist_completes env t extended) fun _ u facts =>
      indexesOnly_trans kept facts.1

theorem backfill_completes {assignment : ObjectIdMigrationAssignment}
    (path manifest_hash : String) (s : LegacyStore)
    (solid : isBlank assignment.objectId = false) :
    Completes (backfillVersion env assignment path manifest_hash) s fun _ t =>
      IndexesOnly s t := by
  apply completes_get
  apply completes_onlyIf
  · intro _
    have clock : Completes unixTs s fun _ t => IndexesOnly s t := ⟨_, _, rfl, rfl, rfl, 0, rfl⟩
    refine completes_bind clock fun now t kept => ?_
    exact completes_mono (ensureMigrated_completes env path manifest_hash now t solid)
      fun _ u rest => indexesOnly_trans kept rest
  · intro _
    exact indexesOnly_refl s

/-- The state of the namespace while paths are migrated: the paths done carry the id they were
    given, the others still look as they did. -/
structure Migrating (before : CurrentState) (done : List String) (given : Assignments)
    (t : LegacyStore) : Prop where
  fresh : Function.Injective t.uuids
  distributed : Distributed given
  kept : KeepsExisting before given
  manifests : ∀ path, t.current.objects.get path = before.objects.get path
  migrated : ∀ path ∈ done, ∃ assignment, given.byPath.get path = some assignment ∧
    t.current.objectIds.get path = some assignment.objectId
  untouched : ∀ path, path ∉ done → t.current.objectIds.get path = before.objectIds.get path

theorem migratePath_step {before : CurrentState} {done : List String}
    {row : String × String} (s : LegacyStore)
    (current : before.objects.get row.1 = some row.2) (new : row.1 ∉ done)
    (migrating : Migrating before done given s) :
    Completes (migratePath env before given row) s (Migrating before (done ++ [row.1])) := by
  refine completes_bind (assignmentFor_completes row.1 s migrating.fresh migrating.distributed) ?_
  rintro ⟨assignment, later⟩ t ⟨first, distributed, further, assigned⟩
  dsimp only at distributed further assigned ⊢
  have solid := (distributed.claimed row.1 assignment assigned).2
  refine completes_bind (backfill_completes env row.1 row.2 t solid) ?_
  intro _ u second
  have only := indexesOnly_trans first second
  have kept : KeepsExisting before later := migrating.kept.later further
  have written : Completes (onlyIf (before.objectIds.get row.1 != some assignment.objectId)
      (upsertCurrentObject row.1 ⟨row.2, assignment.objectId⟩)) u fun _ v =>
      v.uuids = u.uuids ∧
      (∀ path, v.current.objects.get path = s.current.objects.get path) ∧
      v.current.objectIds.get row.1 = some assignment.objectId ∧
      ∀ path, path ≠ row.1 → v.current.objectIds.get path = s.current.objectIds.get path := by
    apply completes_onlyIf
    · intro _
      refine ⟨(), _, rfl, rfl, ?_, get_put_self _ _ _, ?_⟩
      · intro path
        dsimp only
        rw [get_put, only.current]
        split
        · next same => rw [same, migrating.manifests, current]
        · rfl
      · intro path other
        dsimp only
        rw [get_put_other _ _ other, only.current]
    · intro same
      rw [only.current]
      refine ⟨rfl, fun _ => rfl, ?_, fun _ _ => rfl⟩
      rw [migrating.untouched row.1 new]
      simpa using same
  refine completes_bind written ?_
  rintro _ v ⟨readings, manifests, bound, others⟩
  refine completes_pure ⟨?_, distributed, kept, ?_, ?_, ?_⟩
  · rw [readings]
    exact only.fresh migrating.fresh
  · intro path
    rw [manifests, migrating.manifests]
  · intro path listed
    by_cases here : path = row.1
    · rw [here]
      exact ⟨assignment, assigned, bound⟩
    · have earlier : path ∈ done := by simpa [here] using listed
      obtain ⟨a, stored, shown⟩ := migrating.migrated path earlier
      exact ⟨a, further _ _ stored, by rw [others path here, shown]⟩
  · intro path unlisted
    rw [List.mem_append, List.mem_singleton, not_or] at unlisted
    rw [others path unlisted.2]
    exact migrating.untouched path unlisted.1

structure Repaired (before after : CurrentState) : Prop where
  manifests : ∀ path, after.objects.get path = before.objects.get path
  bound : ∀ path, before.objects.has path = true → ∃ object_id,
    after.objectIds.get path = some object_id ∧ isBlank object_id = false
  unique : ∀ p q object_id, before.objects.has p = true → before.objects.has q = true →
    after.objectIds.get p = some object_id → after.objectIds.get q = some object_id → p = q
  kept : ∀ path object_id, before.Holds path object_id →
    (∀ other, before.Holds other object_id → other = path) →
      after.objectIds.get path = some object_id
  divided : ∀ p q object_id, p ≠ q → before.Holds p object_id → before.Holds q object_id →
    ∃! path, before.Holds path object_id ∧ after.objectIds.get path = some object_id

theorem holds_has {current : CurrentState} {path object_id : String}
    (holds : current.Holds path object_id) : current.objects.has path = true :=
  (has_iff _ _).mpr holds.1

theorem migrating_repairs {before : CurrentState} {t : LegacyStore}
    (migrating : Migrating before (before.currentObjects.map Prod.fst) given t) :
    Repaired before t.current := by
  have assigned : ∀ path, before.objects.has path = true → ∃ assignment,
      given.byPath.get path = some assignment ∧
        t.current.objectIds.get path = some assignment.objectId := by
    intro path present
    obtain ⟨manifest_hash, stored⟩ := (has_iff _ _).mp present
    have listed := (mem_currentObjects before path manifest_hash).mpr stored
    exact migrating.migrated path (List.mem_map_of_mem (f := Prod.fst) listed)
  have unique : ∀ p q object_id, before.objects.has p = true → before.objects.has q = true →
      t.current.objectIds.get p = some object_id → t.current.objectIds.get q = some object_id →
        p = q := by
    intro p q object_id at_p at_q bound_p bound_q
    obtain ⟨a, stored_p, shown_p⟩ := assigned p at_p
    obtain ⟨b, stored_q, shown_q⟩ := assigned q at_q
    have left := Option.some.inj (shown_p.symm.trans bound_p)
    have right := Option.some.inj (shown_q.symm.trans bound_q)
    exact migrating.distributed.apart p q a b stored_p stored_q (left.trans right.symm)
  have keeper : ∀ path object_id, before.Holds path object_id → ∃ keeper,
      before.Holds keeper object_id ∧ t.current.objectIds.get keeper = some object_id := by
    intro path object_id holds
    obtain ⟨keeper, keeper_holds, stored⟩ := migrating.kept path object_id holds
    obtain ⟨a, found, shown⟩ := assigned keeper (holds_has keeper_holds)
    rw [stored] at found
    cases found
    exact ⟨keeper, keeper_holds, shown⟩
  constructor
  · exact migrating.manifests
  · intro path present
    obtain ⟨a, stored, shown⟩ := assigned path present
    exact ⟨a.objectId, shown, (migrating.distributed.claimed path a stored).2⟩
  · exact unique
  · intro path object_id holds alone
    obtain ⟨keeper, keeper_holds, shown⟩ := keeper path object_id holds
    rw [← alone keeper keeper_holds]
    exact shown
  · intro p q object_id _ holds _
    obtain ⟨keeper, keeper_holds, shown⟩ := keeper p object_id holds
    refine ⟨keeper, ⟨keeper_holds, shown⟩, ?_⟩
    rintro other ⟨other_holds, other_shown⟩
    exact unique other keeper object_id (holds_has other_holds) (holds_has keeper_holds)
      other_shown shown

theorem uniqueBindings_spec (current : CurrentState) (paths : List String) :
    ∀ seen : Finset String, uniqueBindings current paths seen = true →
      (∀ path ∈ paths, ∃ object_id, current.existingObjectId path = some object_id ∧
        object_id ∉ seen) ∧
      ∀ p ∈ paths, ∀ q ∈ paths, current.existingObjectId p = current.existingObjectId q →
        p = q := by
  induction paths with
  | nil =>
    intro seen _
    simp
  | cons path paths ih =>
    intro seen checked
    unfold uniqueBindings at checked
    split at checked
    · cases checked
    · next object_id held =>
      split at checked
      · cases checked
      · next unseen =>
        obtain ⟨rest, apart⟩ := ih _ checked
        have differs : ∀ other ∈ paths, current.existingObjectId other ≠
            current.existingObjectId path := by
          intro other listed same
          obtain ⟨id, found, fresh⟩ := rest other listed
          rw [held, found] at same
          exact fresh (Option.some.inj same ▸ Finset.mem_insert_self _ _)
        constructor
        · intro other listed
          rcases List.mem_cons.mp listed with rfl | later
          · exact ⟨object_id, held, unseen⟩
          · obtain ⟨id, found, fresh⟩ := rest other later
            exact ⟨id, found, fun old => fresh (Finset.mem_insert_of_mem old)⟩
        · intro p at_p q at_q same
          rcases List.mem_cons.mp at_p with rfl | p_later
          · rcases List.mem_cons.mp at_q with rfl | q_later
            · rfl
            · exact absurd same.symm (differs q q_later)
          · rcases List.mem_cons.mp at_q with rfl | q_later
            · exact absurd same (differs p p_later)
            · exact apart p p_later q q_later same

theorem unique_repaired {current : CurrentState}
    (checked : currentStateHasUniqueObjectIdBindings current = true) :
    Repaired current current := by
  obtain ⟨bound, apart⟩ := uniqueBindings_spec current _ ∅ checked
  have listed : ∀ path, current.objects.has path = true → path ∈ current.objects.keys := by
    intro path present
    exact (mem_keys _ _).mpr ((has_iff _ _).mp present)
  have shown : ∀ path object_id, current.existingObjectId path = some object_id →
      current.objectIds.get path = some object_id := fun path object_id held =>
    (Option.filter_eq_some_iff.mp held).1
  have held : ∀ path object_id, current.objects.has path = true →
      current.objectIds.get path = some object_id →
        current.existingObjectId path = some object_id := by
    intro path object_id present stored
    obtain ⟨id, existing, _⟩ := bound path (listed path present)
    have same := Option.some.inj ((shown path id existing).symm.trans stored)
    rw [existing, same]
  constructor
  · intro path
    rfl
  · intro path present
    obtain ⟨id, existing, _⟩ := bound path (listed path present)
    exact ⟨id, shown path id existing, existing_solid existing⟩
  · intro p q object_id at_p at_q stored_p stored_q
    apply apart p (listed p at_p) q (listed q at_q)
    rw [held p object_id at_p stored_p, held q object_id at_q stored_q]
  · intro path object_id holds _
    exact shown path object_id holds.2
  · intro p q object_id differ holds_p holds_q
    have same := apart p (listed p (holds_has holds_p)) q (listed q (holds_has holds_q))
      (holds_p.2.trans holds_q.2.symm)
    exact absurd same differ

theorem migrate_done {s : LegacyStore} (done : s.backfillComplete = true) :
    (migrateLegacyObjectIds env).run s = (.ok (), s) := by
  unfold migrateLegacyObjectIds
  rw [bind_run_ok (get_run s)]
  simp [done]

theorem migratePaths_complete {before : CurrentState} {s : LegacyStore}
    (start : Migrating before [] given s) :
    Completes (foldEach before.currentObjects given (migratePath env before)) s
      (Migrating before (before.currentObjects.map Prod.fst)) := by
  have loop := completes_foldEach (f := migratePath env before)
    (fun rows given t => Migrating before (rows.map Prod.fst) given t)
    before.currentObjects [] given s (fun earlier row later given t shape migrating => by
      rw [List.nil_append] at shape
      have listed : row ∈ before.currentObjects := by
        rw [shape]
        exact List.mem_append_right _ List.mem_cons_self
      have nodup := currentObjects_nodup before
      rw [shape, List.map_append, List.map_cons] at nodup
      have new : row.1 ∉ earlier.map Prod.fst := by
        intro repeated
        exact (List.nodup_append.mp nodup).2.2 _ repeated _ List.mem_cons_self rfl
      rw [List.map_append, List.map_singleton]
      exact migratePath_step env t ((mem_currentObjects _ _ _).mp listed) new migrating) start
  rw [List.nil_append] at loop
  exact loop

theorem migrate_completes {s : LegacyStore} (fresh : Function.Injective s.uuids)
    (needed : s.backfillComplete = false) :
    Completes (migrateLegacyObjectIds env) s fun _ t =>
      Repaired s.current t.current ∧ t.backfillComplete = true := by
  apply completes_get
  rw [needed]
  cases checked : currentStateHasUniqueObjectIdBindings s.current with
  | true => exact ⟨(), _, rfl, unique_repaired checked, rfl⟩
  | false =>
    refine completes_bind (candidates_complete env s.current s) ?_
    rintro legacy_candidates t ⟨scanned, solid⟩
    apply completes_get
    obtain ⟨distributed, kept⟩ := assignedBefore_distributes t s.current solid
    have start : Migrating s.current [] (assignedBefore t s.current legacy_candidates) t := by
      refine ⟨scanned.fresh fresh, distributed, kept, ?_, ?_, ?_⟩
      · intro path
        rw [scanned.current]
      · intro path listed
        cases listed
      · intro path _
        rw [scanned.current]
    refine completes_bind (migratePaths_complete env start) ?_
    intro given u migrated
    exact ⟨(), _, rfl, migrating_repairs (t := u) migrated, rfl⟩

/-- Without the marker the migration returns, gives every path an id of its own, and then has nothing
    left to do. -/
theorem legacy_object_ids_repaired (env : Surroundings) (s : LegacyStore)
    (fresh : Function.Injective s.uuids) (needed : s.backfillComplete = false) :
    ∃ t, (migrateLegacyObjectIds env).run s = (.ok (), t) ∧ Repaired s.current t.current ∧
      (migrateLegacyObjectIds env).run t = (.ok (), t) := by
  obtain ⟨_, t, run, repaired, done⟩ := migrate_completes env fresh needed
  exact ⟨t, run, repaired, migrate_done env done⟩

def sharedNames : CurrentState where
  objects := ((Table.empty.put "a.txt" "m").put "b.txt" "m").put "c.txt" "n"
  objectIds := ((Table.empty.put "a.txt" " ").put "b.txt" "x").put "c.txt" "x"

def sharedStore : LegacyStore where
  current := sharedNames
  indexes := Table.empty
  backfillComplete := false
  seconds _ := 0
  uuids n := String.ofList (List.replicate n 'u')

def emptySurroundings : Surroundings where
  codec := ⟨fun _ => List.replicate 32 0, fun _ => List.length_replicate, fun _ => [], fun _ => none⟩
  content := ⟨⟨[], by simp, Table.empty⟩, Table.empty, fun _ => false, Table.empty⟩
  indexHash _ := ""

theorem sharedStore_fresh : Function.Injective sharedStore.uuids := by
  intro m n same
  have lists := String.ofList_injective same
  simpa using congrArg List.length lists

theorem shared_id_divided : currentStateHasUniqueObjectIdBindings sharedNames = false ∧
    ∃ t, (migrateLegacyObjectIds emptySurroundings).run sharedStore = (.ok (), t) ∧
      ∃! path, sharedNames.Holds path "x" ∧ t.current.objectIds.get path = some "x" := by
  obtain ⟨t, run, repaired, _⟩ :=
    legacy_object_ids_repaired emptySurroundings sharedStore sharedStore_fresh rfl
  refine ⟨by decide +kernel, t, run, ?_⟩
  apply repaired.divided "b.txt" "c.txt" "x" (by decide)
  · exact ⟨⟨"m", by decide +kernel⟩, by decide +kernel⟩
  · exact ⟨⟨"n", by decide +kernel⟩, by decide +kernel⟩

def startedStore : LegacyStore :=
  ((migrateLegacyObjectIds emptySurroundings).run
    { sharedStore with current := loadCurrentState emptyNode.catalog.current }).2

/-- The first start of an empty node sets the marker; two imports then bind one object at two
    paths, and no later start looks at them. -/
def importedStore : LegacyStore :=
  { startedStore with
    current := loadCurrentState (runAll (exec (sampleCodec [] [])) emptyNode
      [bareImport "a" "obj-1", bareImport "b" "obj-1"]).catalog.current }

theorem marked_store_not_repaired :
    Function.Injective importedStore.uuids ∧ importedStore.backfillComplete = true ∧
      (importedStore.current.Holds "a" "obj-1" ∧ importedStore.current.Holds "b" "obj-1") ∧
      (migrateLegacyObjectIds emptySurroundings).run importedStore = (.ok (), importedStore) ∧
      ¬Repaired importedStore.current importedStore.current := by
  have done : importedStore.backfillComplete = true := by decide +kernel
  have at_a : importedStore.current.objectIds.get "a" = some "obj-1" := by decide +kernel
  have at_b : importedStore.current.objectIds.get "b" = some "obj-1" := by decide +kernel
  have shared : importedStore.current.Holds "a" "obj-1" ∧ importedStore.current.Holds "b" "obj-1" :=
    ⟨⟨⟨"aa", by decide +kernel⟩, by decide +kernel⟩, ⟨⟨"aa", by decide +kernel⟩, by decide +kernel⟩⟩
  refine ⟨sharedStore_fresh, done, shared, migrate_done emptySurroundings done, ?_⟩
  intro repaired
  have same := repaired.unique "a" "b" "obj-1" (holds_has shared.1) (holds_has shared.2) at_a at_b
  exact absurd same (by decide)

end Migration

end BerryKeepObjectIdMigration
