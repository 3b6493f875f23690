import BerryKeep.StatefulProgram
import BerryKeep.CurrentNamespace

/-!
The catalog of a node: the current namespace, the version index of every
object, the stored snapshots and the open snapshot batch. Catalog programs get
the clock readings and identifiers they use as arguments. `republish` is the
common end of the operations that write one index and then bring one path in
line with it; what it leaves behind is said once, in `republish_cases`.
-/
namespace BerryKeepCatalog
open FiniteTable TextOperations StatefulProgram BerryKeepContentCodec BerryKeepVersionGraph
  BerryKeepCurrentNamespace

def validateVersionIndexIdentity (object_id : String) (index : FileVersionIndex) :
    Except StoreError Unit :=
  if isBlank object_id then .error (.bail "object_id must not be empty")
  else if index.objectId ≠ object_id then
    .error (.bail ("refusing to change object identity: expected=" ++ object_id ++ " actual=" ++
      index.objectId))
  else match index.versions.values.find? fun record => record.objectId ≠ object_id with
    | some record =>
      .error (.bail ("refusing to persist version with a different object identity: object_id=" ++
        object_id ++ " version_id=" ++ record.versionId ++ " version_object_id=" ++
        record.objectId))
    | none => .ok ()

/-- The stored version indexes. Every row was validated when it was persisted. -/
structure IndexTable where
  rows : Table String FileVersionIndex
  identity : ∀ object_id index, rows.get object_id = some index →
    validateVersionIndexIdentity object_id index = .ok ()

structure SnapshotManifest where
  id : String
  createdAtUnix : Nat
  objects : Table String String
  objectIds : Table String String

def normalizeSnapshotManifestObjectIds (snapshot : SnapshotManifest) : SnapshotManifest :=
  { snapshot with
    objectIds := snapshot.objectIds.retain fun path object_id =>
      snapshot.objects.has path && !isBlank object_id }

structure ActiveSnapshotBatch where
  snapshotId : String
  startedAtUnix : Nat
  lastChangedAtUnix : Nat
  dirtyPaths : Finset String

structure Catalog where
  current : Bindings
  indexes : IndexTable
  snapshots : Table String SnapshotManifest
  batch : Option ActiveSnapshotBatch

abbrev CatalogM := Program Catalog StoreError

def snapshotHistoryMaxBatchWindowSecs : Nat := 2 * 60 * 60

def IndexTable.empty : IndexTable where
  rows := Table.empty
  identity := by intro object_id index found; cases found

def IndexTable.put (t : IndexTable) (object_id : String) (index : FileVersionIndex)
    (valid : validateVersionIndexIdentity object_id index = .ok ()) : IndexTable where
  rows := t.rows.put object_id index
  identity := by
    intro id found stored
    rw [get_put] at stored
    split at stored
    · next same => cases stored; exact same ▸ valid
    · exact t.identity id found stored

def IndexTable.del (t : IndexTable) (object_id : String) : IndexTable where
  rows := t.rows.del object_id
  identity := by
    intro id found stored
    rw [get_del] at stored
    split at stored
    · cases stored
    · exact t.identity id found stored

def Catalog.empty : Catalog := ⟨Table.empty, IndexTable.empty, Table.empty, none⟩

def Catalog.loadVersionIndex (c : Catalog) (object_id : String) : Option FileVersionIndex :=
  c.indexes.rows.get object_id

def Catalog.indexOrEmpty (c : Catalog) (object_id : String) : FileVersionIndex :=
  (c.loadVersionIndex object_id).getD (emptyVersionIndex object_id)

def recordAt (c : Catalog) (object_id version_id : String) : Option FileVersionRecord :=
  (c.indexes.rows.get object_id).bind fun index => index.versions.get version_id

def Catalog.loadAllVersionIndexes (c : Catalog) : List FileVersionIndex :=
  c.indexes.rows.sortedKeys.filterMap c.indexes.rows.get

def persistVersionIndexByObjectId (object_id : String) (index : FileVersionIndex) :
    CatalogM Unit :=
  match valid : validateVersionIndexIdentity object_id index with
  | .error error => throw error
  | .ok _ => modify fun c => { c with indexes := c.indexes.put object_id index valid }

def deleteVersionIndexByObjectId (object_id : String) : CatalogM Unit :=
  modify fun c => { c with indexes := c.indexes.del object_id }

def upsertCurrentObject (key : String) (entry : CurrentObjectEntry) : CatalogM Unit :=
  modify fun c => { c with current := c.current.put key entry }

def removeCurrentObject (key : String) : CatalogM Unit :=
  modify fun c => { c with current := c.current.del key }

def rebind (change : Bindings → Except StoreError (Finset String × Bindings)) :
    CatalogM (Finset String) := do
  let c ← get
  let (changed, current) ← lift (change c.current)
  set { c with current := current }
  return changed

def syncCurrentState (key : String) (index : FileVersionIndex) : CatalogM (Finset String) :=
  rebind fun current => syncCurrentStateForKeyFromIndex current key index

def promoteCurrentState (key : String) (index : FileVersionIndex) : CatalogM (Finset String) :=
  rebind fun current => promoteCurrentStateForKeyFromIndex current key index

def removeBindingsExcept (object_id : String) (preserved_path : Option String) :
    CatalogM (Finset String) :=
  rebind fun current => .ok (removeBindingsForObjectIdExcept current object_id preserved_path)

/-- The open batch after the rotation test: closed on an overlap or past the window. -/
def rotated (batch : Option ActiveSnapshotBatch) (touched_paths : Finset String) (now : Nat) :
    Option ActiveSnapshotBatch :=
  if touched_paths = ∅ then batch
  else batch.filter fun open_batch =>
    ¬((∃ path ∈ touched_paths, path ∈ open_batch.dirtyPaths) ∨
      now - open_batch.startedAtUnix > snapshotHistoryMaxBatchWindowSecs)

def maybeRotateSnapshotBatch (touched_paths : Finset String) (now : Nat) : CatalogM Unit :=
  modify fun c => { c with batch := rotated c.batch touched_paths now }

def extendedBatch (batch : Option ActiveSnapshotBatch) (changed_paths : Finset String)
    (changed_at_unix : Nat) (uuid : String) : ActiveSnapshotBatch :=
  let open_batch := batch.getD ⟨"snap-batch-" ++ uuid, changed_at_unix, changed_at_unix, ∅⟩
  { open_batch with
    lastChangedAtUnix := changed_at_unix
    dirtyPaths := open_batch.dirtyPaths ∪ changed_paths }

def snapshotOf (id : String) (created_at_unix : Nat) (current : Bindings) : SnapshotManifest :=
  ⟨id, created_at_unix, current.mapValues fun entry => entry.manifestHash,
    current.mapValues fun entry => entry.objectId⟩

-- An open batch has one snapshot, which is written anew at every change.
def Catalog.recorded (c : Catalog) (changed_paths : Finset String) (changed_at_unix : Nat)
    (uuid : String) : Catalog :=
  let batch := extendedBatch c.batch changed_paths changed_at_unix uuid
  let manifest := snapshotOf batch.snapshotId batch.lastChangedAtUnix c.current
  { c with batch := some batch, snapshots := c.snapshots.put batch.snapshotId manifest }

def recordSnapshotBatch (changed_paths : Finset String) (changed_at_unix : Nat) (uuid : String) :
    CatalogM String := do
  if changed_paths = ∅ then throw (.bail "snapshot batch requires at least one changed path")
  let c ← get
  set (c.recorded changed_paths changed_at_unix uuid)
  return (extendedBatch c.batch changed_paths changed_at_unix uuid).snapshotId

def persistCurrentStateWithSnapshotBatch (changed_paths : Finset String) (create_snapshot : Bool)
    (changed_at_unix : Nat) (uuid : String) : CatalogM (Option String) := do
  if !create_snapshot || changed_paths = ∅ then return none
  return some (← recordSnapshotBatch changed_paths changed_at_unix uuid)

structure Readings where
  rotateAt : Nat
  recordAt : Nat
  uuid : String

/-- The end of put, tombstone, commit, copy and drop: write the index of an object,
    bring one path in line with it and record the paths that changed. -/
def republish (r : Readings) (key object_id : String) (index : FileVersionIndex)
    (persist rotate create_snapshot : Bool) : CatalogM (Option String) := do
  let before ← get
  let touched_paths := touchedPathsForObjectId before.current object_id key
  onlyIf rotate (maybeRotateSnapshotBatch touched_paths r.rotateAt)
  onlyIf persist (persistVersionIndexByObjectId object_id index)
  let changed_paths ← syncCurrentState key index
  let after ← get
  let changed_paths :=
    if after.current.get key ≠ before.current.get key then changed_paths ∪ touched_paths
    else changed_paths
  persistCurrentStateWithSnapshotBatch changed_paths create_snapshot r.recordAt r.uuid

section Identity
variable {object_id : String} {index : FileVersionIndex}

theorem validate_ok_iff : validateVersionIndexIdentity object_id index = .ok () ↔
    isBlank object_id = false ∧ index.objectId = object_id ∧
      ∀ id record, index.versions.get id = some record → record.objectId = object_id := by
  unfold validateVersionIndexIdentity
  by_cases blank : isBlank object_id = true
  · simp [blank]
  · by_cases named : index.objectId = object_id
    · rw [if_neg blank, if_neg (not_not.mpr named)]
      cases found : index.versions.values.find? fun record => record.objectId ≠ object_id with
      | some record =>
        have stray := List.find?_some found
        obtain ⟨id, stored⟩ := (mem_values _ _).mp (List.mem_of_find?_eq_some found)
        constructor
        · intro refused
          cases refused
        · intro all
          simp [all.2.2 id record stored] at stray
      | none =>
        constructor
        · intro _
          refine ⟨by simpa using blank, named, fun id record stored => ?_⟩
          have fine := List.find?_eq_none.mp found record ((mem_values _ _).mpr ⟨id, stored⟩)
          simpa using fine
        · intro _
          rfl
    · simp [blank, named]

theorem IndexTable.objectId_eq (t : IndexTable) (stored : t.rows.get object_id = some index) :
    index.objectId = object_id := (validate_ok_iff.mp (t.identity _ _ stored)).2.1

variable (c : Catalog)

theorem mem_loadAllVersionIndexes (index : FileVersionIndex) :
    index ∈ c.loadAllVersionIndexes ↔ c.indexes.rows.get index.objectId = some index := by
  unfold Catalog.loadAllVersionIndexes
  rw [List.mem_filterMap]
  constructor
  · rintro ⟨object_id, _, stored⟩
    rw [c.indexes.objectId_eq stored]
    exact stored
  · intro stored
    exact ⟨index.objectId, (mem_sortedKeys _ _).mpr ⟨index, stored⟩, stored⟩

theorem indexOrEmpty_objectId (object_id : String) :
    (c.indexOrEmpty object_id).objectId = object_id := by
  unfold Catalog.indexOrEmpty Catalog.loadVersionIndex
  cases stored : c.indexes.rows.get object_id with
  | none => rfl
  | some index => exact c.indexes.objectId_eq stored

theorem recordAt_of_row {c : Catalog} {version_id : String} (stored : c.indexes.rows.get object_id = some index) :
    recordAt c object_id version_id = index.versions.get version_id := by
  unfold recordAt
  rw [stored]
  rfl

theorem recordAt_eq (object_id version_id : String) :
    recordAt c object_id version_id = (c.indexOrEmpty object_id).versions.get version_id := by
  unfold recordAt Catalog.indexOrEmpty Catalog.loadVersionIndex
  cases c.indexes.rows.get object_id with
  | none => rfl
  | some index => rfl

theorem indexOrEmpty_stored {c : Catalog} {version_id : String} {record : FileVersionRecord}
    (found : (c.indexOrEmpty object_id).versions.get version_id = some record) :
    c.indexes.rows.get object_id = some (c.indexOrEmpty object_id) := by
  unfold Catalog.indexOrEmpty Catalog.loadVersionIndex at found ⊢
  cases row : c.indexes.rows.get object_id with
  | none => rw [row] at found; cases found
  | some index => rfl

theorem indexOrEmpty_of_row {c : Catalog} {index : FileVersionIndex}
    (row : c.indexes.rows.get object_id = some index) : c.indexOrEmpty object_id = index := by
  unfold Catalog.indexOrEmpty Catalog.loadVersionIndex
  rw [row]
  rfl

theorem insertRecord_valid {record : FileVersionRecord}
    (valid : validateVersionIndexIdentity object_id index = .ok ())
    (same : record.objectId = object_id) :
    validateVersionIndexIdentity object_id (index.insertRecord record) = .ok () := by
  obtain ⟨solid, named, all⟩ := validate_ok_iff.mp valid
  refine validate_ok_iff.mpr ⟨solid, named, fun id found stored => ?_⟩
  change (index.versions.put _ _).get id = some found at stored
  rw [get_put] at stored
  split at stored
  · cases stored; exact same
  · exact all id found stored

theorem generated_not_blank (uuid : String) : isBlank ("obj-" ++ uuid) = false := by
  unfold isBlank
  rw [String.toList_append]
  simp [isWhitespace]

end Identity

section Runs
variable {c : Catalog} {object_id key : String} {index : FileVersionIndex}

theorem persist_run (c : Catalog) (object_id : String) (index : FileVersionIndex) :
    (∃ error, validateVersionIndexIdentity object_id index = .error error ∧
        (persistVersionIndexByObjectId object_id index).run c = (.error error, c)) ∨
      ∃ valid, (persistVersionIndexByObjectId object_id index).run c =
        (.ok (), { c with indexes := c.indexes.put object_id index valid }) := by
  unfold persistVersionIndexByObjectId
  split
  · next error invalid => exact .inl ⟨error, invalid, rfl⟩
  · next valid => exact .inr ⟨valid, rfl⟩

theorem rebind_run (change : Bindings → Except StoreError (Finset String × Bindings))
    (c : Catalog) :
    (∃ error, change c.current = .error error ∧ (rebind change).run c = (.error error, c)) ∨
      ∃ changed current, change c.current = .ok (changed, current) ∧
        (rebind change).run c = (.ok changed, { c with current := current }) := by
  cases result : change c.current with
  | error error =>
    refine .inl ⟨error, rfl, ?_⟩
    simp [rebind, bind_run, result]
  | ok both =>
    refine .inr ⟨both.1, both.2, rfl, ?_⟩
    simp [rebind, bind_run, result]

def Catalog.recordedIf (c : Catalog) (create_snapshot : Bool) (changed_paths : Finset String)
    (changed_at_unix : Nat) (uuid : String) : Catalog :=
  if !create_snapshot || changed_paths = ∅ then c
  else c.recorded changed_paths changed_at_unix uuid

theorem persistCurrentState_run (c : Catalog) (changed_paths : Finset String)
    (create_snapshot : Bool) (changed_at_unix : Nat) (uuid : String) :
    ∃ id, (persistCurrentStateWithSnapshotBatch changed_paths create_snapshot changed_at_unix
        uuid).run c = (.ok id, c.recordedIf create_snapshot changed_paths changed_at_unix uuid) := by
  unfold persistCurrentStateWithSnapshotBatch Catalog.recordedIf recordSnapshotBatch
  split
  · exact ⟨none, rfl⟩
  · next happens =>
    have nonempty : changed_paths ≠ ∅ := by rintro rfl; simp at happens
    simp only [nonempty, if_false]
    exact ⟨_, rfl⟩

@[simp] theorem recordedIf_current (create : Bool) (changed : Finset String) (at_unix : Nat)
    (uuid : String) : (c.recordedIf create changed at_unix uuid).current = c.current := by
  unfold Catalog.recordedIf; split <;> rfl

@[simp] theorem recordedIf_indexes (create : Bool) (changed : Finset String) (at_unix : Nat)
    (uuid : String) : (c.recordedIf create changed at_unix uuid).indexes = c.indexes := by
  unfold Catalog.recordedIf; split <;> rfl

def storedRows (c : Catalog) (persist : Bool) (object_id : String) (index : FileVersionIndex) :
    Table String FileVersionIndex :=
  if persist then c.indexes.rows.put object_id index else c.indexes.rows

theorem storedRows_other {persist : Bool} {id : String} (other : id ≠ object_id) :
    (storedRows c persist object_id index).get id = c.indexes.rows.get id := by
  unfold storedRows
  split
  · exact get_put_other _ _ other
  · rfl

theorem storedRows_self {persist : Bool}
    (stored : persist = false → c.indexes.rows.get object_id = some index) :
    (storedRows c persist object_id index).get object_id = some index := by
  unfold storedRows
  split
  · exact get_put_self _ _ _
  · next skipped => exact stored (by simpa using skipped)

end Runs

section Republish
variable {c : Catalog} {key object_id : String} {index : FileVersionIndex}

def Catalog.opening (c : Catalog) (rotate : Bool) (touched_paths : Finset String) (now : Nat) :
    Catalog :=
  if rotate then { c with batch := rotated c.batch touched_paths now } else c

/-- Everything `republish` can leave behind. A refused index was never written, a lost
    preferred head stops it before the namespace changes, and otherwise `mid` is the
    catalog after the namespace change, from which the snapshot is taken. -/
inductive Republished (r : Readings) (c : Catalog) (key object_id : String)
    (index : FileVersionIndex) (persist rotate create_snapshot : Bool) : Catalog → Prop where
  | refused (wanted : persist = true) (error : StoreError)
      (invalid : validateVersionIndexIdentity object_id index = .error error) :
      Republished r c key object_id index persist rotate create_snapshot
        (c.opening rotate (touchedPathsForObjectId c.current object_id key) r.rotateAt)
  | broken {d : Catalog} (error : StoreError)
      (lost : syncCurrentStateForKeyFromIndex c.current key index = .error error)
      (current : d.current = c.current) (rows : d.indexes.rows = storedRows c persist object_id index)
      (snapshots : d.snapshots = c.snapshots)
      (batch : d.batch =
        (c.opening rotate (touchedPathsForObjectId c.current object_id key) r.rotateAt).batch) :
      Republished r c key object_id index persist rotate create_snapshot d
  | done (mid : Catalog) (changed : Finset String)
      (synced : syncCurrentStateForKeyFromIndex c.current key index = .ok (changed, mid.current))
      (rows : mid.indexes.rows = storedRows c persist object_id index)
      (snapshots : mid.snapshots = c.snapshots)
      (batch : mid.batch =
        (c.opening rotate (touchedPathsForObjectId c.current object_id key) r.rotateAt).batch) :
      Republished r c key object_id index persist rotate create_snapshot
        (mid.recordedIf create_snapshot
          (if mid.current.get key ≠ c.current.get key then
            changed ∪ touchedPathsForObjectId c.current object_id key else changed)
          r.recordAt r.uuid)

variable (rotate : Bool)

theorem opening_current (touched : Finset String) (now : Nat) :
    (c.opening rotate touched now).current = c.current := by
  unfold Catalog.opening; split <;> rfl

theorem opening_indexes (touched : Finset String) (now : Nat) :
    (c.opening rotate touched now).indexes = c.indexes := by
  unfold Catalog.opening; split <;> rfl

theorem opening_snapshots (touched : Finset String) (now : Nat) :
    (c.opening rotate touched now).snapshots = c.snapshots := by
  unfold Catalog.opening; split <;> rfl

theorem opening_run (touched : Finset String) (now : Nat) :
    (onlyIf rotate (maybeRotateSnapshotBatch touched now)).run c =
      (.ok (), c.opening rotate touched now) := by
  cases rotate <;> rfl

theorem storing_run (start : Catalog) (persist : Bool) :
    (persist = true ∧ ∃ error, validateVersionIndexIdentity object_id index = .error error ∧
        (onlyIf persist (persistVersionIndexByObjectId object_id index)).run start =
          (.error error, start)) ∨
      ∃ stored : Catalog,
        (onlyIf persist (persistVersionIndexByObjectId object_id index)).run start =
          (.ok (), stored) ∧
        stored.indexes.rows = storedRows start persist object_id index ∧
        stored.current = start.current ∧ stored.snapshots = start.snapshots ∧
        stored.batch = start.batch := by
  cases persist with
  | false => exact .inr ⟨start, rfl, rfl, rfl, rfl, rfl⟩
  | true =>
    rcases persist_run start object_id index with ⟨error, invalid, run⟩ | ⟨valid, run⟩
    · exact .inl ⟨rfl, error, invalid, run⟩
    · exact .inr ⟨_, run, rfl, rfl, rfl, rfl⟩

theorem republish_cases (r : Readings) (c : Catalog) (key object_id : String)
    (index : FileVersionIndex) (persist rotate create_snapshot : Bool) :
    Republished r c key object_id index persist rotate create_snapshot
      ((republish r key object_id index persist rotate create_snapshot).run c).2 := by
  unfold republish
  rw [bind_run_ok (get_run c), bind_run_ok (opening_run rotate _ r.rotateAt)]
  rcases storing_run (c.opening rotate (touchedPathsForObjectId c.current object_id key)
      r.rotateAt) persist with ⟨wanted, error, invalid, run⟩ | ⟨stored, run, rows, current, snapshots,
      batch⟩
  · rw [bind_run_error run]
    exact .refused wanted error invalid
  · have rows' : stored.indexes.rows = storedRows c persist object_id index := by
      rw [rows, storedRows, storedRows, opening_indexes]
    have current' : stored.current = c.current := current.trans (opening_current _ _ _)
    have snapshots' : stored.snapshots = c.snapshots := snapshots.trans (opening_snapshots _ _ _)
    rw [bind_run_ok run]
    rcases rebind_run (fun current => syncCurrentStateForKeyFromIndex current key index) stored with
      ⟨error, lost, run⟩ | ⟨changed, next, synced, run⟩
    · rw [bind_run_error (m := syncCurrentState key index) run]
      exact .broken error (current' ▸ lost) current' rows' snapshots' batch
    · rw [bind_run_ok (m := syncCurrentState key index) run, bind_run_ok (get_run _)]
      obtain ⟨id, run⟩ := persistCurrentState_run { stored with current := next }
        (if next.get key ≠ c.current.get key then
          changed ∪ touchedPathsForObjectId c.current object_id key else changed)
        create_snapshot r.recordAt r.uuid
      rw [run]
      exact .done { stored with current := next } changed (current' ▸ synced) rows'
        snapshots' batch

inductive Rebound (c d : Catalog) (key object_id : String) (index : FileVersionIndex)
    (persist : Bool) : Prop where
  | refused (current : d.current = c.current) (rows : d.indexes.rows = c.indexes.rows)
  | broken (error : StoreError)
      (lost : syncCurrentStateForKeyFromIndex c.current key index = .error error)
      (current : d.current = c.current) (rows : d.indexes.rows = storedRows c persist object_id index)
  | done (changed : Finset String)
      (synced : syncCurrentStateForKeyFromIndex c.current key index = .ok (changed, d.current))
      (rows : d.indexes.rows = storedRows c persist object_id index)

theorem Republished.rebound {r : Readings} {d : Catalog} {persist rotate create : Bool}
    (result : Republished r c key object_id index persist rotate create d) :
    Rebound c d key object_id index persist := by
  cases result with
  | refused _ _ _ => exact .refused (opening_current _ _ _) (by rw [opening_indexes])
  | broken error lost current rows _ _ => exact .broken error lost current rows
  | done mid changed synced rows _ _ =>
    refine .done changed ?_ ?_
    · rw [recordedIf_current]
      exact synced
    · rw [recordedIf_indexes]
      exact rows

theorem Rebound.row {d : Catalog} {persist : Bool}
    (result : Rebound c d key object_id index persist) (id : String) :
    d.indexes.rows.get id = c.indexes.rows.get id ∨
      (persist = true ∧ id = object_id ∧ d.indexes.rows.get id = some index) := by
  have stored : ∀ {rows}, rows = storedRows c persist object_id index →
      rows.get id = c.indexes.rows.get id ∨
        (persist = true ∧ id = object_id ∧ rows.get id = some index) := by
    intro rows written
    subst written
    unfold storedRows
    split
    · rw [get_put]
      split
      · exact .inr ⟨‹_›, ‹_›, rfl⟩
      · exact .inl rfl
    · exact .inl rfl
  cases result with
  | refused _ rows => exact .inl (by rw [rows])
  | broken _ _ _ rows => exact stored rows
  | done _ _ rows => exact stored rows

end Republish

section Frames
variable {α : Type}

def KeepsRows (m : CatalogM α) : Prop :=
  Keeps (fun c d : Catalog => d.indexes.rows = c.indexes.rows) m

def KeepsCurrent (m : CatalogM α) : Prop := Keeps (fun c d : Catalog => d.current = c.current) m

theorem rebind_keepsRows (change : Bindings → Except StoreError (Finset String × Bindings)) :
    KeepsRows (rebind change) := by
  intro c
  rcases rebind_run change c with ⟨error, _, run⟩ | ⟨changed, current, _, run⟩
  · rw [run]
  · rw [run]

theorem record_keepsRows (changed : Finset String) (create : Bool) (now : Nat) (uuid : String) :
    KeepsRows (persistCurrentStateWithSnapshotBatch changed create now uuid) := by
  intro c
  obtain ⟨id, run⟩ := persistCurrentState_run c changed create now uuid
  rw [run, recordedIf_indexes]

theorem record_keepsCurrent (changed : Finset String) (create : Bool) (now : Nat) (uuid : String) :
    KeepsCurrent (persistCurrentStateWithSnapshotBatch changed create now uuid) := by
  intro c
  obtain ⟨id, run⟩ := persistCurrentState_run c changed create now uuid
  rw [run, recordedIf_current]

theorem rotate_keepsRows (paths : Finset String) (now : Nat) :
    KeepsRows (maybeRotateSnapshotBatch paths now) := fun _ => rfl

theorem rotate_keepsCurrent (paths : Finset String) (now : Nat) :
    KeepsCurrent (maybeRotateSnapshotBatch paths now) := fun _ => rfl

theorem persist_keepsCurrent (object_id : String) (index : FileVersionIndex) :
    KeepsCurrent (persistVersionIndexByObjectId object_id index) := by
  intro c
  rcases persist_run c object_id index with ⟨error, _, run⟩ | ⟨valid, run⟩
  · rw [run]
  · rw [run]

theorem persist_row (object_id : String) (index : FileVersionIndex) (c : Catalog) (id : String) :
    ((persistVersionIndexByObjectId object_id index).run c).2.indexes.rows.get id =
        c.indexes.rows.get id ∨
      (id = object_id ∧ ((persistVersionIndexByObjectId object_id index).run c).2.indexes.rows.get
        id = some index) := by
  rcases persist_run c object_id index with ⟨error, _, run⟩ | ⟨valid, run⟩
  · rw [run]
    exact .inl rfl
  · rw [run]
    change (c.indexes.rows.put object_id index).get id = _ ∨ id = object_id ∧
      (c.indexes.rows.put object_id index).get id = _
    rw [get_put]
    split
    · exact .inr ⟨‹_›, rfl⟩
    · exact .inl rfl

end Frames

end BerryKeepCatalog
