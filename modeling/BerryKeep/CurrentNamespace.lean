import Mathlib.Data.Finset.Basic
import BerryKeep.VersionGraph

/-!
The current namespace: which path shows which manifest of which object. It is
changed by syncing a path with the index of an object, by promoting a path and
by removing the bindings of an object. Each change is described once, through
what it does to every path, and the invariants are derived from that.
-/
namespace BerryKeepCurrentNamespace
open FiniteTable BerryKeepContentCodec BerryKeepVersionGraph

structure CurrentObjectEntry where
  manifestHash : String
  objectId : String
  deriving DecidableEq, Repr

abbrev Bindings := Table String CurrentObjectEntry

def objectIdForKey (cur : Bindings) (key : String) : Option String :=
  (cur.get key).map fun entry => entry.objectId

def listKeysForObjectId (cur : Bindings) (object_id : String) : List String :=
  cur.keysWhere fun entry => entry.objectId == object_id

def touchedPathsForObjectId (cur : Bindings) (object_id key : String) : Finset String :=
  insert key (listKeysForObjectId cur object_id).toFinset

def removeBindingsForObjectIdExcept (cur : Bindings) (object_id : String)
    (preserved_path : Option String) : Finset String × Bindings :=
  let bound_paths := (listKeysForObjectId cur object_id).filter fun path =>
    decide (some path ≠ preserved_path)
  (bound_paths.toFinset, cur.delAll bound_paths)

def removeBindingsForObjectId (cur : Bindings) (object_id : String) : Finset String × Bindings :=
  removeBindingsForObjectIdExcept cur object_id none

def bindToPreferredIndexRecord (cur : Bindings) (key : String) (index : FileVersionIndex)
    (preferred_record : FileVersionRecord) : Finset String × Bindings :=
  let preferred_logical_path := preferred_record.logicalPath.getD key
  let expected_entry : CurrentObjectEntry := ⟨preferred_record.manifestHash, index.objectId⟩
  let bound_paths := (listKeysForObjectId cur index.objectId).filter fun path => decide (path ≠ key)
  if bound_paths ≠ [] ∧ preferred_logical_path ≠ key then (∅, cur)
  else
    let cleared := cur.delAll bound_paths
    if cleared.get key ≠ some expected_entry then
      (insert key bound_paths.toFinset, cleared.put key expected_entry)
    else (bound_paths.toFinset, cleared)

def missingPreferredHead (preferred_head key : String) : StoreError :=
  .bail ("preferred head " ++ preferred_head ++ " missing in index for key=" ++ key)

def livePreferredRecord (key : String) (index : FileVersionIndex) :
    Except StoreError (Option FileVersionRecord) :=
  match index.preferredHeadVersionId with
  | none => .ok none
  | some preferred_head =>
    match index.versions.get preferred_head with
    | none => .error (missingPreferredHead preferred_head key)
    | some preferred_record =>
      if preferred_record.manifestHash = tombstoneManifestHash then .ok none
      else .ok (some preferred_record)

def promoteCurrentStateForKeyFromIndex (cur : Bindings) (key : String) (index : FileVersionIndex) :
    Except StoreError (Finset String × Bindings) :=
  match livePreferredRecord key index with
  | .error error => .error error
  | .ok none => .ok (removeBindingsForObjectId cur index.objectId)
  | .ok (some record) => .ok (bindToPreferredIndexRecord cur key index record)

-- As promote, except that a path bound to another object is left alone.
def syncCurrentStateForKeyFromIndex (cur : Bindings) (key : String) (index : FileVersionIndex) :
    Except StoreError (Finset String × Bindings) :=
  match livePreferredRecord key index with
  | .error error => .error error
  | .ok none => .ok (removeBindingsForObjectId cur index.objectId)
  | .ok (some record) =>
    match objectIdForKey cur key with
    | none => .ok (bindToPreferredIndexRecord cur key index record)
    | some current_object_id =>
      if current_object_id = index.objectId then
        .ok (bindToPreferredIndexRecord cur key index record)
      else .ok (∅, cur)

def unbound (object_id : String) (binding : Option CurrentObjectEntry) :
    Option CurrentObjectEntry :=
  binding.filter fun entry => entry.objectId ≠ object_id

section Rebinding
variable {cur next : Bindings} {key object_id : String} {index : FileVersionIndex}
  {record : FileVersionRecord}

variable {path : String}

theorem mem_listKeys :
    path ∈ listKeysForObjectId cur object_id ↔
      ∃ entry, cur.get path = some entry ∧ entry.objectId = object_id := by
  unfold listKeysForObjectId
  rw [mem_keysWhere]
  simp

theorem unbound_of_listed (listed : path ∈ listKeysForObjectId cur object_id) :
    unbound object_id (cur.get path) = none := by
  obtain ⟨entry, stored, same⟩ := mem_listKeys.mp listed
  simp [unbound, stored, same]

theorem unbound_of_unlisted (unlisted : path ∉ listKeysForObjectId cur object_id) :
    unbound object_id (cur.get path) = cur.get path := by
  cases stored : cur.get path with
  | none => rfl
  | some entry =>
    have other : entry.objectId ≠ object_id := fun same =>
      unlisted (mem_listKeys.mpr ⟨entry, stored, same⟩)
    simp [unbound, other]

variable (preserved : Option String)

theorem removeBindings_get (path : String) :
    (removeBindingsForObjectIdExcept cur object_id preserved).2.get path =
      if some path = preserved then cur.get path else unbound object_id (cur.get path) := by
  unfold removeBindingsForObjectIdExcept
  rw [get_delAll]
  simp only [List.mem_filter, decide_eq_true_eq]
  by_cases kept : some path = preserved
  · simp [kept]
  · by_cases listed : path ∈ listKeysForObjectId cur object_id
    · simp [kept, listed, unbound_of_listed listed]
    · simp [kept, listed, unbound_of_unlisted listed]

theorem livePreferredRecord_some (live : livePreferredRecord key index = .ok (some record)) :
    ∃ head, index.preferredHeadVersionId = some head ∧ index.versions.get head = some record ∧
      record.manifestHash ≠ tombstoneManifestHash := by
  unfold livePreferredRecord at live
  split at live
  · cases live
  · next head preferred =>
    split at live
    · cases live
    · next found stored =>
      split at live
      · cases live
      · next alive => cases live; exact ⟨head, preferred, stored, alive⟩

def BusyElsewhere (cur : Bindings) (key object_id : String) : Prop :=
  (∃ path ∈ listKeysForObjectId cur object_id, path ≠ key) ∨
    ∃ entry, cur.get key = some entry ∧ entry.objectId ≠ object_id

inductive Rebinding (cur : Bindings) (key : String) (index : FileVersionIndex) :
    Bindings → Prop where
  | cleared {next : Bindings} (dead : livePreferredRecord key index = .ok none)
      (all : ∀ path, next.get path = unbound index.objectId (cur.get path)) :
      Rebinding cur key index next
  | kept (record : FileVersionRecord) (live : livePreferredRecord key index = .ok (some record))
      (busy : BusyElsewhere cur key index.objectId) : Rebinding cur key index cur
  | bound {next : Bindings} (record : FileVersionRecord)
      (live : livePreferredRecord key index = .ok (some record))
      (here : next.get key = some ⟨record.manifestHash, index.objectId⟩)
      (elsewhere : ∀ path, path ≠ key → next.get path = unbound index.objectId (cur.get path)) :
      Rebinding cur key index next

theorem bindToPreferred_cases (cur : Bindings) (key : String) (index : FileVersionIndex)
    (record : FileVersionRecord) :
    (bindToPreferredIndexRecord cur key index record = (∅, cur) ∧
        ∃ path ∈ listKeysForObjectId cur index.objectId, path ≠ key) ∨
      ((bindToPreferredIndexRecord cur key index record).2.get key =
          some ⟨record.manifestHash, index.objectId⟩ ∧
        ∀ path, path ≠ key → (bindToPreferredIndexRecord cur key index record).2.get path =
          unbound index.objectId (cur.get path)) := by
  unfold bindToPreferredIndexRecord
  simp only
  split
  · next skipped =>
    obtain ⟨path, member⟩ := List.exists_mem_of_ne_nil _ skipped.1
    rw [List.mem_filter, decide_eq_true_eq] at member
    exact .inl ⟨rfl, path, member⟩
  · refine .inr ?_
    have cleared : ∀ path, path ≠ key →
        (cur.delAll ((listKeysForObjectId cur index.objectId).filter fun path =>
          decide (path ≠ key))).get path = unbound index.objectId (cur.get path) := by
      intro path other
      rw [get_delAll]
      simp only [List.mem_filter, decide_eq_true_eq, other, ne_eq, not_false_eq_true, and_true]
      by_cases listed : path ∈ listKeysForObjectId cur index.objectId
      · rw [if_pos listed, unbound_of_listed listed]
      · rw [if_neg listed, unbound_of_unlisted listed]
    split
    · refine ⟨get_put_self _ _ _, fun path other => ?_⟩
      exact (get_put_other _ _ other).trans (cleared path other)
    · next same => exact ⟨not_not.mp same, cleared⟩

variable {changed : Finset String}

theorem promote_cases
    (done : promoteCurrentStateForKeyFromIndex cur key index = .ok (changed, next)) :
    Rebinding cur key index next := by
  unfold promoteCurrentStateForKeyFromIndex at done
  split at done
  · cases done
  · next dead =>
    cases done
    exact .cleared dead fun path => (removeBindings_get none path).trans (if_neg (by simp))
  · next record live =>
    have result := Except.ok.inj done
    rcases bindToPreferred_cases cur key index record with ⟨skipped, bound⟩ | ⟨here, elsewhere⟩
    · rw [skipped] at result; cases result; exact .kept record live (.inl bound)
    · rw [result] at here elsewhere
      exact .bound record live here elsewhere

theorem sync_eq_promote_or_kept (cur : Bindings) (key : String) (index : FileVersionIndex) :
    syncCurrentStateForKeyFromIndex cur key index =
        promoteCurrentStateForKeyFromIndex cur key index ∨
      (∃ record entry, livePreferredRecord key index = .ok (some record) ∧
        cur.get key = some entry ∧ entry.objectId ≠ index.objectId ∧
        syncCurrentStateForKeyFromIndex cur key index = .ok (∅, cur)) := by
  unfold syncCurrentStateForKeyFromIndex promoteCurrentStateForKeyFromIndex
  cases livePreferredRecord key index with
  | error error => exact .inl rfl
  | ok found =>
    cases found with
    | none => exact .inl rfl
    | some record =>
      cases shown : cur.get key with
      | none => simp [objectIdForKey, shown]
      | some entry =>
        by_cases same : entry.objectId = index.objectId
        · simp [objectIdForKey, shown, same]
        · simp [objectIdForKey, shown, same]

theorem sync_cases
    (done : syncCurrentStateForKeyFromIndex cur key index = .ok (changed, next)) :
    Rebinding cur key index next := by
  rcases sync_eq_promote_or_kept cur key index with same | ⟨record, entry, live, shown, other, kept⟩
  · exact promote_cases (same ▸ done)
  · rw [kept] at done
    cases done
    exact .kept record live (.inr ⟨entry, shown, other⟩)

theorem removeBindings_changed
    (moved : (removeBindingsForObjectIdExcept cur object_id preserved).2.get path ≠ cur.get path) :
    path ∈ (removeBindingsForObjectIdExcept cur object_id preserved).1 := by
  unfold removeBindingsForObjectIdExcept at moved ⊢
  rw [get_delAll] at moved
  split at moved
  · rw [List.mem_toFinset]; assumption
  · exact absurd rfl moved

theorem removeBindings_listed
    (member : path ∈ (removeBindingsForObjectIdExcept cur object_id preserved).1) :
    path ∈ listKeysForObjectId cur object_id := by
  unfold removeBindingsForObjectIdExcept at member
  rw [List.mem_toFinset, List.mem_filter] at member
  exact member.1

theorem bindToPreferred_changed
    (moved : (bindToPreferredIndexRecord cur key index record).2.get path ≠ cur.get path) :
    path ∈ (bindToPreferredIndexRecord cur key index record).1 := by
  unfold bindToPreferredIndexRecord at moved ⊢
  simp only at moved ⊢
  split at moved
  · exact absurd rfl moved
  · next happens =>
    rw [if_neg happens]
    split at moved
    · next differs =>
      rw [if_pos differs, Finset.mem_insert]
      by_cases here : path = key
      · exact .inl here
      · rw [get_put_other _ _ here, get_delAll] at moved
        split at moved
        · exact .inr (List.mem_toFinset.mpr ‹_›)
        · exact absurd rfl moved
    · next same =>
      rw [if_neg same]
      rw [get_delAll] at moved
      split at moved
      · exact List.mem_toFinset.mpr ‹_›
      · exact absurd rfl moved

theorem bindToPreferred_touched :
    (bindToPreferredIndexRecord cur key index record).1 ⊆
      touchedPathsForObjectId cur index.objectId key := by
  intro path member
  unfold bindToPreferredIndexRecord at member
  unfold touchedPathsForObjectId
  simp only at member
  rw [Finset.mem_insert, List.mem_toFinset]
  split at member
  · simp at member
  · split at member
    · rw [Finset.mem_insert, List.mem_toFinset, List.mem_filter] at member
      exact member.imp id And.left
    · rw [List.mem_toFinset, List.mem_filter] at member
      exact .inr member.1

theorem promote_changed
    (done : promoteCurrentStateForKeyFromIndex cur key index = .ok (changed, next)) :
    (∀ path, next.get path ≠ cur.get path → path ∈ changed) ∧
      changed ⊆ touchedPathsForObjectId cur index.objectId key := by
  unfold promoteCurrentStateForKeyFromIndex at done
  split at done
  · cases done
  · cases done
    refine ⟨fun path moved => removeBindings_changed none moved, fun path member => ?_⟩
    exact Finset.mem_insert_of_mem (List.mem_toFinset.mpr (removeBindings_listed none member))
  · next record live =>
    have result := Except.ok.inj done
    have changed_eq : (bindToPreferredIndexRecord cur key index record).1 = changed := by
      rw [result]
    have next_eq : (bindToPreferredIndexRecord cur key index record).2 = next := by rw [result]
    subst changed_eq next_eq
    exact ⟨fun path moved => bindToPreferred_changed moved, bindToPreferred_touched⟩

theorem sync_changed
    (done : syncCurrentStateForKeyFromIndex cur key index = .ok (changed, next)) :
    (∀ path, next.get path ≠ cur.get path → path ∈ changed) ∧
      changed ⊆ touchedPathsForObjectId cur index.objectId key := by
  rcases sync_eq_promote_or_kept cur key index with same | ⟨_, _, _, _, _, kept⟩
  · exact promote_changed (same ▸ done)
  · rw [kept] at done
    cases done
    exact ⟨fun path moved => absurd rfl moved, Finset.empty_subset _⟩

end Rebinding

end BerryKeepCurrentNamespace
