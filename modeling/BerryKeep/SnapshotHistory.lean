import BerryKeep.ObjectIdentity

/-!
Snapshot batches and the history of the namespace. The snapshot of an open batch
is rewritten in place, so a binding may live in it alone only as long as it is
current and its path is dirty. `Pending` is the state of a call between the
rotation for the paths it may touch and the recording of those it changed:
the open batch has none of the touched paths, and nothing else has changed.
-/
namespace BerryKeepSnapshotHistory
open FiniteTable TextOperations StatefulProgram BerryKeepContentCodec BerryKeepCatalog
  BerryKeepVersionGraph BerryKeepCurrentNamespace BerryKeepNodeStore BerryKeepStoreOperations
  BerryKeepPathMutations BerryKeepBundleExchange BerryKeepStoreCalls BerryKeepObjectIdentity

def Holds (snapshot : SnapshotManifest) (path : String) (entry : CurrentObjectEntry) : Prop :=
  snapshot.objects.get path = some entry.manifestHash ∧
    snapshot.objectIds.get path = some entry.objectId

def HeldElsewhere (c : Catalog) (path : String) (entry : CurrentObjectEntry) : Prop :=
  ∃ id snapshot, c.snapshots.get id = some snapshot ∧ Holds snapshot path entry ∧
    ∀ batch, c.batch = some batch → id ≠ batch.snapshotId

/-- A call that started from the bindings `base` has rotated for the paths `touched` and
    has not recorded yet. `H` are the bindings that must not get lost. -/
structure Pending (H : String → CurrentObjectEntry → Prop) (touched : Finset String)
    (base : Bindings) (c : Catalog) : Prop where
  shown : ∀ path entry, base.get path = some entry → H path entry
  opened : ∀ batch, c.batch = some batch → ∃ snapshot,
    c.snapshots.get batch.snapshotId = some snapshot ∧
      ∀ path entry, Holds snapshot path entry ↔ base.get path = some entry
  kept : ∀ path entry, H path entry → HeldElsewhere c path entry ∨
    ∃ batch, c.batch = some batch ∧ path ∈ batch.dirtyPaths ∧ base.get path = some entry
  clean : ∀ batch, c.batch = some batch → ∀ path ∈ touched, path ∉ batch.dirtyPaths
  confined : ∀ path, path ∉ touched → c.current.get path = base.get path

section Batches
variable {H : String → CurrentObjectEntry → Prop} {touched : Finset String} {base : Bindings}
  {c d : Catalog}

theorem snapshotOf_holds (id : String) (created_at_unix : Nat) (cur : Bindings) (path : String)
    (entry : CurrentObjectEntry) :
    Holds (snapshotOf id created_at_unix cur) path entry ↔ cur.get path = some entry := by
  unfold Holds snapshotOf
  dsimp only
  rw [get_mapValues, get_mapValues]
  cases cur.get path with
  | none => simp
  | some found =>
    cases found
    cases entry
    simp

theorem pending_congr (pending : Pending H touched base c) (snapshots : d.snapshots = c.snapshots)
    (batch : d.batch = c.batch)
    (confined : ∀ path, path ∉ touched → d.current.get path = base.get path) :
    Pending H touched base d where
  shown := pending.shown
  opened := by
    rw [snapshots, batch]
    exact pending.opened
  kept := by
    unfold HeldElsewhere
    rw [snapshots, batch]
    exact pending.kept
  clean := by
    rw [batch]
    exact pending.clean
  confined := confined

theorem pending_settle (pending : Pending H touched base c)
    (same : ∀ path, c.current.get path = base.get path) : Pending H ∅ c.current c where
  shown := by
    intro path entry bound
    rw [same] at bound
    exact pending.shown path entry bound
  opened := by
    intro batch open_batch
    obtain ⟨snapshot, stored, holds⟩ := pending.opened batch open_batch
    exact ⟨snapshot, stored, fun path entry => by rw [holds, same]⟩
  kept := by
    intro path entry kept
    simp only [same]
    exact pending.kept path entry kept
  clean := by
    intro batch _ path member
    simp at member
  confined := fun _ _ => rfl

theorem rotated_cases (batch : Option ActiveSnapshotBatch) (touched : Finset String) (now : Nat) :
    rotated batch touched now = none ∨ (rotated batch touched now = batch ∧
      ∀ found, batch = some found → ∀ path ∈ touched, path ∉ found.dirtyPaths) := by
  unfold rotated
  split
  · next empty =>
    right
    refine ⟨rfl, fun found _ path member => ?_⟩
    rw [empty] at member
    simp at member
  · cases batch with
    | none => exact .inl rfl
    | some found =>
      by_cases closes : (∃ path ∈ touched, path ∈ found.dirtyPaths) ∨
          now - found.startedAtUnix > snapshotHistoryMaxBatchWindowSecs
      · left
        simp [Option.filter, closes]
      · right
        refine ⟨by simp [Option.filter, closes], fun other same path member dirty => ?_⟩
        cases same
        exact closes (.inl ⟨path, member, dirty⟩)

theorem pending_closed (pending : Pending H ∅ base c) (touched : Finset String)
    (closed : d.batch = none) (snapshots : d.snapshots = c.snapshots)
    (confined : ∀ path, path ∉ touched → d.current.get path = base.get path) :
    Pending H touched base d where
  shown := pending.shown
  opened := by
    intro batch open_batch
    rw [closed] at open_batch
    cases open_batch
  kept := by
    intro path entry kept
    left
    have closed_id : ∀ (id : String) batch, d.batch = some batch → id ≠ batch.snapshotId := by
      intro id batch open_batch
      rw [closed] at open_batch
      cases open_batch
    rcases pending.kept path entry kept with ⟨id, snapshot, stored, holds, _⟩ |
      ⟨batch, open_batch, _, bound⟩
    · exact ⟨id, snapshot, by rw [snapshots]; exact stored, holds, closed_id id⟩
    · obtain ⟨snapshot, stored, holds⟩ := pending.opened batch open_batch
      exact ⟨batch.snapshotId, snapshot, by rw [snapshots]; exact stored,
        (holds path entry).mpr bound, closed_id _⟩
  clean := by
    intro batch open_batch
    rw [closed] at open_batch
    cases open_batch
  confined := confined

theorem rotate_pending (pending : Pending H ∅ c.current c) (touched : Finset String) (now : Nat) :
    Pending H touched c.current { c with batch := rotated c.batch touched now } := by
  rcases rotated_cases c.batch touched now with closed | ⟨same, clean⟩
  · exact pending_closed pending touched closed rfl fun _ _ => rfl
  · refine ⟨pending.shown, ?_, ?_, ?_, fun _ _ => rfl⟩
    · rw [same]
      exact pending.opened
    · unfold HeldElsewhere
      rw [same]
      exact pending.kept
    · rw [same]
      exact clean

/-- The bindings of `H` are accounted for between calls, with those shown now. -/
def Remembers (H : String → CurrentObjectEntry → Prop) (c : Catalog) : Prop :=
  ∃ H' : String → CurrentObjectEntry → Prop, (∀ path entry, H path entry → H' path entry) ∧
    Pending H' ∅ c.current c

theorem extendedBatch_other {id uuid : String} {snapshot : SnapshotManifest}
    (fresh : c.snapshots.get ("snap-batch-" ++ uuid) = none)
    (stored : c.snapshots.get id = some snapshot)
    (other : ∀ batch, c.batch = some batch → id ≠ batch.snapshotId) (changed : Finset String)
    (at_unix : Nat) : id ≠ (extendedBatch c.batch changed at_unix uuid).snapshotId := by
  cases open_batch : c.batch with
  | none =>
    rintro rfl
    exact absurd (stored.symm.trans fresh) (by simp)
  | some batch => exact other batch open_batch

theorem extendedBatch_dirty {batch : ActiveSnapshotBatch} {path : String}
    (open_batch : c.batch = some batch) (dirty : path ∈ batch.dirtyPaths) (changed : Finset String)
    (at_unix : Nat) (uuid : String) :
    path ∈ (extendedBatch c.batch changed at_unix uuid).dirtyPaths := by
  rw [open_batch]
  exact Finset.mem_union_left _ dirty

variable {changed : Finset String}

/-- The recording step. A binding of the touched paths that the open snapshot loses is in
    another one, since the rotation left no touched path dirty. -/
theorem recorded_pending {uuid : String} (pending : Pending H touched base c)
    (covered : ∀ path, c.current.get path ≠ base.get path → path ∈ changed)
    (fresh : c.snapshots.get ("snap-batch-" ++ uuid) = none) (at_unix : Nat) :
    Pending (fun path entry => H path entry ∨ c.current.get path = some entry) ∅ c.current
      (c.recorded changed at_unix uuid) := by
  have old : ∀ path entry, H path entry →
      HeldElsewhere (c.recorded changed at_unix uuid) path entry ∨
        ∃ batch, (c.recorded changed at_unix uuid).batch = some batch ∧
          path ∈ batch.dirtyPaths ∧ c.current.get path = some entry := by
    intro path entry held
    rcases pending.kept path entry held with ⟨id, snapshot, stored, holds, other⟩ |
      ⟨batch, open_batch, dirty, bound⟩
    · have differs := extendedBatch_other fresh stored other changed at_unix
      refine .inl ⟨id, snapshot, ?_, holds, fun batch same => ?_⟩
      · exact (get_put_other _ _ differs).trans stored
      · cases same
        exact differs
    · have untouched : path ∉ touched := fun member =>
        pending.clean batch open_batch path member dirty
      exact .inr ⟨_, rfl, extendedBatch_dirty open_batch dirty changed at_unix uuid,
        (pending.confined path untouched).trans bound⟩
  refine ⟨fun _ _ => .inr, ?_, ?_, ?_, fun _ _ => rfl⟩
  · intro batch same
    cases same
    exact ⟨_, get_put_self _ _ _, snapshotOf_holds _ _ _⟩
  · rintro path entry (held | bound)
    · exact old path entry held
    · by_cases same : c.current.get path = base.get path
      · exact old path entry (pending.shown path entry (same.symm.trans bound))
      · exact .inr ⟨_, rfl, Finset.mem_union_right _ (covered path same), bound⟩
  · intro batch _ path member
    simp at member

theorem recordedIf_remembers {uuid : String} (pending : Pending H touched base c)
    (covered : ∀ path, c.current.get path ≠ base.get path → path ∈ changed)
    (fresh : c.snapshots.get ("snap-batch-" ++ uuid) = none) (at_unix : Nat) :
    Remembers H (c.recordedIf true changed at_unix uuid) := by
  by_cases empty : changed = ∅
  · have same : ∀ path, c.current.get path = base.get path := by
      intro path
      by_contra differs
      have member := covered path differs
      simp [empty] at member
    have unrecorded : c.recordedIf true changed at_unix uuid = c := by
      simp [Catalog.recordedIf, empty]
    rw [unrecorded]
    exact ⟨H, fun _ _ held => held, pending_settle pending same⟩
  · have recorded : c.recordedIf true changed at_unix uuid = c.recorded changed at_unix uuid := by
      simp [Catalog.recordedIf, empty]
    rw [recorded]
    exact ⟨_, fun _ _ => .inl, recorded_pending pending covered fresh at_unix⟩

theorem recordedIf_snapshots {create : Bool} {uuid id : String}
    {at_unix : Nat} {snapshot : SnapshotManifest} (pending : Pending H touched base c)
    (stored : (c.recordedIf create changed at_unix uuid).snapshots.get id = some snapshot) :
    (∃ old, c.snapshots.get id = some old) ∨ id = "snap-batch-" ++ uuid := by
  unfold Catalog.recordedIf at stored
  split at stored
  · exact .inl ⟨snapshot, stored⟩
  · by_cases same : id = (extendedBatch c.batch changed at_unix uuid).snapshotId
    · cases open_batch : c.batch with
      | none =>
        rw [open_batch] at same
        exact .inr same
      | some batch =>
        rw [open_batch] at same
        obtain ⟨old, found, _⟩ := pending.opened batch open_batch
        exact .inl ⟨old, by rw [same]; exact found⟩
    · exact .inl ⟨snapshot, (get_put_other _ _ same).symm.trans stored⟩

end Batches

section Publishing
variable {H : String → CurrentObjectEntry → Prop} {touched : Finset String} {base : Bindings}
  {c d : Catalog} {key object_id : String} {index : FileVersionIndex} {r : Readings}
  {persist rotate create : Bool}

theorem rebound_elsewhere (result : Rebound c d key object_id index persist)
    (object : index.objectId = object_id) {path : String}
    (untouched : path ∉ touchedPathsForObjectId c.current object_id key) :
    d.current.get path = c.current.get path := by
  cases result with
  | refused current _ => rw [current]
  | broken _ _ current _ => rw [current]
  | done changed synced _ =>
    obtain ⟨covered, inside⟩ := sync_changed synced
    by_contra moved
    exact untouched (object ▸ inside (covered path moved))

theorem republished_mid (result : Republished r c key object_id index persist rotate create d)
    (object : index.objectId = object_id)
    (opened : Pending H touched base
      (c.opening rotate (touchedPathsForObjectId c.current object_id key) r.rotateAt))
    (inside : touchedPathsForObjectId c.current object_id key ⊆ touched) :
    ∃ mid changed, Pending H touched base mid ∧ mid.snapshots = c.snapshots ∧
      d = mid.recordedIf create changed r.recordAt r.uuid ∧
      ∀ path, mid.current.get path ≠ c.current.get path → path ∈ changed := by
  have unrecorded : ∀ e : Catalog, e = e.recordedIf create ∅ r.recordAt r.uuid := by
    intro e
    simp [Catalog.recordedIf]
  have confined := opened.confined
  rw [opening_current] at confined
  cases result with
  | refused _ _ _ =>
    exact ⟨_, ∅, opened, opening_snapshots _ _ _, unrecorded _, by simp [opening_current]⟩
  | broken _ _ current _ snapshots batch =>
    refine ⟨d, ∅, pending_congr opened ?_ batch ?_, snapshots, unrecorded d, by simp [current]⟩
    · rw [snapshots, opening_snapshots]
    · rw [current]
      exact confined
  | done mid changed synced _ snapshots batch =>
    obtain ⟨covered, listed⟩ := sync_changed synced
    refine ⟨mid, _, pending_congr opened ?_ batch ?_, snapshots, rfl, ?_⟩
    · rw [snapshots, opening_snapshots]
    · intro path untouched
      rw [← confined path untouched]
      by_contra moved
      exact untouched (inside (object ▸ listed (covered path moved)))
    · intro path moved
      split
      · exact Finset.mem_union_left _ (covered path moved)
      · exact covered path moved

end Publishing

section Stores
variable {H : String → CurrentObjectEntry → Prop} {touched : Finset String} {base : Bindings}
  {s t : Store} {key : String} {index : FileVersionIndex} {r : Readings}
  {persist rotate create : Bool}

/-- No object has two paths, and the identifiers to come name no object and no snapshot. -/
structure Ready (s : Store) : Prop where
  unique : UniqueObjects s.catalog.current
  fresh : GeneratedFresh s
  unused : ∀ n, s.catalog.snapshots.get ("snap-batch-" ++ s.world.uuids n) = none

structure Kept (H : String → CurrentObjectEntry → Prop) (s : Store) : Prop where
  ready : Ready s
  remembers : Remembers H s.catalog

theorem unused_later {uuid : String} (ready : Ready s) (drawn : Draws s t uuid)
    (snapshots : ∀ id snapshot, t.catalog.snapshots.get id = some snapshot →
      (∃ old, s.catalog.snapshots.get id = some old) ∨ id = "snap-batch-" ++ uuid) :
    ∀ n, t.catalog.snapshots.get ("snap-batch-" ++ t.world.uuids n) = none := by
  obtain ⟨k, m, inside, rfl, later⟩ := drawn
  intro n
  rw [later, Option.eq_none_iff_forall_ne_some]
  intro snapshot stored
  rcases snapshots _ snapshot stored with ⟨old, found⟩ | same
  · rw [ready.unused (n + k)] at found
    cases found
  · have equal := ready.fresh.distinct ((String.append_right_inj _).mp same)
    omega

theorem unpublished_ready (same : Unpublished s t) (ready : Ready s) : Ready t := by
  obtain ⟨k, later⟩ := same.later
  refine ⟨same.catalog ▸ ready.unique, fresh_later ready.fresh later ?_, fun n => ?_⟩
  · intro path entry found
    rw [same.catalog] at found
    exact .inl ⟨path, entry, found, rfl⟩
  · rw [same.catalog, later]
    exact ready.unused (n + k)

theorem unpublished_kept (same : Unpublished s t) (kept : Kept H s) : Kept H t :=
  ⟨unpublished_ready same kept.ready, same.catalog ▸ kept.remembers⟩

theorem remembers_mono {H' : String → CurrentObjectEntry → Prop} {c : Catalog}
    (more : ∀ path entry, H path entry → H' path entry) (remembers : Remembers H' c) :
    Remembers H c := by
  obtain ⟨all, includes, pending⟩ := remembers
  exact ⟨all, fun path entry held => includes path entry (more path entry held), pending⟩

theorem rotate_ready (ready : Ready s) (touched : Finset String) :
    Ready (rotatedFor s true touched) :=
  ⟨ready.unique, ⟨ready.fresh.distinct, ready.fresh.unbound⟩, ready.unused⟩

theorem recorded_kept {mid : Catalog} {changed : Finset String} (ready : Ready s)
    (drawn : Draws s t r.uuid) (pending : Pending H touched base mid)
    (covered : ∀ path, mid.current.get path ≠ base.get path → path ∈ changed)
    (snapshots : mid.snapshots = s.catalog.snapshots)
    (ended : t.catalog = mid.recordedIf true changed r.recordAt r.uuid)
    (unique : UniqueObjects mid.current)
    (objects : ∀ path entry, mid.current.get path = some entry →
      ∃ p e, s.catalog.current.get p = some e ∧ e.objectId = entry.objectId) : Kept H t := by
  have unused := unused_later ready drawn fun id snapshot stored => by
    rw [ended] at stored
    rw [← snapshots]
    exact recordedIf_snapshots pending stored
  obtain ⟨k, n, _, uuid, later⟩ := drawn
  refine ⟨⟨?_, fresh_later ready.fresh later ?_, unused⟩, ?_⟩
  · rw [ended, recordedIf_current]
    exact unique
  · intro path entry bound
    rw [ended, recordedIf_current] at bound
    exact .inl (objects path entry bound)
  · rw [ended]
    apply recordedIf_remembers pending covered
    rw [snapshots, uuid]
    exact ready.unused n

theorem target_alone (ready : Ready s) (key : String) :
    touchedPathsForObjectId s.catalog.current (targetObject s key) key = {key} := by
  have free := target_free ready.unique ready.fresh key
  ext path
  unfold touchedPathsForObjectId
  rw [Finset.mem_insert, List.mem_toFinset, Finset.mem_singleton]
  constructor
  · rintro (here | listed)
    · exact here
    · by_contra other
      exact free (.inl ⟨path, listed, other⟩)
  · exact .inl

theorem published_ready (ready : Ready s) (drawn : Draws s t r.uuid)
    (tail : Republished r s.catalog key (targetObject s key) index persist rotate create t.catalog)
    (object : index.objectId = targetObject s key)
    (opened : Pending H touched base (s.catalog.opening rotate
      (touchedPathsForObjectId s.catalog.current (targetObject s key) key) r.rotateAt))
    (inside : touchedPathsForObjectId s.catalog.current (targetObject s key) key ⊆ touched) :
    Ready t := by
  obtain ⟨mid, changed, pending, snapshots, ended, _⟩ := republished_mid tail object opened inside
  refine ⟨rebound_unique tail.rebound ready.unique, target_fresh ready.fresh drawn tail.rebound
    object, unused_later ready drawn fun id snapshot stored => ?_⟩
  rw [ended] at stored
  rw [← snapshots]
  exact recordedIf_snapshots pending stored

theorem published_remembers (ready : Ready s) (drawn : Draws s t r.uuid)
    (tail : Republished r s.catalog key (targetObject s key) index persist rotate true t.catalog)
    (object : index.objectId = targetObject s key)
    (opened : Pending H touched s.catalog.current (s.catalog.opening rotate
      (touchedPathsForObjectId s.catalog.current (targetObject s key) key) r.rotateAt))
    (inside : touchedPathsForObjectId s.catalog.current (targetObject s key) key ⊆ touched) :
    Kept H t := by
  refine ⟨published_ready ready drawn tail object opened inside, ?_⟩
  obtain ⟨mid, changed, pending, snapshots, ended, covered⟩ :=
    republished_mid tail object opened inside
  obtain ⟨k, n, _, uuid, _⟩ := drawn
  rw [ended]
  apply recordedIf_remembers pending covered
  rw [snapshots, uuid]
  exact ready.unused n

theorem rotating_kept (drawn : Draws s t r.uuid)
    (tail : Republished r s.catalog key (targetObject s key) index persist true true t.catalog)
    (object : index.objectId = targetObject s key) (kept : Kept H s) : Kept H t := by
  obtain ⟨ready, all, includes, pending⟩ := kept
  have opened := rotate_pending pending
    (touchedPathsForObjectId s.catalog.current (targetObject s key) key) r.rotateAt
  have done := published_remembers ready drawn tail object opened (Finset.Subset.refl _)
  exact ⟨done.ready, remembers_mono includes done.remembers⟩

theorem written_kept {manifest_hash version_id : String}
    (written : Written s t key (targetObject s key) manifest_hash version_id true)
    (kept : Kept H s) : Kept H t := by
  have object := indexOrEmpty_objectId s.catalog (targetObject s key)
  cases written with
  | again r drawn _ _ tail => exact rotating_kept drawn tail object kept
  | added r drawn _ _ tail => exact rotating_kept drawn tail object kept

theorem confirmed_kept {version_id : String} (confirmed : Confirmed s t key version_id)
    (kept : Kept H s) : Kept H t := by
  obtain ⟨r, drawn, object_id, index, version, bound, loaded, _, _, tail⟩ := confirmed
  have target : targetObject s key = object_id := by
    unfold targetObject
    rw [bound]
    rfl
  rw [← target] at tail loaded
  have object : index.objectId = targetObject s key := s.catalog.indexes.objectId_eq loaded
  exact rotating_kept drawn tail object kept

variable {target : String}

theorem transferred_elsewhere (ready : Ready s)
    (done : Transferred s t target false false) {path : String} (other : path ≠ target) :
    t.catalog.current.get path = s.catalog.current.get path := by
  cases done with
  | refused same => rw [same.catalog]
  | stopped same => exact congrArg (fun c : Catalog => c.current.get path) same.catalog
  | copied done =>
    obtain ⟨r, _, record, object, tail⟩ := done
    apply rebound_elsewhere tail.rebound (indexOrEmpty_objectId s.catalog (targetObject s target))
    change path ∉ touchedPathsForObjectId s.catalog.current (targetObject s target) target
    rw [target_alone ready, Finset.mem_singleton]
    exact other

theorem restored_pending (done : Transferred s t target false false)
    (member : target ∈ touched) (ready : Ready s) (pending : Pending H touched base s.catalog) :
    Ready t ∧ Pending H touched base t.catalog := by
  have inside : touchedPathsForObjectId s.catalog.current (targetObject s target) target ⊆
      touched := by
    rw [target_alone ready]
    exact Finset.singleton_subset_iff.mpr member
  have unchanged : ∀ {u : Store}, Unpublished s u → Ready u ∧ Pending H touched base u.catalog :=
    fun same => ⟨unpublished_ready same ready, same.catalog ▸ pending⟩
  cases done with
  | refused same => exact unchanged same
  | stopped same => exact unchanged same
  | copied done =>
    obtain ⟨r, drawn, record, _, tail⟩ := done
    have object := indexOrEmpty_objectId s.catalog (targetObject s target)
    refine ⟨published_ready (s := s) ready drawn tail object pending inside, ?_⟩
    obtain ⟨mid, changed, published, _, ended, _⟩ := republished_mid tail object pending inside
    rw [ended]
    exact published

theorem transferred_kept (done : Transferred s t target true true)
    (kept : Kept H s) : Kept H t := by
  obtain ⟨ready, all, includes, pending⟩ := kept
  have opened := rotate_pending pending {target} (s.world.seconds 0)
  have rotated := rotate_ready ready {target}
  have open_kept : Kept H (rotatedFor s true {target}) :=
    ⟨rotated, all, includes, pending_settle opened fun _ => rfl⟩
  cases done with
  | refused same => exact unpublished_kept same ⟨ready, all, includes, pending⟩
  | stopped same => exact unpublished_kept same open_kept
  | copied done =>
    obtain ⟨r, drawn, record, _, tail⟩ := done
    have object := indexOrEmpty_objectId (rotatedFor s true {target}).catalog
      (targetObject (rotatedFor s true {target}) target)
    have published := published_remembers rotated drawn tail object opened
      (target_alone rotated target).subset
    exact ⟨published.ready, remembers_mono includes published.remembers⟩

theorem move_elsewhere {cur : Bindings} {from_path to_path path : String}
    {entry : CurrentObjectEntry} (untouched : path ∉ ({from_path, to_path} : Finset String)) :
    ((cur.del from_path).put to_path entry).get path = cur.get path := by
  simp only [Finset.mem_insert, Finset.mem_singleton, not_or] at untouched
  rw [get_put_other _ _ untouched.2, get_del, if_neg untouched.1]

theorem renameMedia_kept (codec : Codec) (overwrite : Bool) (from_path to_path : String)
    (kept : Kept H s) : Kept H ((renameMedia codec overwrite from_path to_path).run s).2 := by
  rcases renameMedia_moved codec overwrite s from_path to_path with
    same | ⟨entry, index, source_head, _, shown, _, _, moved⟩
  · exact unpublished_kept same kept
  obtain ⟨ready, all, includes, pending⟩ := kept
  have opened := rotate_pending pending {from_path, to_path} (s.world.seconds 0)
  cases moved with
  | stopped later catalog =>
    have open_kept : Kept H (rotatedFor s true {from_path, to_path}) :=
      ⟨rotate_ready ready _, all, includes, pending_settle opened fun _ => rfl⟩
    exact unpublished_kept (s := rotatedFor s true {from_path, to_path}) ⟨catalog, later⟩ open_kept
  | moved r drawn manifest short _ _ mid current _ snapshots batch catalog =>
    have moved_pending := pending_congr opened snapshots batch fun path untouched => by
      rw [current]
      exact move_elsewhere untouched
    have renamed := recorded_kept ready drawn moved_pending ?_ snapshots catalog ?_ ?_
    · exact ⟨renamed.ready, remembers_mono includes renamed.remembers⟩
    · intro path moved
      by_contra untouched
      rw [current] at moved
      exact moved (move_elsewhere untouched)
    · rw [current]
      exact move_unique shown ready.unique
    · intro path found bound
      rw [current] at bound
      by_cases here : path = to_path
      · rw [here, get_put_self] at bound
        cases bound
        exact ⟨from_path, entry, shown, rfl⟩
      · rw [get_put_other _ _ here, get_del] at bound
        split at bound
        · cases bound
        · exact ⟨path, found, bound, rfl⟩

theorem recordChangedPaths_kept {all : String → CurrentObjectEntry → Prop}
    (includes : ∀ path entry, H path entry → all path entry) (ready : Ready s)
    (pending : Pending all touched base s.catalog) :
    Kept H ((recordChangedPaths touched base).run s).2 := by
  obtain ⟨r, drawn, ended⟩ := recordChangedPaths_recorded s touched base
  have recorded := recorded_kept ready drawn pending ?_ rfl ended ready.unique fun path entry bound =>
    ⟨path, entry, bound, rfl⟩
  · exact ⟨recorded.ready, remembers_mono includes recorded.remembers⟩
  intro path moved
  have member : path ∈ touched := by
    by_contra untouched
    exact moved (pending.confined path untouched)
  exact Finset.mem_filter.mpr ⟨member, moved⟩

end Stores

section Restores
variable {H : String → CurrentObjectEntry → Prop} {touched : Finset String} {base : Bindings}
  {s : Store} {from_path to_path : String}

theorem targetCandidate_toList (from_path to_path path : String) :
    (targetCandidate from_path to_path path).toList =
      to_path.toList ++ path.toList.drop from_path.toList.length := by
  unfold targetCandidate
  rw [String.toList_append, String.toList_ofList]

theorem startsWith_iff (path beginning : String) : startsWith path beginning = true ↔
    beginning.toList ++ path.toList.drop beginning.toList.length = path.toList := by
  unfold startsWith
  rw [List.isPrefixOf_iff_prefix, List.prefix_iff_eq_append]

theorem targetCandidate_startsWith (from_path to_path path : String) :
    startsWith (targetCandidate from_path to_path path) to_path = true := by
  rw [startsWith_iff, targetCandidate_toList, List.drop_left]

variable {path : String}

theorem targetCandidate_self (below : startsWith path from_path = true) :
    targetCandidate from_path from_path path = path := by
  rw [← String.toList_inj, targetCandidate_toList]
  exact (startsWith_iff _ _).mp below

theorem targetCandidate_injective {a b : String} (a_below : startsWith a from_path = true)
    (b_below : startsWith b from_path = true)
    (same : targetCandidate from_path to_path a = targetCandidate from_path to_path b) : a = b := by
  rw [← String.toList_inj, targetCandidate_toList, targetCandidate_toList,
    List.append_cancel_left_eq] at same
  rw [startsWith_iff] at a_below b_below
  rw [← String.toList_inj, ← a_below, ← b_below, same]

theorem persistCopied_applied (source_path target_path manifest_hash : String)
    (copied_from_object_id copied_from_version_id : Option String)
    (state : VersionConsistencyState) ( version_prefix : String) (create : Bool) :
    Returns (· = .applied) (persistCopiedVersionToTarget source_path target_path manifest_hash
      copied_from_object_id copied_from_version_id state version_prefix create) := by
  unfold persistCopiedVersionToTarget
  refine returns_bind fun object_id => returns_bind fun s => returns_bind fun nanos => ?_
  refine returns_bind fun short => returns_bind fun created_at => returns_bind fun _ => ?_
  exact returns_pure rfl

variable (codec : Codec)

theorem restoreInner_outcome (snapshot : SnapshotManifest)
    (source_path target_path : String) (create overwrite : Bool) (s : Store) :
    Ensures (restoreSnapshotObjectPathInner codec snapshot source_path target_path create overwrite)
      s fun result _ => ∀ outcome, result = .ok outcome → outcome = .applied ∨
        snapshot.objects.get source_path = none ∨
          (source_path ≠ target_path ∧ (s.catalog.current.get target_path).isSome = true) := by
  unfold restoreSnapshotObjectPathInner
  apply ensures_get
  cases found : snapshotRestoreSource s.catalog snapshot source_path with
  | none =>
    intro _ _
    unfold snapshotRestoreSource at found
    exact .inr (.inl (Option.map_eq_none_iff.mp found))
  | some source =>
    unfold restoreObjectPathFromSource
    refine ensures_get (ensures_ite ?_ ?_)
    · rintro ⟨other, taken, _⟩ _ _
      exact .inr (.inr ⟨other, taken⟩)
    · intro _ outcome returned
      left
      have applied : Returns (· = .applied) (unixTs >>= fun rotate_at =>
          onlyIf create (onCatalog (maybeRotateSnapshotBatch {target_path} rotate_at)) >>= fun _ =>
          cloneManifestForKey codec source.manifestHash target_path >>= fun hash =>
          persistCopiedVersionToTarget source_path target_path hash source.objectId
            source.versionId source.state "restore" create) :=
        returns_bind fun _ => returns_bind fun _ => returns_bind fun _ =>
          persistCopied_applied source_path target_path _ _ _ _ _ create
      exact applied s outcome returned

/-- Nothing in the loop of a recursive restore stands in its way: a path is restored in
    place, or its target is free and no other path has the same. -/
def Unobstructed (cur : Bindings) (from_path to_path : String) (sources : List String) : Prop :=
  (∀ path ∈ sources, targetCandidate from_path to_path path = path) ∨
    ((sources.map (targetCandidate from_path to_path)).Nodup ∧
      ∀ path ∈ sources, cur.get (targetCandidate from_path to_path path) = none)

theorem unobstructed_head {cur : Bindings} {rest : List String}
    (free : Unobstructed cur from_path to_path (path :: rest))
    (other : path ≠ targetCandidate from_path to_path path) :
    cur.get (targetCandidate from_path to_path path) = none := by
  rcases free with same | ⟨_, unbound⟩
  · exact absurd (same path List.mem_cons_self).symm other
  · exact unbound path List.mem_cons_self

theorem unobstructed_tail {cur next : Bindings} {rest : List String}
    (free : Unobstructed cur from_path to_path (path :: rest))
    (elsewhere : ∀ other, other ≠ targetCandidate from_path to_path path →
      next.get other = cur.get other) : Unobstructed next from_path to_path rest := by
  rcases free with same | ⟨distinct, unbound⟩
  · exact .inl fun path member => same path (List.mem_cons_of_mem _ member)
  · rw [List.map_cons, List.nodup_cons] at distinct
    refine .inr ⟨distinct.2, fun other member => ?_⟩
    have differs : targetCandidate from_path to_path other ≠
        targetCandidate from_path to_path path := fun same =>
      distinct.1 (same ▸ List.mem_map_of_mem member)
    rw [elsewhere _ differs]
    exact unbound other (List.mem_cons_of_mem _ member)

theorem restoreEach_pending (snapshot : SnapshotManifest)
    (from_path to_path : String) (overwrite : Bool) (sources : List String)
    (listed : ∀ path ∈ sources, snapshot.objects.get path ≠ none)
    (targets : ∀ path ∈ sources, targetCandidate from_path to_path path ∈ touched) :
    ∀ s : Store, Unobstructed s.catalog.current from_path to_path sources → Ready s →
      Pending H touched base s.catalog →
      Ensures (restoreEach codec snapshot from_path to_path overwrite sources) s
        fun result t => ∀ stopped, result = .ok stopped →
          stopped = none ∧ Ready t ∧ Pending H touched base t.catalog := by
  induction sources with
  | nil =>
    intro s _ ready pending stopped returned
    cases returned
    exact ⟨rfl, ready, pending⟩
  | cons path rest ih =>
    intro s free ready pending
    have outcome := restoreInner_outcome codec snapshot path
      (targetCandidate from_path to_path path) false overwrite s
    have done := restoreSnapshotInner_transferred codec s snapshot path
      (targetCandidate from_path to_path path) false overwrite
    unfold restoreEach
    rcases run : (restoreSnapshotObjectPathInner codec snapshot path
      (targetCandidate from_path to_path path) false overwrite).run s with ⟨result, t⟩
    unfold Ensures at outcome done
    rw [run] at outcome done
    cases result with
    | error error =>
      apply ensures_of_run (bind_run_error run)
      intro stopped returned
      cases returned
    | ok result =>
      have applied : result = .applied := by
        rcases outcome result rfl with applied | missing | ⟨other, taken⟩
        · exact applied
        · exact absurd missing (listed path List.mem_cons_self)
        · rw [unobstructed_head free other] at taken
          cases taken
      subst applied
      apply ensures_bind_ok run
      obtain ⟨next_ready, next_pending⟩ := restored_pending done
        (targets path List.mem_cons_self) ready pending
      exact ih (fun path member => listed path (List.mem_cons_of_mem _ member))
        (fun path member => targets path (List.mem_cons_of_mem _ member)) t
        (unobstructed_tail free fun other differs => transferred_elsewhere ready done differs)
        next_ready next_pending

theorem source_paths_listed {snapshot : SnapshotManifest}
    (member : path ∈ (snapshot.objects.keys.filter fun candidate =>
      startsWith candidate from_path).insertionSort (· ≤ ·)) :
    snapshot.objects.get path ≠ none ∧ startsWith path from_path = true := by
  rw [List.mem_insertionSort, List.mem_filter, mem_keys] at member
  obtain ⟨⟨hash, stored⟩, below⟩ := member
  exact ⟨by rw [stored]; simp, below⟩

theorem source_paths_unobstructed (snapshot : SnapshotManifest) {cur : Bindings}
    (free : cur.keys.find? (fun candidate =>
      startsWith candidate to_path && from_path ≠ to_path) = none) :
    Unobstructed cur from_path to_path ((snapshot.objects.keys.filter fun candidate =>
      startsWith candidate from_path).insertionSort (· ≤ ·)) := by
  by_cases same : from_path = to_path
  · subst same
    exact .inl fun path member => targetCandidate_self (source_paths_listed member).2
  · refine .inr ⟨List.Nodup.map_on ?_ ?_, fun path _ => ?_⟩
    · intro a a_listed b b_listed equal
      exact targetCandidate_injective (source_paths_listed a_listed).2
        (source_paths_listed b_listed).2 equal
    · rw [(List.perm_insertionSort _ _).nodup_iff]
      exact (keys_nodup snapshot.objects).filter _
    · rw [Option.eq_none_iff_forall_ne_some]
      intro entry bound
      have listed : targetCandidate from_path to_path path ∈ cur.keys :=
        (mem_keys _ _).mpr ⟨entry, bound⟩
      have outside := List.find?_eq_none.mp free _ listed
      simp [targetCandidate_startsWith, same] at outside

theorem restoreTree_kept (snapshot : SnapshotManifest)
    (snapshot_id from_path to_path : String) (overwrite : Bool) (kept : Kept H s) :
    Ensures (restoreSnapshotTree codec snapshot snapshot_id from_path to_path overwrite) s
      fun result t => (∃ outcome, result = .ok outcome) → Kept H t := by
  unfold restoreSnapshotTree
  refine ensures_get (ensures_ite (fun _ _ => kept) fun _ => ?_)
  split
  · exact fun _ => kept
  · next free =>
    obtain ⟨ready, all, includes, pending⟩ := kept
    have opened := rotate_pending pending (((snapshot.objects.keys.filter fun candidate =>
      startsWith candidate from_path).insertionSort (· ≤ ·)).map fun path =>
        targetCandidate from_path to_path path).toFinset (s.world.seconds 0)
    refine ensures_bind_ok (a := s.world.seconds 0) rfl (ensures_bind_ok (a := ()) rfl ?_)
    refine ensures_bind (restoreEach_pending codec snapshot from_path to_path overwrite _
      (fun path member => (source_paths_listed member).1)
      (fun path member => List.mem_toFinset.mpr (List.mem_map_of_mem member)) _
      (source_paths_unobstructed snapshot free) ?_ opened) ?_ ?_
    · exact ⟨ready.unique, ⟨ready.fresh.distinct, ready.fresh.unbound⟩, ready.unused⟩
    · intro stopped t restored
      obtain ⟨rfl, next_ready, next_pending⟩ := restored stopped rfl
      have recorded := recordChangedPaths_kept includes next_ready next_pending
      exact ensures_mono (ensures_map recorded) fun _ _ kept _ => kept
    · intro error t _
      rintro ⟨_, failed⟩
      cases failed

theorem restoreBatch_kept (requests : List RestoreRequest)
    (sources : List (Option SnapshotRestoreSource)) (kept : Kept H s) :
    Ensures (restoreResolvedVersionPathsBatch codec requests sources) s
      fun result t => (∃ results, result = .ok results) → Kept H t := by
  obtain ⟨ready, all, includes, pending⟩ := kept
  unfold restoreResolvedVersionPathsBatch
  apply ensures_refuseIf
  · rintro _ ⟨_, failed⟩
    cases failed
  intro _
  have opened := rotate_pending pending
    (requests.map fun request => request.targetPath).toFinset (s.world.seconds 0)
  refine ensures_get ?_
  refine ensures_bind_ok (a := s.world.seconds 0) rfl (ensures_bind_ok (a := ()) rfl ?_)
  apply ensures_bind (P := fun _ t => Ready t ∧ Pending all
    (requests.map fun request => request.targetPath).toFinset s.catalog.current t.catalog)
  · apply restoreBatch_invariant codec
      (P := (· ∈ (requests.map fun request => request.targetPath).toFinset))
      (fun _ _ _ member done before => restored_pending done member before.1 before.2)
    · intro item member
      rw [List.mem_toFinset]
      exact List.mem_map_of_mem (List.of_mem_zip member).1
    · exact ⟨⟨ready.unique, ⟨ready.fresh.distinct, ready.fresh.unbound⟩, ready.unused⟩, opened⟩
  · rintro results t ⟨next_ready, next_pending⟩
    have recorded := recordChangedPaths_kept includes next_ready next_pending
    exact ensures_mono (ensures_map recorded) fun _ _ kept _ => kept
  · intro error t _
    rintro ⟨_, failed⟩
    cases failed

theorem restoreSnapshot_kept (snapshot_id from_path to_path : String)
    (isRecursive overwrite : Bool) (kept : Kept H s) :
    Ensures (restoreSnapshotPath codec snapshot_id from_path to_path isRecursive overwrite) s
      fun result t => (isRecursive = true → ∃ outcome, result = .ok outcome) → Kept H t := by
  unfold restoreSnapshotPath
  apply ensures_get
  cases loadSnapshotManifest s.catalog snapshot_id with
  | none => exact fun _ => kept
  | some snapshot =>
    apply ensures_ite
    · intro wanted
      apply ensures_mono (restoreTree_kept codec snapshot snapshot_id from_path to_path overwrite kept)
      intro _ t tree complete
      exact tree (complete wanted)
    · intro _
      apply ensures_bind (P := fun _ t => Kept H t)
        (transferred_kept (restoreSnapshotInner_transferred codec s snapshot from_path to_path
          true overwrite) kept)
      · intro result t next
        cases result <;> exact fun _ => next
      · intro error t next _
        exact next

end Restores

section Result
variable {H : String → CurrentObjectEntry → Prop} {s : Store}

/-- The calls that record a snapshot of what they change. A restore of several paths does
    so at its end only, which it has to reach. -/
def Recording (codec : Codec) (s : Store) : Call → Prop
  | .put _ _ options => options.createSnapshot = true
  | .commit _ _ => True
  | .tombstone _ options => options.createSnapshot = true
  | .rename _ _ _ => True
  | .copy _ _ _ => True
  | .restoreVersion _ _ _ _ => True
  | .restoreSnapshot snapshot_id from_path to_path isRecursive overwrite =>
    isRecursive = true → ∃ outcome,
      ((restoreSnapshotPath codec snapshot_id from_path to_path isRecursive overwrite).run s).1 =
        .ok outcome
  | .restoreBatch requests sources =>
    ∃ results, ((restoreResolvedVersionPathsBatch codec requests sources).run s).1 = .ok results
  | _ => False

def IdentifiersNew (s : Store) : Prop :=
  GeneratedFresh s ∧ ∀ n, s.catalog.snapshots.get ("snap-batch-" ++ s.world.uuids n) = none

variable (codec : Codec)

theorem put_kept (key : String) (payload : Bytes) {options : PutOptions}
    (records : options.createSnapshot = true) (kept : Kept H s) :
    Kept H ((putObjectVersioned codec key payload options).run s).2 := by
  rcases put_written codec s key payload options with same | ⟨version_id, _, written⟩
  · exact unpublished_kept same kept
  · rw [records] at written
    exact written_kept written kept

theorem tombstone_kept (key : String) {options : PutOptions}
    (records : options.createSnapshot = true) (kept : Kept H s) :
    Kept H ((tombstoneObjectSingle key options).run s).2 := by
  rcases tombstone_written s key options with same | written
  · exact unpublished_kept same kept
  · rw [records] at written
    exact written_kept written kept

theorem commit_kept (key version_id : String) (kept : Kept H s) :
    Kept H ((commitVersion key version_id).run s).2 := by
  rcases commit_confirmed s key version_id with same | confirmed
  · exact unpublished_kept same kept
  · exact confirmed_kept confirmed kept

theorem sidecars_kept {media : String → String → StoreM (PathMutationResult × SidecarPathMutation)}
    (verb done gerund : String)
    (move : ∀ s from_path to_path, Kept H s → Kept H ((media from_path to_path).run s).2)
    (fuel : Nat) (from_path to_path : String) (kept : Kept H s) :
    Kept H ((withSidecar verb done gerund media fuel from_path to_path).run s).2 := by
  have follows : ∀ fuel s from_path to_path,
      FollowsSidecars media (fun _ _ _ => True) (fun _ _ => True) fuel s from_path to_path := by
    intro fuel
    induction fuel with
    | zero => intro _ _ _; trivial
    | succ fuel ih =>
      intro s from_path to_path
      refine ⟨trivial, ?_⟩
      split
      · exact ih _ _ _
      · trivial
      · trivial
  exact withSidecar_invariant verb done gerund (fun s a b _ => move s a b)
    (fun _ target _ => tombstone_kept target rfl) fuel s from_path to_path
    (follows fuel s from_path to_path) kept

theorem call_kept (call : Call) (records : Recording codec s call)
    (kept : Kept H s) : Kept H ((call.program codec).run s).2 := by
  cases call
  -- every call is a program whose result is dropped
  all_goals rw [Call.program, ignoreResult_end]
  case put key payload options =>
    exact put_kept codec key payload records kept
  case commit key version_id =>
    exact commit_kept key version_id kept
  case tombstone key options =>
    exact tombstone_kept key records kept
  case rename from_path to_path overwrite =>
    exact sidecars_kept "rename" "moved" "renaming"
      (fun s a b => renameMedia_kept codec overwrite a b) (s.catalog.current.size + 1) from_path
      to_path kept
  case copy from_path to_path overwrite =>
    exact sidecars_kept "copy" "copied" "copying"
      (fun s a b => transferred_kept (copyMedia_transferred codec overwrite s a b))
      (s.catalog.current.size + 1) from_path to_path kept
  case restoreVersion source_path version_id target_path overwrite =>
    exact transferred_kept (restoreVersionPath_transferred codec s _ _ _ overwrite) kept
  case restoreSnapshot snapshot_id from_path to_path isRecursive overwrite =>
    exact restoreSnapshot_kept codec snapshot_id from_path to_path isRecursive overwrite kept records
  case restoreBatch requests sources =>
    exact restoreBatch_kept codec requests sources kept records
  case persistCopied => exact absurd records id
  case importMetadata => exact absurd records id
  case importReplication => exact absurd records id
  case drop => exact absurd records id

theorem step_remembers (t : Store) (step : Step)
    (allowed : IdentifiersNew (step.start t) ∧ Recording codec (step.start t) step.call)
    (before : UniqueObjects t.catalog.current ∧ Remembers H t.catalog) :
    UniqueObjects (exec codec step t).catalog.current ∧ Remembers H (exec codec step t).catalog := by
  have ready : Ready (step.start t) := ⟨before.1, allowed.1.1, allowed.1.2⟩
  have after := call_kept codec step.call allowed.2 ⟨ready, before.2⟩
  exact ⟨after.ready.unique, after.remembers⟩

theorem remembers_held {c : Catalog} {path : String} {entry : CurrentObjectEntry}
    (remembers : Remembers H c) (held : H path entry) :
    ∃ id snapshot, c.snapshots.get id = some snapshot ∧ Holds snapshot path entry := by
  obtain ⟨all, includes, pending⟩ := remembers
  rcases pending.kept path entry (includes path entry held) with ⟨id, snapshot, stored, holds, _⟩ |
    ⟨batch, open_batch, _, bound⟩
  · exact ⟨id, snapshot, stored, holds⟩
  · obtain ⟨snapshot, stored, holds⟩ := pending.opened batch open_batch
    exact ⟨batch.snapshotId, snapshot, stored, (holds path entry).mpr bound⟩

theorem empty_remembers : Remembers (fun _ _ => False) Catalog.empty := by
  refine ⟨fun _ _ => False, fun _ _ held => held, ?_, ?_, ?_, ?_, fun _ _ => rfl⟩
  · intro path entry bound
    cases bound
  · intro batch open_batch
    cases open_batch
  · intro path entry held
    cases held
  · intro batch open_batch
    cases open_batch

/-- In every run from an empty store, whatever was bound after some call is in a stored
    snapshot at the end. -/
theorem every_binding_stays_in_a_snapshot (codec : Codec) (s : Store) (before after : List Step)
    (start : s.catalog = Catalog.empty)
    (allowed : AllSteps (exec codec)
      (fun t step => IdentifiersNew (step.start t) ∧ Recording codec (step.start t) step.call) s
      (before ++ after))
    (path : String) (entry : CurrentObjectEntry)
    (held : (runAll (exec codec) s before).catalog.current.get path = some entry) :
    ∃ id snapshot,
      (runAll (exec codec) s (before ++ after)).catalog.snapshots.get id = some snapshot ∧
        Holds snapshot path entry := by
  have initial : UniqueObjects s.catalog.current ∧ Remembers (fun _ _ => False) s.catalog := by
    rw [start]
    refine ⟨?_, empty_remembers⟩
    intro p q a b bound
    cases bound
  rw [allSteps_append] at allowed
  rw [runAll_append]
  obtain ⟨unique, all, _, pending⟩ := run_invariant
    (fun t => UniqueObjects t.catalog.current ∧ Remembers (fun _ _ => False) t.catalog)
    (fun t step => step_remembers codec t step) before s allowed.1 initial
  -- The binding is shown now, so it is one of those that have to stay.
  have now : Remembers (fun p e => p = path ∧ e = entry) (runAll (exec codec) s before).catalog := by
    refine ⟨all, ?_, pending⟩
    rintro p e ⟨rfl, rfl⟩
    exact pending.shown p e held
  obtain ⟨_, remembers⟩ := run_invariant
    (fun t => UniqueObjects t.catalog.current ∧
      Remembers (fun p e => p = path ∧ e = entry) t.catalog)
    (fun t step => step_remembers codec t step) after _ allowed.2 ⟨unique, now⟩
  exact remembers_held remembers ⟨rfl, rfl⟩

theorem stepAt_new (t : Store) (second nano : Nat) (uuid : String) (call : Call)
    (apart : ∀ entry ∈ t.catalog.current.values,
      ("obj-" ++ uuid).toList.isPrefixOf entry.objectId.toList = false)
    (unnamed : ∀ id ∈ t.catalog.snapshots.keys,
      ("snap-batch-" ++ uuid).toList.isPrefixOf id.toList = false) :
    IdentifiersNew ((stepAt second nano uuid call).start t) := by
  refine ⟨stepAt_fresh t second nano uuid call apart, fun n => ?_⟩
  rw [Option.eq_none_iff_forall_ne_some]
  intro snapshot stored
  have differs := unnamed _ ((mem_keys _ _).mpr ⟨snapshot, stored⟩)
  have starts : ("snap-batch-" ++ uuid).toList <+:
      ("snap-batch-" ++ (stepAt second nano uuid call).world.uuids n).toList :=
    ⟨List.replicate n '.', by simp [stepAt]⟩
  rw [← List.isPrefixOf_iff_prefix] at starts
  exact absurd (starts.symm.trans differs) (by simp)

def writeStep : Step := stepAt 10 100 "p" (.put "a" [] PutOptions.default)

def deleteStep : Step := stepAt 10 200 "t" (.tombstone "a" PutOptions.default)

theorem writeStep_shown :
    let s := exec emptyManifestsCodec writeStep emptyNode
    s.catalog.current.get "a" = some
        ⟨"8b66d6e5a59ceaa78f396aa95b106a8f88f3f0af23b30cb58ec2d96dfacb449a", "obj-p"⟩ ∧
      (∀ entry ∈ s.catalog.current.values,
        ("obj-" ++ "t").toList.isPrefixOf entry.objectId.toList = false) ∧
      (∀ id ∈ s.catalog.snapshots.keys,
        ("snap-batch-" ++ "t").toList.isPrefixOf id.toList = false) ∧
      (exec emptyManifestsCodec deleteStep s).catalog.current.get "a" = none := by
  decide +kernel

theorem deleted_binding_stays_in_a_snapshot :
    let s := runAll (exec emptyManifestsCodec) emptyNode ([writeStep] ++ [deleteStep])
    s.catalog.current.get "a" = none ∧ ∃ id snapshot,
      s.catalog.snapshots.get id = some snapshot ∧ Holds snapshot "a"
        ⟨"8b66d6e5a59ceaa78f396aa95b106a8f88f3f0af23b30cb58ec2d96dfacb449a", "obj-p"⟩ := by
  obtain ⟨shown, apart, unnamed, gone⟩ := writeStep_shown
  refine ⟨gone, every_binding_stays_in_a_snapshot emptyManifestsCodec emptyNode [writeStep]
    [deleteStep] rfl ⟨⟨?_, rfl⟩, ⟨?_, rfl⟩, trivial⟩ "a" _ shown⟩
  · exact stepAt_new _ _ _ _ _ (fun entry member => by cases member)
      (fun id member => by cases member)
  · exact stepAt_new _ _ _ _ _ apart unnamed

end Result

end BerryKeepSnapshotHistory
