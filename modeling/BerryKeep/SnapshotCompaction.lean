import Mathlib.Data.Finset.Sort
import BerryKeep.Catalog

/-!
The compaction of the snapshot history. One pass reads the stored snapshots from
the oldest to the newest and decides about each of them a round late: a snapshot
is kept when the next one changes a path that is already dirty, or comes too late
for the open batch, and the newest is always kept. `Progress` is what the pass
knows after a prefix of the snapshots: every binding seen so far is in a kept
snapshot or in the last one read, and the last one read differs from a kept one
on dirty paths only.
-/
namespace BerryKeepSnapshotCompaction
open FiniteTable TextOperations StatefulProgram BerryKeepContentCodec BerryKeepCatalog

def snapshotHistoryCompactionSampleLimit : Nat := 64
def snapshotHistoryCompactionChangedPathSampleLimit : Nat := 8

structure SnapshotInfo where
  id : String
  createdAtUnix : Nat
  objectCount : Nat

inductive RemovalReason where
  | batchedDistinctPaths
  | duplicateState
  deriving DecidableEq

structure RemovedSnapshot where
  snapshotId : String
  createdAtUnix : Nat
  changedPathCount : Nat
  sampledChangedPaths : List String
  reason : RemovalReason

structure CompactionReport where
  dryRun : Bool
  maxBatchWindowSecs : Nat := snapshotHistoryMaxBatchWindowSecs
  snapshotsScanned : Nat := 0
  snapshotsBefore : Nat := 0
  snapshotsRetained : Nat := 0
  removableSnapshots : Nat := 0
  removedSnapshots : Nat := 0
  overlapFlushBoundaries : Nat := 0
  timeWindowFlushBoundaries : Nat := 0
  duplicateStateSnapshots : Nat := 0
  vacuumedMetadataDb : Bool := false
  sampledRemovedSnapshots : List RemovedSnapshot := []
  sampledRemovedSnapshotsTruncated : Bool := false

def loadSnapshotById (c : Catalog) (id : String) : Option SnapshotManifest :=
  (c.snapshots.get id).map normalizeSnapshotManifestObjectIds

def InfoBefore (a b : SnapshotInfo) : Prop :=
  a.createdAtUnix < b.createdAtUnix ∨ a.createdAtUnix = b.createdAtUnix ∧ a.id ≤ b.id

instance : DecidableRel InfoBefore := fun a b => by unfold InfoBefore; infer_instance

def infoOf (row : String × SnapshotManifest) : SnapshotInfo :=
  ⟨row.1, row.2.createdAtUnix, row.2.objects.size⟩

def listSnapshotInfos (c : Catalog) : List SnapshotInfo :=
  (c.snapshots.entries.map infoOf).insertionSort fun a b => InfoBefore b a

def snapshotPathBinding (snapshot : Option SnapshotManifest) (path : String) :
    Option String × Option String :=
  (snapshot.bind fun manifest => manifest.objects.get path,
    snapshot.bind fun manifest => manifest.objectIds.get path)

def snapshotPaths (snapshot : SnapshotManifest) : Finset String :=
  snapshot.objects.keys.toFinset ∪ snapshot.objectIds.keys.toFinset

def snapshotChangedPaths (previous : Option SnapshotManifest) (snapshot : SnapshotManifest) :
    Finset String :=
  let candidate_paths := (previous.elim ∅ snapshotPaths) ∪ snapshotPaths snapshot
  candidate_paths.filter fun path =>
    snapshotPathBinding previous path ≠ snapshotPathBinding (some snapshot) path

structure CompactionPass where
  retainedSnapshotIds : Finset String := ∅
  removableSnapshots : List RemovedSnapshot := []
  dirtyPaths : Finset String := ∅
  batchStartCreatedAtUnix : Option Nat := none
  previousSnapshot : Option SnapshotManifest := none
  previousSnapshotChangedPaths : Finset String := ∅
  overlapFlushBoundaries : Nat := 0
  timeWindowFlushBoundaries : Nat := 0
  duplicateStateSnapshots : Nat := 0

def CompactionPass.hasOverlap (pass : CompactionPass) (changed_paths : Finset String) : Bool :=
  decide (∃ path ∈ changed_paths, path ∈ pass.dirtyPaths)

def CompactionPass.exceedsTimeWindow (pass : CompactionPass) (changed_paths : Finset String)
    (snapshot : SnapshotManifest) : Bool :=
  decide (changed_paths ≠ ∅) && pass.batchStartCreatedAtUnix.any fun started_at_unix =>
    decide (snapshot.createdAtUnix - started_at_unix > snapshotHistoryMaxBatchWindowSecs)

def CompactionPass.count (pass : CompactionPass) (changed_paths : Finset String) : CompactionPass :=
  if changed_paths = ∅ then
    { pass with duplicateStateSnapshots := pass.duplicateStateSnapshots + 1 }
  else pass

/-- Close the batch: the snapshot before the boundary is kept. A previous snapshot is known
    from the second round on, so the match stands for the test of the index. -/
def CompactionPass.flush (pass : CompactionPass) (has_overlap exceeds_time_window : Bool) :
    CompactionPass :=
  match pass.previousSnapshot with
  | none => pass
  | some previous =>
    if has_overlap || exceeds_time_window then
      { pass with
        retainedSnapshotIds := insert previous.id pass.retainedSnapshotIds
        overlapFlushBoundaries := pass.overlapFlushBoundaries + has_overlap.toNat
        timeWindowFlushBoundaries := pass.timeWindowFlushBoundaries + exceeds_time_window.toNat
        dirtyPaths := ∅
        batchStartCreatedAtUnix := none }
    else pass

def CompactionPass.extend (pass : CompactionPass) (changed_paths : Finset String)
    (created_at_unix : Nat) : CompactionPass :=
  if changed_paths = ∅ then pass
  else { pass with
    batchStartCreatedAtUnix := some (pass.batchStartCreatedAtUnix.getD created_at_unix)
    dirtyPaths := pass.dirtyPaths ∪ changed_paths }

def CompactionPass.settle (pass : CompactionPass) : CompactionPass :=
  match pass.previousSnapshot with
  | none => pass
  | some previous =>
    let retained := previous.id ∈ pass.retainedSnapshotIds
    let reason :=
      if pass.previousSnapshotChangedPaths = ∅ then some RemovalReason.duplicateState
      else if ¬retained then some RemovalReason.batchedDistinctPaths
      else none
    match reason with
    | none => pass
    | some reason =>
      if ¬retained then
        { pass with
          removableSnapshots := pass.removableSnapshots ++ [
            { snapshotId := previous.id
              createdAtUnix := previous.createdAtUnix
              changedPathCount := pass.previousSnapshotChangedPaths.card
              sampledChangedPaths := (pass.previousSnapshotChangedPaths.sort (· ≤ ·)).take
                snapshotHistoryCompactionChangedPathSampleLimit
              reason := reason }] }
      else pass

def CompactionPass.step (pass : CompactionPass) (snapshot : SnapshotManifest) : CompactionPass :=
  let changed_paths := snapshotChangedPaths pass.previousSnapshot snapshot
  let pass := pass.count changed_paths
  let pass := pass.flush (pass.hasOverlap changed_paths)
    (pass.exceedsTimeWindow changed_paths snapshot)
  let pass := (pass.extend changed_paths snapshot.createdAtUnix).settle
  { pass with
    previousSnapshot := some snapshot
    previousSnapshotChangedPaths := changed_paths }

def sortedSnapshotInfos (c : Catalog) : List SnapshotInfo :=
  (listSnapshotInfos c).insertionSort InfoBefore

def scanRound (pass : CompactionPass) (info : SnapshotInfo) : CatalogM CompactionPass := do
  let c ← get
  match loadSnapshotById c info.id with
  | none => throw (.bail ("snapshot " ++ info.id ++ " missing during compaction"))
  | some snapshot => return pass.step snapshot

def scanSnapshotHistory (snapshot_infos : List SnapshotInfo) : CatalogM CompactionPass :=
  foldEach snapshot_infos {} scanRound

def deleteSnapshotsById (snapshot_ids : List String) : CatalogM Unit :=
  modify fun c => { c with snapshots := c.snapshots.delAll snapshot_ids }

def compactSnapshotHistory (vacuumed dry_run : Bool) : CatalogM CompactionReport := do
  let c ← get
  let snapshot_infos := sortedSnapshotInfos c
  let report : CompactionReport :=
    { dryRun := dry_run
      snapshotsScanned := snapshot_infos.length
      snapshotsBefore := snapshot_infos.length }
  match snapshot_infos.getLast? with
  | none => return report
  | some latest =>
    let pass ← scanSnapshotHistory snapshot_infos
    let removable_ids := pass.removableSnapshots.map (·.snapshotId)
    let report : CompactionReport := { report with
      overlapFlushBoundaries := pass.overlapFlushBoundaries
      timeWindowFlushBoundaries := pass.timeWindowFlushBoundaries
      duplicateStateSnapshots := pass.duplicateStateSnapshots
      snapshotsRetained := (insert latest.id pass.retainedSnapshotIds).card
      removableSnapshots := pass.removableSnapshots.length
      sampledRemovedSnapshots :=
        pass.removableSnapshots.take snapshotHistoryCompactionSampleLimit
      sampledRemovedSnapshotsTruncated :=
        decide (pass.removableSnapshots.length > snapshotHistoryCompactionSampleLimit) }
    if dry_run || pass.removableSnapshots.isEmpty then return report
    deleteSnapshotsById removable_ids
    return { report with
      vacuumedMetadataDb := vacuumed
      removedSnapshots := removable_ids.length }

theorem mem_snapshotChangedPaths (previous : Option SnapshotManifest) (snapshot : SnapshotManifest)
    (path : String) : path ∈ snapshotChangedPaths previous snapshot ↔
      snapshotPathBinding previous path ≠ snapshotPathBinding (some snapshot) path := by
  -- A path outside both snapshots has no binding in either, so the candidates suffice.
  have unlisted : ∀ manifest : SnapshotManifest, path ∉ snapshotPaths manifest →
      snapshotPathBinding (some manifest) path = (none, none) := by
    intro manifest outside
    simp only [snapshotPaths, Finset.mem_union, List.mem_toFinset, mem_keys, not_or, not_exists]
      at outside
    have no_hash := Option.eq_none_iff_forall_ne_some.mpr outside.1
    have no_object := Option.eq_none_iff_forall_ne_some.mpr outside.2
    simp [snapshotPathBinding, no_hash, no_object]
  simp only [snapshotChangedPaths, Finset.mem_filter, Finset.mem_union, and_iff_right_iff_imp]
  intro differs
  by_contra outside
  rw [not_or] at outside
  apply differs
  rw [unlisted snapshot outside.2]
  cases previous with
  | none => rfl
  | some manifest => exact unlisted manifest outside.1

section Rounds
variable (pass : CompactionPass)

@[simp] theorem count_retained (changed : Finset String) :
    (pass.count changed).retainedSnapshotIds = pass.retainedSnapshotIds := by
  unfold CompactionPass.count
  split <;> rfl

@[simp] theorem count_removable (changed : Finset String) :
    (pass.count changed).removableSnapshots = pass.removableSnapshots := by
  unfold CompactionPass.count
  split <;> rfl

@[simp] theorem count_previous (changed : Finset String) :
    (pass.count changed).previousSnapshot = pass.previousSnapshot := by
  unfold CompactionPass.count
  split <;> rfl

@[simp] theorem count_dirty (changed : Finset String) :
    (pass.count changed).dirtyPaths = pass.dirtyPaths := by
  unfold CompactionPass.count
  split <;> rfl

@[simp] theorem extend_retained (changed : Finset String) (created : Nat) :
    (pass.extend changed created).retainedSnapshotIds = pass.retainedSnapshotIds := by
  unfold CompactionPass.extend
  split <;> rfl

@[simp] theorem extend_removable (changed : Finset String) (created : Nat) :
    (pass.extend changed created).removableSnapshots = pass.removableSnapshots := by
  unfold CompactionPass.extend
  split <;> rfl

@[simp] theorem extend_previous (changed : Finset String) (created : Nat) :
    (pass.extend changed created).previousSnapshot = pass.previousSnapshot := by
  unfold CompactionPass.extend
  split <;> rfl

@[simp] theorem extend_dirty (changed : Finset String) (created : Nat) :
    (pass.extend changed created).dirtyPaths = pass.dirtyPaths ∪ changed := by
  unfold CompactionPass.extend
  split
  · next unchanged => simp [unchanged]
  · rfl

@[simp] theorem settle_retained :
    pass.settle.retainedSnapshotIds = pass.retainedSnapshotIds := by
  unfold CompactionPass.settle
  split
  · rfl
  · dsimp only
    split
    · rfl
    · split <;> rfl

@[simp] theorem settle_dirty : pass.settle.dirtyPaths = pass.dirtyPaths := by
  unfold CompactionPass.settle
  split
  · rfl
  · dsimp only
    split
    · rfl
    · split <;> rfl

def removableIds (pass : CompactionPass) : List String :=
  pass.removableSnapshots.map (·.snapshotId)

theorem settle_removable : removableIds pass.settle = removableIds pass ++
    (pass.previousSnapshot.toList.map (·.id)).filter (· ∉ pass.retainedSnapshotIds) := by
  unfold CompactionPass.settle removableIds
  cases pass.previousSnapshot with
  | none => simp
  | some previous =>
    by_cases kept : previous.id ∈ pass.retainedSnapshotIds <;>
      by_cases same : pass.previousSnapshotChangedPaths = ∅ <;> simp [kept, same]

@[simp] theorem flush_removable (has_overlap exceeds_time_window : Bool) :
    (pass.flush has_overlap exceeds_time_window).removableSnapshots =
      pass.removableSnapshots := by
  unfold CompactionPass.flush
  split
  · rfl
  · split <;> rfl

@[simp] theorem flush_previous (has_overlap exceeds_time_window : Bool) :
    (pass.flush has_overlap exceeds_time_window).previousSnapshot = pass.previousSnapshot := by
  unfold CompactionPass.flush
  split
  · rfl
  · split <;> rfl

theorem flush_cases (changed : Finset String) (exceeds_time_window : Bool) :
    let flushed := pass.flush (pass.hasOverlap changed) exceeds_time_window
    (∃ last, pass.previousSnapshot = some last ∧ flushed.dirtyPaths = ∅ ∧
      flushed.retainedSnapshotIds = insert last.id pass.retainedSnapshotIds) ∨
    flushed = pass ∧
      (pass.previousSnapshot ≠ none → ∀ path ∈ changed, path ∉ pass.dirtyPaths) := by
  unfold CompactionPass.flush
  cases known : pass.previousSnapshot with
  | none => simp
  | some last =>
    by_cases boundary : (pass.hasOverlap changed || exceeds_time_window) = true
    · simp [boundary]
    · right
      simp only [boundary, if_neg, Bool.false_eq_true, not_false_eq_true, true_and]
      intro _ path member dirty
      have overlap : pass.hasOverlap changed = true := decide_eq_true ⟨path, member, dirty⟩
      simp [overlap] at boundary

variable (snapshot : SnapshotManifest)

theorem step_previous :
    (pass.step snapshot).previousSnapshot = some snapshot := rfl

theorem step_cases :
    let changed := snapshotChangedPaths pass.previousSnapshot snapshot
    (∃ last, pass.previousSnapshot = some last ∧ (pass.step snapshot).dirtyPaths = changed ∧
      (pass.step snapshot).retainedSnapshotIds = insert last.id pass.retainedSnapshotIds) ∨
    (pass.step snapshot).retainedSnapshotIds = pass.retainedSnapshotIds ∧
      (pass.step snapshot).dirtyPaths = pass.dirtyPaths ∪ changed ∧
      (pass.previousSnapshot ≠ none → ∀ path ∈ changed, path ∉ pass.dirtyPaths) := by
  intro changed
  rcases flush_cases (pass.count changed) changed
    ((pass.count changed).exceedsTimeWindow changed snapshot) with
    ⟨last, known, dirty, retained⟩ | ⟨open_batch, clean⟩
  · left
    refine ⟨last, by simpa using known, ?_, ?_⟩
    · simp [CompactionPass.step, changed, dirty]
    · simpa [CompactionPass.step] using retained
  · right
    refine ⟨?_, ?_, by simpa using clean⟩
    · simp [CompactionPass.step, changed, open_batch]
    · simp [CompactionPass.step, changed, open_batch]

theorem step_removable :
    removableIds (pass.step snapshot) = removableIds pass ++
      (pass.previousSnapshot.toList.map (·.id)).filter
        (· ∉ (pass.step snapshot).retainedSnapshotIds) := by
  simp only [CompactionPass.step]
  exact (settle_removable _).trans (by simp [removableIds])

end Rounds

def KeptBinding (read : List SnapshotManifest) (retained : Finset String) (path : String)
    (binding : Option String × Option String) : Prop :=
  ∃ snapshot ∈ read, snapshot.id ∈ retained ∧ snapshotPathBinding (some snapshot) path = binding

structure Progress (read : List SnapshotManifest) (pass : CompactionPass) : Prop where
  previous : pass.previousSnapshot = read.getLast?
  retained : ∀ id ∈ pass.retainedSnapshotIds, id ∈ read.dropLast.map (·.id)
  decided : removableIds pass =
    (read.dropLast.map (·.id)).filter (· ∉ pass.retainedSnapshotIds)
  covered : ∀ snapshot ∈ read, ∀ path hash object_id,
    snapshotPathBinding (some snapshot) path = (some hash, object_id) →
      KeptBinding read pass.retainedSnapshotIds path (some hash, object_id) ∨
        snapshotPathBinding pass.previousSnapshot path = (some hash, object_id)
  clean : ∀ path, path ∉ pass.dirtyPaths → ∀ hash object_id,
    snapshotPathBinding pass.previousSnapshot path = (some hash, object_id) →
      KeptBinding read pass.retainedSnapshotIds path (some hash, object_id)

theorem progress_start : Progress [] {} where
  previous := rfl
  retained := by simp
  decided := rfl
  covered := by simp
  clean := by
    intro path _ hash object_id bound
    simp [snapshotPathBinding] at bound

section Step
variable {read : List SnapshotManifest} {pass : CompactionPass} {snapshot : SnapshotManifest}

theorem keptBinding_mono {more : Finset String} {path : String}
    {binding : Option String × Option String} (larger : pass.retainedSnapshotIds ⊆ more)
    (kept : KeptBinding read pass.retainedSnapshotIds path binding) :
    KeptBinding (read ++ [snapshot]) more path binding := by
  obtain ⟨holder, member, retained, bound⟩ := kept
  exact ⟨holder, List.mem_append_left _ member, larger retained, bound⟩

theorem step_retained_subset :
    pass.retainedSnapshotIds ⊆ (pass.step snapshot).retainedSnapshotIds := by
  rcases step_cases pass snapshot with ⟨last, -, -, retained⟩ | ⟨retained, -, -⟩
  · rw [retained]
    exact Finset.subset_insert _ _
  · rw [retained]

theorem step_retained_cases {id : String}
    (member : id ∈ (pass.step snapshot).retainedSnapshotIds) :
    id ∈ pass.retainedSnapshotIds ∨ ∃ last, pass.previousSnapshot = some last ∧ last.id = id := by
  rcases step_cases pass snapshot with ⟨last, known, -, retained⟩ | ⟨retained, -, -⟩
  · rw [retained, Finset.mem_insert] at member
    rcases member with rfl | before
    · exact .inr ⟨last, known, rfl⟩
    · exact .inl before
  · rw [retained] at member
    exact .inl member

/-- A binding of the last snapshot read is kept by the next round, or the next snapshot has
    it as well and its path was dirty and stays so. -/
theorem step_hands_on (progress : Progress read pass) {path hash : String}
    {object_id : Option String}
    (bound : snapshotPathBinding pass.previousSnapshot path = (some hash, object_id)) :
    KeptBinding (read ++ [snapshot]) (pass.step snapshot).retainedSnapshotIds path
        (some hash, object_id) ∨
      path ∉ snapshotChangedPaths pass.previousSnapshot snapshot ∧
        path ∈ (pass.step snapshot).dirtyPaths := by
  rcases step_cases pass snapshot with ⟨last, known, -, retained⟩ | ⟨retained, dirty, clean⟩
  · left
    have member : last ∈ read := by
      rw [progress.previous] at known
      exact List.mem_of_getLast? known
    rw [known] at bound
    exact ⟨last, List.mem_append_left _ member, by simp [retained], bound⟩
  · by_cases was_dirty : path ∈ pass.dirtyPaths
    · right
      have known : pass.previousSnapshot ≠ none := by
        intro absent
        simp [absent, snapshotPathBinding] at bound
      constructor
      · intro changed
        exact clean known path changed was_dirty
      · simp [dirty, was_dirty]
    · left
      exact keptBinding_mono step_retained_subset
        (progress.clean path was_dirty hash object_id bound)

theorem step_progress (distinct : ((read ++ [snapshot]).map (·.id)).Nodup)
    (progress : Progress read pass) : Progress (read ++ [snapshot]) (pass.step snapshot) where
  previous := by rw [step_previous, List.getLast?_append]; rfl
  retained := by
    intro id member
    rw [List.dropLast_concat]
    rcases step_retained_cases member with before | ⟨last, known, rfl⟩
    · have early := progress.retained id before
      obtain ⟨holder, listed, same⟩ := List.mem_map.mp early
      exact List.mem_map.mpr ⟨holder, List.mem_of_mem_dropLast listed, same⟩
    · rw [progress.previous] at known
      exact List.mem_map.mpr ⟨last, List.mem_of_getLast? known, rfl⟩
  decided := by
    rw [List.dropLast_concat, step_removable, progress.decided]
    cases read using List.reverseRecOn with
    | nil => simp [progress.previous]
    | append_singleton front last =>
      have known : pass.previousSnapshot = some last := by simp [progress.previous]
      have others : ∀ id ∈ front.map (·.id),
          (id ∉ pass.retainedSnapshotIds ↔ id ∉ (pass.step snapshot).retainedSnapshotIds) := by
        intro id listed
        have ne : last.id ≠ id := by
          simp only [List.map_append, List.map_cons, List.map_nil, List.append_assoc] at distinct
          intro same
          have apart := (List.nodup_append.mp distinct).2.2 id listed last.id (by simp)
          exact apart same.symm
        constructor
        · intro absent member
          rcases step_retained_cases member with before | ⟨found, is_last, same⟩
          · exact absent before
          · rw [known] at is_last
            cases is_last
            exact ne same
        · intro absent member
          exact absent (step_retained_subset member)
      rw [List.dropLast_concat, known, List.map_append, List.filter_append]
      congr 1
      apply List.filter_congr
      intro id listed
      have same := others id listed
      simp [same]
  covered := by
    intro holder member path hash object_id bound
    rcases List.mem_append.mp member with earlier | current
    · rcases progress.covered holder earlier path hash object_id bound with kept | last
      · exact .inl (keptBinding_mono step_retained_subset kept)
      · rcases step_hands_on progress last with kept | ⟨unchanged, -⟩
        · exact .inl kept
        · rw [mem_snapshotChangedPaths, not_not] at unchanged
          right
          rw [step_previous, ← unchanged, last]
    · rw [List.mem_singleton.mp current] at bound
      exact .inr bound
  clean := by
    intro path clean hash object_id bound
    have unchanged : path ∉ snapshotChangedPaths pass.previousSnapshot snapshot := by
      rcases step_cases pass snapshot with ⟨last, -, dirty, -⟩ | ⟨-, dirty, -⟩
      · rwa [dirty] at clean
      · rw [dirty, Finset.mem_union, not_or] at clean
        exact clean.2
    rw [mem_snapshotChangedPaths, not_not] at unchanged
    rw [step_previous, ← unchanged] at bound
    rcases step_hands_on progress bound with kept | ⟨-, dirty⟩
    · exact kept
    · exact absurd dirty clean

end Step

def scanned (snapshots : List SnapshotManifest) : CompactionPass :=
  snapshots.foldl CompactionPass.step {}

theorem scanned_progress {snapshots : List SnapshotManifest}
    (distinct : (snapshots.map (·.id)).Nodup) : Progress snapshots (scanned snapshots) := by
  have rounds := foldl_invariant (f := CompactionPass.step)
    (fun read pass => (read.map (·.id)).Nodup → Progress read pass)
    (fun read snapshot pass before distinct => by
      have front : (read.map (·.id)).Nodup := by
        rw [List.map_append] at distinct
        exact (List.nodup_append.mp distinct).1
      exact step_progress distinct (before front))
    snapshots (fun _ => progress_start)
  exact rounds distinct

section Infos
variable (c : Catalog)

theorem mem_sortedSnapshotInfos (info : SnapshotInfo) : info ∈ sortedSnapshotInfos c ↔
    ∃ manifest, c.snapshots.get info.id = some manifest ∧ infoOf (info.id, manifest) = info := by
  unfold sortedSnapshotInfos listSnapshotInfos
  rw [List.mem_insertionSort, List.mem_insertionSort, List.mem_map]
  constructor
  · rintro ⟨⟨id, manifest⟩, listed, rfl⟩
    exact ⟨manifest, (mem_entries _ _ _).mp listed, rfl⟩
  · rintro ⟨manifest, stored, same⟩
    exact ⟨(info.id, manifest), (mem_entries _ _ _).mpr stored, same⟩

theorem sortedSnapshotInfos_ids : ((sortedSnapshotInfos c).map (·.id)).Perm c.snapshots.keys := by
  have sorted : (sortedSnapshotInfos c).Perm (c.snapshots.entries.map infoOf) :=
    (List.perm_insertionSort _ _).trans (List.perm_insertionSort _ _)
  have ids := sorted.map (·.id)
  rwa [List.map_map, show ((·.id) ∘ infoOf) = Prod.fst from rfl, entries_keys] at ids

theorem infoBefore_total (a b : SnapshotInfo) : InfoBefore a b ∨ InfoBefore b a := by
  unfold InfoBefore
  rcases Nat.lt_trichotomy a.createdAtUnix b.createdAtUnix with earlier | same | later
  · exact .inl (.inl earlier)
  · rcases le_total a.id b.id with before | after
    · exact .inl (.inr ⟨same, before⟩)
    · exact .inr (.inr ⟨same.symm, after⟩)
  · exact .inr (.inl later)

theorem infoBefore_trans {a b d : SnapshotInfo} (first : InfoBefore a b) (next : InfoBefore b d) :
    InfoBefore a d := by
  rcases first with earlier | ⟨same, before⟩
  · rcases next with later | ⟨equal, -⟩
    · exact .inl (earlier.trans later)
    · exact .inl (equal ▸ earlier)
  · rcases next with later | ⟨equal, after⟩
    · exact .inl (same ▸ later)
    · exact .inr ⟨same.trans equal, before.trans after⟩

theorem sortedSnapshotInfos_pairwise : (sortedSnapshotInfos c).Pairwise InfoBefore := by
  have : Std.Total InfoBefore := ⟨infoBefore_total⟩
  have : IsTrans SnapshotInfo InfoBefore := ⟨fun _ _ _ => infoBefore_trans⟩
  exact List.pairwise_insertionSort InfoBefore _

end Infos

def StoredUnderOwnId (c : Catalog) : Prop :=
  ∀ id manifest, c.snapshots.get id = some manifest → manifest.id = id

variable {c : Catalog}

theorem recorded_storedUnderOwnId (own : StoredUnderOwnId c)
    (changed_paths : Finset String) (changed_at_unix : Nat) (uuid : String) :
    StoredUnderOwnId (c.recorded changed_paths changed_at_unix uuid) := by
  intro id manifest stored
  rcases get_put_some stored with ⟨same, rfl⟩ | ⟨-, stored⟩
  · exact same.symm
  · exact own id manifest stored

def IsNewest (c : Catalog) (id : String) : Prop :=
  ∃ newest, c.snapshots.get id = some newest ∧
    ∀ other manifest, c.snapshots.get other = some manifest →
      manifest.createdAtUnix < newest.createdAtUnix ∨
        manifest.createdAtUnix = newest.createdAtUnix ∧ other ≤ id

/-- A compaction from `c` to `d` that kept the snapshots `retained`, found `removable` to be
    removable and answered with `report`. -/
structure Compacted (c d : Catalog) (retained : Finset String) (removable : List RemovedSnapshot)
    (report : CompactionReport) : Prop where
  newest : ∃ id ∈ retained, IsNewest c id
  reported : report.snapshotsScanned = c.snapshots.size ∧
    report.snapshotsRetained = retained.card ∧ report.removableSnapshots = removable.length ∧
    report.removedSnapshots = removable.length ∧
    report.sampledRemovedSnapshots = removable.take snapshotHistoryCompactionSampleLimit
  deleted : ∀ id, d.snapshots.get id =
    if id ∈ removable.map (·.snapshotId) then none else c.snapshots.get id
  decided : ∀ id manifest, c.snapshots.get id = some manifest →
    (id ∈ retained ↔ id ∉ removable.map (·.snapshotId))
  removable_distinct : (removable.map (·.snapshotId)).Nodup
  removable_stored : ∀ id ∈ removable.map (·.snapshotId), ∃ manifest,
    c.snapshots.get id = some manifest
  kept_bindings : ∀ id snapshot, id ∈ removable.map (·.snapshotId) →
    loadSnapshotById c id = some snapshot → ∀ path hash object_id,
      snapshotPathBinding (some snapshot) path = (some hash, object_id) →
        ∃ holder ∈ retained, ∃ kept, loadSnapshotById d holder = some kept ∧
          snapshotPathBinding (some kept) path = (some hash, object_id)

section Result
variable {c : Catalog}

def readSnapshots (c : Catalog) : List SnapshotManifest :=
  (sortedSnapshotInfos c).filterMap fun info => loadSnapshotById c info.id

theorem load_info {info : SnapshotInfo} (listed : info ∈ sortedSnapshotInfos c) :
    ∃ snapshot, loadSnapshotById c info.id = some snapshot := by
  obtain ⟨manifest, stored, -⟩ := (mem_sortedSnapshotInfos c info).mp listed
  exact ⟨_, by rw [loadSnapshotById, stored]; rfl⟩

theorem loaded_id (own : StoredUnderOwnId c) {id : String} {snapshot : SnapshotManifest}
    (loaded : loadSnapshotById c id = some snapshot) : snapshot.id = id := by
  unfold loadSnapshotById at loaded
  cases stored : c.snapshots.get id with
  | none => simp [stored] at loaded
  | some manifest =>
    simp only [stored, Option.map_some, Option.some.injEq] at loaded
    rw [← loaded]
    exact own id manifest stored

theorem mem_readSnapshots (own : StoredUnderOwnId c) (snapshot : SnapshotManifest) :
    snapshot ∈ readSnapshots c ↔ loadSnapshotById c snapshot.id = some snapshot := by
  unfold readSnapshots
  rw [List.mem_filterMap]
  constructor
  · rintro ⟨info, -, loaded⟩
    rwa [loaded_id own loaded]
  · intro loaded
    have row : ∃ manifest, c.snapshots.get snapshot.id = some manifest := by
      unfold loadSnapshotById at loaded
      cases stored : c.snapshots.get snapshot.id with
      | none => simp [stored] at loaded
      | some manifest => exact ⟨manifest, rfl⟩
    obtain ⟨manifest, stored⟩ := row
    exact ⟨infoOf (snapshot.id, manifest),
      (mem_sortedSnapshotInfos c _).mpr ⟨manifest, stored, rfl⟩, loaded⟩

theorem readSnapshots_ids (own : StoredUnderOwnId c) :
    (readSnapshots c).map (·.id) = (sortedSnapshotInfos c).map (·.id) := by
  unfold readSnapshots
  have each : ∀ infos : List SnapshotInfo, (∀ info ∈ infos, info ∈ sortedSnapshotInfos c) →
      (infos.filterMap fun info => loadSnapshotById c info.id).map (·.id) = infos.map (·.id) := by
    intro infos
    induction infos with
    | nil => intro _; rfl
    | cons info infos ih =>
      intro listed
      obtain ⟨snapshot, loaded⟩ := load_info (listed info List.mem_cons_self)
      have rest := ih fun other member => listed other (List.mem_cons_of_mem _ member)
      simp [loaded, loaded_id own loaded, rest]
  exact each _ fun _ member => member

theorem scanSnapshotHistory_run (c : Catalog) :
    (scanSnapshotHistory (sortedSnapshotInfos c)).run c =
      (.ok (scanned (readSnapshots c)), c) := by
  have rounds : ∀ (infos : List SnapshotInfo) (pass : CompactionPass),
      (∀ info ∈ infos, info ∈ sortedSnapshotInfos c) →
      (foldEach infos pass scanRound).run c = (.ok ((infos.filterMap fun info =>
        loadSnapshotById c info.id).foldl CompactionPass.step pass), c) := by
    intro infos
    induction infos with
    | nil => intro pass _; rfl
    | cons info infos ih =>
      intro pass listed
      obtain ⟨snapshot, loaded⟩ := load_info (listed info List.mem_cons_self)
      have rest := ih (pass.step snapshot) fun other member =>
        listed other (List.mem_cons_of_mem _ member)
      have round : (scanRound pass info).run c = (.ok (pass.step snapshot), c) := by
        simp [scanRound, bind_run, loaded]
      rw [foldEach, bind_run_ok round, rest, List.filterMap_cons, loaded]
      rfl
  exact rounds _ _ fun _ member => member

theorem readSnapshots_distinct (own : StoredUnderOwnId c) :
    ((readSnapshots c).map (·.id)).Nodup := by
  rw [readSnapshots_ids own]
  exact (sortedSnapshotInfos_ids c).nodup_iff.mpr (keys_nodup _)

theorem scanned_decides (own : StoredUnderOwnId c) {latest : SnapshotInfo}
    (last : (sortedSnapshotInfos c).getLast? = some latest) :
    removableIds (scanned (readSnapshots c)) = ((sortedSnapshotInfos c).map (·.id)).filter
      (· ∉ insert latest.id (scanned (readSnapshots c)).retainedSnapshotIds) := by
  have distinct := readSnapshots_distinct own
  rw [(scanned_progress distinct).decided, ← readSnapshots_ids own]
  have final : ((readSnapshots c).map (·.id)).getLast? = some latest.id := by
    rw [readSnapshots_ids own, List.getLast?_map, last]
    rfl
  obtain ⟨front, split⟩ := List.getLast?_eq_some_iff.mp final
  have dropped : (readSnapshots c).dropLast.map (·.id) = front := by
    rw [List.map_dropLast, split, List.dropLast_concat]
  rw [split] at distinct
  rw [dropped, split, List.filter_append]
  have apart : ∀ id ∈ front, id ≠ latest.id := fun id member =>
    (List.nodup_append.mp distinct).2.2 id member latest.id (by simp)
  have front_same : front.filter (· ∉ (scanned (readSnapshots c)).retainedSnapshotIds) =
      front.filter
        (· ∉ insert latest.id (scanned (readSnapshots c)).retainedSnapshotIds) := by
    apply List.filter_congr
    intro id member
    simp [apart id member]
  rw [front_same]
  simp

theorem scanned_covers (own : StoredUnderOwnId c) {latest : SnapshotInfo}
    (last : (sortedSnapshotInfos c).getLast? = some latest) {snapshot : SnapshotManifest}
    (read : snapshot ∈ readSnapshots c) {path hash : String} {object_id : Option String}
    (bound : snapshotPathBinding (some snapshot) path = (some hash, object_id)) :
    KeptBinding (readSnapshots c)
      (insert latest.id (scanned (readSnapshots c)).retainedSnapshotIds) path
      (some hash, object_id) := by
  have progress := scanned_progress (readSnapshots_distinct own)
  rcases progress.covered snapshot read path hash object_id bound with
    ⟨holder, member, kept, same⟩ | current
  · exact ⟨holder, member, Finset.mem_insert_of_mem kept, same⟩
  · have ids := congrArg List.getLast? (readSnapshots_ids own)
    rw [List.getLast?_map, List.getLast?_map, last] at ids
    cases final : (readSnapshots c).getLast? with
    | none => simp [final] at ids
    | some holder =>
      simp only [final, Option.map_some, Option.some.injEq] at ids
      rw [progress.previous, final] at current
      exact ⟨holder, List.mem_of_getLast? final, by simp [ids], current⟩

end Result

theorem latest_isNewest {latest : SnapshotInfo}
    (last : (sortedSnapshotInfos c).getLast? = some latest) : IsNewest c latest.id := by
  have listed := List.mem_of_getLast? last
  obtain ⟨newest, stored, same⟩ := (mem_sortedSnapshotInfos c latest).mp listed
  refine ⟨newest, stored, ?_⟩
  intro other manifest found
  have created : latest.createdAtUnix = newest.createdAtUnix := by rw [← same]; rfl
  have member := (mem_sortedSnapshotInfos c (infoOf (other, manifest))).mpr
    ⟨manifest, found, rfl⟩
  obtain ⟨front, split⟩ := List.getLast?_eq_some_iff.mp last
  have ordered := sortedSnapshotInfos_pairwise c
  rw [split, List.pairwise_append] at ordered
  rw [split, List.mem_append] at member
  have before : InfoBefore (infoOf (other, manifest)) latest := by
    rcases member with earlier | final
    · exact ordered.2.2 _ earlier _ (by simp)
    · rw [List.mem_singleton.mp final]
      exact (infoBefore_total _ _).elim id id
  rw [← created]
  exact before

theorem compactSnapshotHistory_run (vacuumed : Bool) {latest : SnapshotInfo}
    (last : (sortedSnapshotInfos c).getLast? = some latest) :
    let pass := scanned (readSnapshots c)
    ∃ report, (compactSnapshotHistory vacuumed false).run c =
        (.ok report, { c with snapshots := c.snapshots.delAll (removableIds pass) }) ∧
      report.snapshotsScanned = (sortedSnapshotInfos c).length ∧
      report.snapshotsRetained = (insert latest.id pass.retainedSnapshotIds).card ∧
      report.removableSnapshots = pass.removableSnapshots.length ∧
      report.removedSnapshots = pass.removableSnapshots.length ∧
      report.sampledRemovedSnapshots =
        pass.removableSnapshots.take snapshotHistoryCompactionSampleLimit := by
  intro pass
  have scan := scanSnapshotHistory_run c
  unfold compactSnapshotHistory
  simp only [bind_run, get_run, last, scan]
  by_cases empty : pass.removableSnapshots = []
  · have none_removable : (scanned (readSnapshots c)).removableSnapshots.isEmpty = true := by
      simpa using empty
    have undeleted : c.snapshots.delAll (removableIds pass) = c.snapshots := by
      simp [removableIds, empty, Table.delAll]
    rw [undeleted]
    simp only [none_removable, Bool.or_true, if_true]
    refine ⟨_, rfl, rfl, rfl, rfl, ?_, rfl⟩
    simp [empty]
  · have some_removable : (scanned (readSnapshots c)).removableSnapshots.isEmpty = false := by
      simpa using empty
    simp only [Bool.false_or, some_removable, Bool.false_eq_true, if_false, deleteSnapshotsById]
    refine ⟨_, rfl, rfl, rfl, rfl, ?_, rfl⟩
    simp [pass]

/-- Compaction keeps the newest snapshot, deletes what it finds removable and nothing else,
    and every binding of a deleted snapshot is in a kept one. -/
theorem compaction_loses_no_binding (vacuumed : Bool) (c : Catalog) (own : StoredUnderOwnId c)
    (nonempty : c.snapshots.keys ≠ []) :
    ∃ pass latest report d,
      (scanSnapshotHistory (sortedSnapshotInfos c)).run c = (.ok pass, c) ∧
      (compactSnapshotHistory vacuumed false).run c = (.ok report, d) ∧
      Compacted c d (insert latest pass.retainedSnapshotIds) pass.removableSnapshots report := by
  obtain ⟨latest, last⟩ : ∃ latest, (sortedSnapshotInfos c).getLast? = some latest := by
    cases final : (sortedSnapshotInfos c).getLast? with
    | some latest => exact ⟨latest, rfl⟩
    | none =>
      have empty := List.getLast?_eq_none_iff.mp final
      have ids := sortedSnapshotInfos_ids c
      rw [empty] at ids
      exact absurd ids.symm.eq_nil nonempty
  have decided := scanned_decides own last
  have listed : ∀ id, id ∈ (sortedSnapshotInfos c).map (·.id) ↔
      ∃ manifest, c.snapshots.get id = some manifest := fun id =>
    (sortedSnapshotInfos_ids c).mem_iff.trans (mem_keys _ _)
  obtain ⟨report, run, scanned_count, retained_count, removable_count, removed_count, sampled⟩ :=
    compactSnapshotHistory_run vacuumed last
  refine ⟨_, latest.id, report, _, scanSnapshotHistory_run c, run, ?_⟩
  have removable_iff : ∀ id, id ∈ removableIds (scanned (readSnapshots c)) ↔
      (∃ manifest, c.snapshots.get id = some manifest) ∧
        id ∉ insert latest.id (scanned (readSnapshots c)).retainedSnapshotIds := by
    intro id
    rw [decided, List.mem_filter, listed, decide_eq_true_iff]
  exact {
    newest := ⟨latest.id, Finset.mem_insert_self _ _, latest_isNewest last⟩
    reported := by
      have size := (sortedSnapshotInfos_ids c).length_eq
      rw [List.length_map] at size
      exact ⟨scanned_count.trans size, retained_count, removable_count, removed_count, sampled⟩
    deleted := fun id => get_delAll _ _ _
    decided := by
      intro id manifest stored
      have removable := removable_iff id
      simp only [removableIds] at removable
      rw [removable]
      simp [stored, or_iff_not_imp_left]
    removable_distinct := by
      have distinct := (sortedSnapshotInfos_ids c).nodup_iff.mpr (keys_nodup _)
      have sublist := distinct.filter fun id =>
        decide (id ∉ insert latest.id (scanned (readSnapshots c)).retainedSnapshotIds)
      rwa [← decided] at sublist
    removable_stored := fun id member => ((removable_iff id).mp member).1
    kept_bindings := by
      intro id snapshot _ loaded path hash object_id bound
      have read : snapshot ∈ readSnapshots c := by
        rw [mem_readSnapshots own, loaded_id own loaded]
        exact loaded
      obtain ⟨holder, member, kept, same⟩ := scanned_covers own last read bound
      refine ⟨holder.id, kept, holder, ?_, same⟩
      have undeleted : holder.id ∉ removableIds (scanned (readSnapshots c)) := fun removable =>
        ((removable_iff holder.id).mp removable).2 kept
      rw [loadSnapshotById, get_delAll, if_neg undeleted]
      exact (mem_readSnapshots own holder).mp member }

def overlappingHistory : Catalog :=
  let a_only := (Table.empty : Table String String).put "a" "hash-1"
  let both := a_only.put "b" "hash-2"
  let a_again := both.put "a" "hash-3"
  let objects := ((Table.empty : Table String String).put "a" "obj-a").put "b" "obj-b"
  { Catalog.empty with
    snapshots := ((Table.empty.put "snap-1" ⟨"snap-1", 10, a_only, objects⟩).put
      "snap-2" ⟨"snap-2", 20, both, objects⟩).put "snap-3" ⟨"snap-3", 30, a_again, objects⟩ }

theorem overlappingHistory_own : StoredUnderOwnId overlappingHistory := by
  intro id manifest stored
  simp only [overlappingHistory, get_put, get_empty] at stored
  split at stored
  · cases stored; simp_all
  · split at stored
    · cases stored; simp_all
    · split at stored
      · cases stored; simp_all
      · cases stored

theorem overlapping_history_compacted :
    StoredUnderOwnId overlappingHistory ∧ overlappingHistory.snapshots.keys ≠ [] ∧
    ((compactSnapshotHistory true false).run overlappingHistory).2.snapshots.sortedKeys =
      ["snap-2", "snap-3"] ∧
    ∃ pass latest report d,
      (scanSnapshotHistory (sortedSnapshotInfos overlappingHistory)).run overlappingHistory =
        (.ok pass, overlappingHistory) ∧
      (compactSnapshotHistory true false).run overlappingHistory = (.ok report, d) ∧
      Compacted overlappingHistory d (insert latest pass.retainedSnapshotIds)
        pass.removableSnapshots report :=
  ⟨overlappingHistory_own, by decide +kernel, by decide +kernel,
    compaction_loses_no_binding true overlappingHistory overlappingHistory_own
      (by decide +kernel)⟩

end BerryKeepSnapshotCompaction
