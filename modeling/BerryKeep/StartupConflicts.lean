import BerryKeep.FolderSync

/-!
The conflicts that a startup reports for the files it preserves. One report is
about files that both sides changed, the other about files that the remote side
no longer has. Both walk the preserved paths in order and push at most one
conflict for a path.
-/
namespace BerryKeepStartupConflicts
open FiniteTable BerryKeepFolderSync

structure StartupConflict where
  path : String
  reason : String
  detailsJson : String
  createdUnixMs : Nat
  deriving DecidableEq, Repr

-- The object is printed with its keys in alphabetical order.
def detailsJson (remote_action : String) : String :=
  "\x7b\"local_action\":\"upload_local\",\"policy\":\"keep_local_bytes\",\"remote_action\":\"" ++
    remote_action ++ "\"\x7d"

def reportConflicts (judge : String → Option (String × String)) (clock : Nat → Nat)
    (paths : List String) : List StartupConflict :=
  paths.foldl (fun conflicts path =>
    match judge path with
    | none => conflicts
    | some (reason, details) =>
      conflicts ++ [⟨path, reason, details, clock conflicts.length⟩]) []

section Reports
variable (local_state : LocalTreeState) (baseline : Option LocalTreeState)
  (baseline_hashes remote_hashes : Table String String)
  (content_hash_for_path : String → Except SyncError String)

def baselineEntry (path : String) : Option LocalEntryState := baseline.bind fun state => state.get path

def addDeleteVerdict (remote_files remote_delete_wins_paths : IterSet String) (path : String) :
    Option (String × String) :=
  if remote_files.contains path || remote_delete_wins_paths.contains path then none
  else match (local_state.get path).filter LocalEntryState.isFile with
    | none => none
    | some entry_state =>
      match baselineEntry baseline path with
      | some previous =>
        if previous ≠ entry_state then some ("modify_delete_conflict", detailsJson "delete_seen")
        else none
      | none => some ("add_delete_ambiguous_missing_baseline", detailsJson "missing")

def startupAddDeleteConflicts (remote_files preserve_local_files remote_delete_wins_paths :
    IterSet String) (clock : Nat → Nat) : List StartupConflict :=
  reportConflicts (addDeleteVerdict local_state baseline remote_files remote_delete_wins_paths) clock
    preserve_local_files.sorted

def dualModifyReason (path remote_hash : String) : Option String :=
  match baselineEntry baseline path with
  | none => some "dual_modify_missing_baseline"
  | some _ =>
    match baseline_hashes.get path with
    | some baseline_hash =>
      if baseline_hash ≠ remote_hash then some "dual_modify_conflict" else none
    | none => none

def dualModifyVerdict (path : String) : Option (String × String) :=
  match (local_state.get path).filter LocalEntryState.isFile, remote_hashes.get path with
  | some _, some remote_hash =>
    let verdict := (dualModifyReason baseline baseline_hashes path remote_hash).map fun reason =>
      (reason, detailsJson "overwrite_possible")
    match content_hash_for_path path with
    | .error _ => verdict
    | .ok local_hash => if local_hash ≠ remote_hash then verdict else none
  | _, _ => none

def startupDualModifyConflictsWithHash (preserve_local_files : IterSet String) (clock : Nat → Nat) :
    List StartupConflict :=
  reportConflicts
    (dualModifyVerdict local_state baseline baseline_hashes remote_hashes content_hash_for_path) clock
    preserve_local_files.sorted

end Reports

def conflictCount (conflicts : List StartupConflict) (path : String) : Nat :=
  conflicts.countP fun conflict => conflict.path = path

theorem reportConflicts_count (judge : String → Option (String × String)) (clock : Nat → Nat)
    (path : String) (paths : List String) (nodup : paths.Nodup) :
    conflictCount (reportConflicts judge clock paths) path =
      if path ∈ paths ∧ (judge path).isSome then 1 else 0 := by
  induction paths using List.reverseRecOn with
  | nil => rfl
  | append_singleton done last ih =>
    obtain ⟨before, -, apart⟩ := List.nodup_append.mp nodup
    have new : last ∉ done := fun listed => apart last listed last (List.mem_singleton.mpr rfl) rfl
    have earlier := ih before
    have pushed : reportConflicts judge clock (done ++ [last]) =
        match judge last with
        | none => reportConflicts judge clock done
        | some (reason, details) => reportConflicts judge clock done ++
          [⟨last, reason, details, clock (reportConflicts judge clock done).length⟩] := by
      unfold reportConflicts
      rw [List.foldl_append]
      rfl
    rw [pushed]
    by_cases here : path = last
    · subst here
      rw [if_neg fun both => new both.1] at earlier
      cases verdict : judge path with
      | none => simpa [verdict] using earlier
      | some found =>
        unfold conflictCount at earlier ⊢
        simp [earlier]
    · have listed : path ∈ done ++ [last] ↔ path ∈ done := by simp [here]
      simp only [listed]
      rw [← earlier]
      cases verdict : judge last with
      | none => rfl
      | some found => simp [conflictCount, Ne.symm here]

section Preserved
variable {local_state : LocalTreeState} {baseline : Option LocalTreeState}
  {baseline_hashes remote_hashes : Table String String}
  {content_hash_for_path : String → Except SyncError String}

variable {path : String}

theorem mem_localFilesWhere {test : String → LocalEntryState → Bool} :
    path ∈ (localFilesWhere local_state test).items ↔
      ∃ entry_state, local_state.get path = some entry_state ∧ entry_state.isFile = true ∧
        test path entry_state = true := by
  simp only [localFilesWhere, mem_ofList, List.mem_map, List.mem_filter, Bool.and_eq_true,
    Prod.exists, mem_entries]
  constructor
  · rintro ⟨p, entry_state, ⟨stored, passes⟩, rfl⟩
    exact ⟨entry_state, stored, passes⟩
  · rintro ⟨entry_state, stored, passes⟩
    exact ⟨path, entry_state, ⟨stored, passes⟩, rfl⟩

theorem preserved_file (preserved : path ∈ (localPathsToPreserveOnStartupWithHash
    local_state baseline baseline_hashes remote_hashes content_hash_for_path).items) :
    ∃ entry_state, local_state.get path = some entry_state ∧ entry_state.isFile = true ∧
      baselineEntry baseline path ≠ some entry_state := by
  obtain ⟨entry_state, stored, file, passes⟩ := mem_localFilesWhere.mp preserved
  refine ⟨entry_state, stored, file, ?_⟩
  intro same
  unfold baselineEntry at same
  rw [same] at passes
  simp at passes

theorem addDelete_count (remote_files preserve delete_wins : IterSet String) (clock : Nat → Nat)
    (listed : path ∈ preserve.items) :
    conflictCount (startupAddDeleteConflicts local_state baseline remote_files preserve delete_wins
      clock) path =
      if (addDeleteVerdict local_state baseline remote_files delete_wins path).isSome then 1
      else 0 := by
  unfold startupAddDeleteConflicts
  rw [reportConflicts_count _ _ _ _ (sorted_nodup preserve)]
  simp only [mem_sorted, listed, true_and]

theorem dualModify_count (preserve : IterSet String) (clock : Nat → Nat)
    (listed : path ∈ preserve.items) :
    conflictCount (startupDualModifyConflictsWithHash local_state baseline baseline_hashes
      remote_hashes content_hash_for_path preserve clock) path =
      if (dualModifyVerdict local_state baseline baseline_hashes remote_hashes
        content_hash_for_path path).isSome then 1 else 0 := by
  unfold startupDualModifyConflictsWithHash
  rw [reportConflicts_count _ _ _ _ (sorted_nodup preserve)]
  simp only [mem_sorted, listed, true_and]

theorem missing_verdict (remote_files delete_wins : IterSet String)
    (preserved : path ∈ (localPathsToPreserveOnStartupWithHash local_state baseline baseline_hashes
      remote_hashes content_hash_for_path).items) (missing : path ∉ remote_files.items) :
    (addDeleteVerdict local_state baseline remote_files delete_wins path).isSome =
      !delete_wins.contains path := by
  obtain ⟨entry_state, stored, file, changed⟩ := preserved_file preserved
  have absent : remote_files.contains path = false := by simpa [IterSet.contains] using missing
  unfold addDeleteVerdict
  rw [absent, Bool.false_or]
  cases wins : delete_wins.contains path with
  | true => rfl
  | false =>
    simp only [stored, Option.filter_some, file, ↓reduceIte, Bool.false_eq_true]
    cases entry : baselineEntry baseline path with
    | none => rfl
    | some previous =>
      rw [entry] at changed
      have differs : previous ≠ entry_state := fun same => changed (congrArg some same)
      simp [differs]

end Preserved

def recordedHash (baseline : Option LocalTreeState) (baseline_hashes : Table String String)
    (path : String) : Option String :=
  (baselineEntry baseline path).bind fun _ => baseline_hashes.get path

/-- Two diverged hashes are reported exactly if the baseline entry, where there is one, has a
    recorded hash to compare the remote one with. -/
theorem startup_conflicts_reported_iff (local_state : LocalTreeState)
    (baseline : Option LocalTreeState) (baseline_hashes remote_hashes : Table String String)
    (remote_files : IterSet String) (hash : String → String) (clock : Nat → Nat) (path : String)
    (preserved : path ∈ (localPathsToPreserveOnStartupWithHash local_state baseline baseline_hashes
      remote_hashes fun path => .ok (hash path)).items) :
    let preserve := localPathsToPreserveOnStartupWithHash local_state baseline baseline_hashes
      remote_hashes fun path => .ok (hash path)
    let delete_wins := startupRemoteDeleteWinsPathsWithHash local_state baseline baseline_hashes
      (fun path => .ok (hash path)) remote_files preserve
    (∀ remote_hash, remote_hashes.get path = some remote_hash → hash path ≠ remote_hash →
      (conflictCount (startupDualModifyConflictsWithHash local_state baseline baseline_hashes
          remote_hashes (fun path => .ok (hash path)) preserve clock) path =
          (if recordedHash baseline baseline_hashes path = some remote_hash then 0 else 1) ↔
        ((baselineEntry baseline path).isSome → (baseline_hashes.get path).isSome))) ∧
    (path ∉ remote_files.items →
      (path ∈ delete_wins.items ∧ conflictCount (startupAddDeleteConflicts local_state baseline
          remote_files preserve delete_wins clock) path = 0) ∨
      (path ∉ delete_wins.items ∧ conflictCount (startupAddDeleteConflicts local_state baseline
          remote_files preserve delete_wins clock) path = 1)) := by
  intro preserve delete_wins
  constructor
  · intro remote_hash remote differs
    obtain ⟨entry_state, stored, file, _⟩ := preserved_file preserved
    rw [dualModify_count preserve clock preserved]
    unfold dualModifyVerdict recordedHash
    simp only [stored, Option.filter_some, file, ↓reduceIte, remote, ne_eq, differs,
      not_false_eq_true, Option.isSome_map]
    unfold dualModifyReason
    cases entry : baselineEntry baseline path with
    | none => simp
    | some previous =>
      cases recorded : baseline_hashes.get path with
      | none => simp
      | some baseline_hash =>
        by_cases same : baseline_hash = remote_hash
        · simp [same]
        · simp [same]
  · intro missing
    rw [addDelete_count remote_files preserve delete_wins clock preserved,
      missing_verdict remote_files delete_wins preserved missing]
    by_cases wins : path ∈ delete_wins.items
    · left
      simp [IterSet.contains, wins]
    · right
      simp [IterSet.contains, wins]

section Example

def changedFile : LocalTreeState := Table.empty.put "a.txt" ⟨.file, 3, 2000⟩

def changedBaseline : LocalTreeState := Table.empty.put "a.txt" ⟨.file, 3, 1000⟩

def changedRemote : Table String String := Table.empty.put "a.txt" "remote"

theorem unhashed_baseline_unreported :
    "a.txt" ∈ (localPathsToPreserveOnStartupWithHash changedFile (some changedBaseline) Table.empty
        changedRemote fun _ => .ok "local").items ∧
      startupDualModifyConflictsWithHash changedFile (some changedBaseline) Table.empty changedRemote
        (fun _ => .ok "local") (localPathsToPreserveOnStartupWithHash changedFile
          (some changedBaseline) Table.empty changedRemote fun _ => .ok "local") (fun _ => 0) = [] := by
  decide +kernel

theorem hashed_baseline_reported :
    conflictCount (startupDualModifyConflictsWithHash changedFile (some changedBaseline)
      (Table.empty.put "a.txt" "old") changedRemote (fun _ => .ok "local")
      (localPathsToPreserveOnStartupWithHash changedFile (some changedBaseline)
        (Table.empty.put "a.txt" "old") changedRemote fun _ => .ok "local") fun _ => 0) "a.txt" =
      1 := by
  have reported := startup_conflicts_reported_iff changedFile (some changedBaseline)
    (Table.empty.put "a.txt" "old") changedRemote IterSet.empty (fun _ => "local") (fun _ => 0)
    "a.txt" (by decide +kernel)
  exact (reported.1 "remote" (by decide +kernel) (by decide)).mpr (by decide +kernel)

end Example

end BerryKeepStartupConflicts
