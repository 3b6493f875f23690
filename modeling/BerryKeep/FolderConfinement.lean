import BerryKeep.FolderSync

/-!
Which local paths a snapshot makes the agent touch. The backend is wrapped so
that it writes down every path that it is asked to make, to download into or to
remove; the reads are not written down. A snapshot stays in the root exactly if
all local paths of its keys do, since nothing but the file system looks at "..".
-/
namespace BerryKeepFolderConfinement
open FiniteTable StatefulProgram FileTree BerryKeepFolderPaths BerryKeepFolderSync
variable {σ α : Type}

section Recording

def unrecorded (m : Program σ SyncError α) : Program (σ × List String) SyncError α :=
  onPart Prod.fst (fun pair disk => (disk, pair.2)) m

def record (path : String) (m : Program σ SyncError α) : Program (σ × List String) SyncError α := do
  modify fun pair => (pair.1, pair.2 ++ [path])
  unrecorded m

def recorded (backend : FolderAgentLocalBackend σ) : FolderAgentLocalBackend (σ × List String) where
  localEntryState path := unrecorded (backend.localEntryState path)
  fileContentFingerprint path := unrecorded (backend.fileContentFingerprint path)
  ensureLocalDirectory path := record path (backend.ensureLocalDirectory path)
  downloadRemoteFile path remote_key := record path (backend.downloadRemoteFile path remote_key)
  removeLocalPath path := record path (backend.removeLocalPath path)

def recording (agent : Agent σ) : Agent (σ × List String) :=
  ⟨(agent.disk, []), agent.localState, agent.suppressedUploads, agent.remoteIndex, agent.outcome⟩

def touchedPaths (backend : FolderAgentLocalBackend σ) (scope : PathScope) (has_state_store : Bool)
    (snapshot : List NamespaceEntry) (changed_paths : Option (List String))
    (preserve_local_files matching_remote_files : Option (IterSet String)) (agent : Agent σ) :
    List String :=
  ((applyRemoteSnapshot (recorded backend) scope has_state_store snapshot changed_paths
    preserve_local_files matching_remote_files).run (recording agent)).2.disk.2

end Recording

def roundPath (tree : RemoteTree) : Round → Option String
  | .changedDirectory path =>
    if (tree.entryKinds.get path).any fun entry => entry.1 = .directory then some path else none
  | .changedPath path =>
    if (tree.entryKinds.get path).any fun entry => entry.1 = .directory then none else some path
  | .startupDirectory path => some path
  | .startupFile path =>
    if (tree.entryKinds.get path).any fun entry => entry.1 = .file then some path else none
  | .adoptIndex => none
  | .deleteWinner path => some path

section AtMost
variable {paths : String → Prop}

def AddsOnly (paths : String → Prop) (agent after : Agent (σ × List String)) : Prop :=
  ∀ path ∈ after.disk.2, path ∈ agent.disk.2 ∨ paths path

theorem addsOnly_refl (agent : Agent (σ × List String)) : AddsOnly paths agent agent :=
  fun _ member => .inl member

theorem addsOnly_trans (a b c : Agent (σ × List String)) (first : AddsOnly paths a b)
    (second : AddsOnly paths b c) : AddsOnly paths a c :=
  fun path member => (second path member).elim (first path) .inr

theorem read_addsOnly (m : Program σ SyncError α) :
    Keeps (AddsOnly paths) (onDisk (unrecorded m)) := fun agent => addsOnly_refl agent

theorem record_addsOnly {path : String} (allowed : paths path) (m : Program σ SyncError α) :
    Keeps (AddsOnly paths) (onDisk (record path m)) := by
  intro agent other member
  change other ∈ agent.disk.2 ++ [path] at member
  rcases List.mem_append.mp member with before | last
  · exact .inl before
  · rw [List.mem_singleton.mp last]
    exact .inr allowed

theorem withContext_addsOnly {text : String} {m : AgentM (σ × List String) α}
    (holds : Keeps (AddsOnly paths) m) : Keeps (AddsOnly paths) (withContext text m) :=
  keeps_tryCatch addsOnly_trans holds fun _ => keeps_throw addsOnly_refl _

theorem whenTracked_addsOnly {m : AgentM (σ × List String) Unit} (holds : Keeps (AddsOnly paths) m) :
    Keeps (AddsOnly paths) (whenTracked m) :=
  keeps_bind addsOnly_trans (keeps_get addsOnly_refl) fun _ => keeps_onlyIf addsOnly_refl holds

theorem modifyLocalState_addsOnly (f : LocalTreeState → LocalTreeState) :
    Keeps (AddsOnly paths) (modifyLocalState f : AgentM (σ × List String) Unit) :=
  fun agent => addsOnly_refl agent

theorem countOutcome_addsOnly (f : RemoteApplyOutcome → RemoteApplyOutcome) :
    Keeps (AddsOnly paths) (countOutcome f : AgentM (σ × List String) Unit) :=
  fun agent => addsOnly_refl agent

variable (backend : FolderAgentLocalBackend σ)

theorem syncParents_addsOnly (path : String) :
    Keeps (AddsOnly paths) (syncLocalStateParentDirectories (recorded backend) path) := by
  refine keeps_forEach addsOnly_refl addsOnly_trans (fun parent => ?_) _
  refine keeps_bind addsOnly_trans (read_addsOnly _) fun entry => ?_
  split
  · exact modifyLocalState_addsOnly _
  · exact modifyLocalState_addsOnly _

theorem syncPath_addsOnly (path : String) (entry_state : Option LocalEntryState) :
    Keeps (AddsOnly paths) (syncLocalStatePathAndParents (recorded backend) path entry_state) := by
  refine keeps_bind addsOnly_trans (syncParents_addsOnly backend path) fun _ => ?_
  refine keeps_bind addsOnly_trans ?_ fun _ => modifyLocalState_addsOnly _
  cases entry_state with
  | none => exact read_addsOnly _
  | some entry => exact keeps_pure addsOnly_refl _

theorem rememberedPathDiverged_addsOnly (path : String) :
    Keeps (AddsOnly paths) (rememberedPathDiverged (recorded backend) path) := by
  refine keeps_bind addsOnly_trans (keeps_get addsOnly_refl) fun agent => keeps_ite ?_ ?_
  · refine keeps_bind addsOnly_trans (keeps_get addsOnly_refl) fun agent => ?_
    split
    · exact keeps_pure addsOnly_refl _
    · exact keeps_bind addsOnly_trans (read_addsOnly _) fun _ => keeps_pure addsOnly_refl _
  · exact keeps_pure addsOnly_refl _

variable {call : Call (σ × List String)} {path : String}

theorem materializeDirectory_addsOnly (same : call.backend = recorded backend) (allowed : paths path) :
    Keeps (AddsOnly paths) (materializeDirectory call path) := by
  unfold materializeDirectory
  rw [same]
  refine keeps_bind addsOnly_trans (countOutcome_addsOnly _) fun _ => ?_
  refine keeps_bind addsOnly_trans (countOutcome_addsOnly _) fun _ => ?_
  refine keeps_bind addsOnly_trans (record_addsOnly allowed _) fun _ => ?_
  refine keeps_bind addsOnly_trans ?_ fun _ => whenTracked_addsOnly (syncPath_addsOnly backend _ _)
  unfold materializedEntry
  rw [same]
  refine keeps_bind addsOnly_trans (keeps_get addsOnly_refl) fun _ => keeps_ite (read_addsOnly _) ?_
  exact keeps_pure addsOnly_refl _

theorem materializeFile_addsOnly (same : call.backend = recorded backend) (allowed : paths path)
    (remote_key : String) : Keeps (AddsOnly paths) (materializeFile call path remote_key) := by
  unfold materializeFile downloadRemoteFileWithLogging
  rw [same]
  refine keeps_bind addsOnly_trans (countOutcome_addsOnly _) fun _ => ?_
  refine keeps_bind addsOnly_trans ?_ fun _ => ?_
  · refine keeps_bind addsOnly_trans (withContext_addsOnly (record_addsOnly allowed _)) fun _ => ?_
    refine keeps_bind addsOnly_trans (read_addsOnly _) fun entry => ?_
    split
    · exact keeps_pure addsOnly_refl _
    · exact keeps_throw addsOnly_refl _
  · refine keeps_bind addsOnly_trans (whenTracked_addsOnly (syncPath_addsOnly backend _ _)) fun _ => ?_
    exact fun agent => addsOnly_refl agent

theorem matching_addsOnly (same : call.backend = recorded backend) (hash : Option String) :
    Keeps (AddsOnly paths) (matchingLocalEntryForRemoteFileChange call path hash) := by
  unfold matchingLocalEntryForRemoteFileChange
  rw [same]
  split
  · exact keeps_pure addsOnly_refl _
  · refine keeps_tryCatch addsOnly_trans ?_ fun _ => keeps_pure addsOnly_refl _
    refine keeps_bind addsOnly_trans (read_addsOnly _) fun entry => ?_
    split
    · exact keeps_pure addsOnly_refl _
    · exact keeps_bind addsOnly_trans (read_addsOnly _) fun _ => keeps_pure addsOnly_refl _

theorem remove_addsOnly (same : call.backend = recorded backend) (allowed : paths path) :
    Keeps (AddsOnly paths) (removeLocalPathWithLogging call path) := by
  unfold removeLocalPathWithLogging
  rw [same]
  exact withContext_addsOnly (record_addsOnly allowed _)

theorem applyRound_addsOnly (same : call.backend = recorded backend) (round : Round)
    (allowed : ∀ path, roundPath call.tree round = some path → paths path) :
    Keeps (AddsOnly paths) (applyRound call round) := by
  cases round with
  | changedDirectory path =>
    simp only [applyRound, applyChangedDirectory]
    split
    · next key kind =>
      rw [same]
      refine keeps_bind addsOnly_trans (rememberedPathDiverged_addsOnly backend path) fun _ => ?_
      refine keeps_ite (keeps_pure addsOnly_refl _) (materializeDirectory_addsOnly backend same ?_)
      exact allowed path (by simp [roundPath, kind])
    · exact keeps_pure addsOnly_refl _
  | changedPath path =>
    simp only [applyRound]
    split
    · exact keeps_pure addsOnly_refl _
    · next key kind =>
      have here := allowed path (by simp [roundPath, kind])
      unfold applyChangedFile
      rw [same]
      refine keeps_bind addsOnly_trans (rememberedPathDiverged_addsOnly backend path) fun _ => ?_
      refine keeps_ite (keeps_pure addsOnly_refl _) ?_
      refine keeps_bind addsOnly_trans (countOutcome_addsOnly _) fun _ => ?_
      refine keeps_bind addsOnly_trans (matching_addsOnly backend same _) fun found => ?_
      cases found with
      | none => exact materializeFile_addsOnly backend same here key
      | some entry =>
        refine keeps_bind addsOnly_trans (whenTracked_addsOnly (syncPath_addsOnly backend _ _))
          fun _ => ?_
        exact fun agent => addsOnly_refl agent
    · next kind =>
      have here := allowed path (by simp [roundPath, kind])
      unfold applyChangedAbsence
      refine keeps_bind addsOnly_trans (countOutcome_addsOnly _) fun _ => ?_
      rw [same]
      refine keeps_bind addsOnly_trans (read_addsOnly _) fun _ => ?_
      refine keeps_bind addsOnly_trans (keeps_get addsOnly_refl) fun _ => ?_
      refine keeps_ite (keeps_pure addsOnly_refl _) ?_
      refine keeps_bind addsOnly_trans (countOutcome_addsOnly _) fun _ => ?_
      refine keeps_bind addsOnly_trans (remove_addsOnly backend same here) fun _ => ?_
      refine keeps_bind addsOnly_trans (fun agent => addsOnly_refl agent) fun _ => ?_
      refine whenTracked_addsOnly ?_
      exact keeps_bind addsOnly_trans (modifyLocalState_addsOnly _) fun _ =>
        syncParents_addsOnly backend path
  | startupDirectory path =>
    simp only [applyRound, applyStartupDirectory]
    rw [same]
    refine keeps_bind addsOnly_trans (read_addsOnly _) fun _ => ?_
    refine keeps_ite (keeps_pure addsOnly_refl _) (materializeDirectory_addsOnly backend same ?_)
    exact allowed path rfl
  | startupFile path =>
    simp only [applyRound, applyStartupFile]
    split
    · next key kind =>
      rw [same]
      refine keeps_bind addsOnly_trans (read_addsOnly _) fun _ => ?_
      refine keeps_ite (keeps_pure addsOnly_refl _) ?_
      refine keeps_bind addsOnly_trans (countOutcome_addsOnly _) fun _ => ?_
      exact materializeFile_addsOnly backend same (allowed path (by simp [roundPath, kind])) key
    · exact keeps_pure addsOnly_refl _
  | adoptIndex => exact fun agent => addsOnly_refl agent
  | deleteWinner path =>
    unfold applyRound removeDeleteWinner
    refine keeps_bind addsOnly_trans (remove_addsOnly backend same (allowed path rfl)) fun _ => ?_
    exact fun agent => addsOnly_refl agent

end AtMost

section AtLeast

def obliging (present : String → Bool) : FolderAgentLocalBackend Unit where
  localEntryState path := pure (if present path then some ⟨.file, 0, 0⟩ else none)
  fileContentFingerprint _ := throw (.io .notFound)
  ensureLocalDirectory _ := pure ()
  downloadRemoteFile _ _ := pure ()
  removeLocalPath _ := pure ()

def obligingCall (tree : RemoteTree) : Call (Unit × List String) :=
  ⟨recorded (obliging fun path => (tree.entryKinds.get path).isSome), false, tree, none, none⟩

def Wrote (paths : List String) (agent : Agent (Unit × List String)) : Prop :=
  agent.localState = none ∧ agent.disk.2 = paths

variable {tree : RemoteTree} {path : String} {log : List String} {agent : Agent (Unit × List String)}

theorem entry_run (agent : Agent (Unit × List String)) :
    (onDisk ((obligingCall tree).backend.localEntryState path)).run agent =
      (.ok (if (tree.entryKinds.get path).isSome then some ⟨.file, 0, 0⟩ else none), agent) := rfl

theorem diverged_run (start : agent.localState = none) :
    (rememberedPathDiverged (obligingCall tree).backend path).run agent = (.ok false, agent) := by
  unfold rememberedPathDiverged
  simp only [bind_run, get_run, start, Option.any_none, Bool.false_eq_true, if_false, pure_run]

theorem materializeDirectory_wrote (start : Wrote log agent) :
    Ensures (materializeDirectory (obligingCall tree) path) agent fun result after =>
      result = .ok () ∧ Wrote (log ++ [path]) after := by
  obtain ⟨⟨nothing, paths⟩, tracked, suppressed, index, outcome⟩ := agent
  obtain ⟨rfl, rfl⟩ := start
  exact ⟨rfl, rfl, rfl⟩

theorem materializeFile_wrote (start : Wrote log agent) {remote_key : String}
    (kind : tree.entryKinds.get path = some (.file, remote_key)) :
    Ensures (materializeFile (obligingCall tree) path remote_key) agent fun result after =>
      result = .ok () ∧ Wrote (log ++ [path]) after := by
  obtain ⟨⟨nothing, paths⟩, tracked, suppressed, index, outcome⟩ := agent
  obtain ⟨rfl, rfl⟩ := start
  have downloaded : ∀ outcome, (downloadRemoteFileWithLogging (obligingCall tree) path remote_key).run
      ⟨(nothing, paths), none, suppressed, index, outcome⟩ =
        (.ok ⟨.file, 0, 0⟩, ⟨(nothing, paths ++ [path]), none, suppressed, index, outcome⟩) := by
    intro outcome
    unfold downloadRemoteFileWithLogging
    refine (bind_run_ok (t := ⟨(nothing, paths ++ [path]), none, suppressed, index, outcome⟩) rfl).trans
      ((bind_run_ok (entry_run _)).trans ?_)
    simp only [kind, Option.isSome_some, if_true]
    rfl
  unfold materializeFile
  refine ensures_bind_ok rfl (ensures_bind_ok (downloaded _) ?_)
  exact ⟨rfl, rfl, rfl⟩

theorem remove_wrote (start : Wrote log agent) :
    Ensures (removeLocalPathWithLogging (obligingCall tree) path) agent fun result after =>
      result = .ok () ∧ Wrote (log ++ [path]) after :=
  ⟨rfl, start.1, congrArg (· ++ [path]) start.2⟩

theorem matching_run (hash : Option String) :
    (matchingLocalEntryForRemoteFileChange (obligingCall tree) path hash).run agent =
      (.ok none, agent) := by
  unfold matchingLocalEntryForRemoteFileChange
  split
  · rfl
  · unfold unmatched
    rw [tryCatch_run, bind_run_ok (entry_run _)]
    cases (tree.entryKinds.get path).isSome with
    | false => rfl
    | true => rfl

theorem applyRound_wrote (round : Round) (start : Wrote log agent) :
    Ensures (applyRound (obligingCall tree) round) agent fun result after =>
      result = .ok () ∧ Wrote (log ++ (roundPath tree round).toList) after := by
  have idle : Ensures (pure () : AgentM (Unit × List String) Unit) agent fun result after =>
      result = .ok () ∧ Wrote (log ++ []) after := by
    rw [List.append_nil]
    exact ⟨rfl, start⟩
  cases round with
  | changedDirectory path =>
    simp only [applyRound]
    cases kind : tree.entryKinds.get path with
    | none => simpa [obligingCall, roundPath, kind] using idle
    | some entry =>
      obtain ⟨entry_kind, remote_key⟩ := entry
      cases entry_kind with
      | file => simpa [obligingCall, roundPath, kind] using idle
      | directory =>
        simp only [obligingCall, roundPath, kind]
        refine ensures_bind_ok (diverged_run start.1) ?_
        exact materializeDirectory_wrote start
  | changedPath path =>
    simp only [applyRound]
    cases kind : tree.entryKinds.get path with
    | none =>
      simp only [obligingCall, roundPath, kind]
      refine ensures_bind_ok rfl (ensures_bind_ok (entry_run _) (ensures_get ?_))
      simp only [kind, Option.isSome_none, Bool.false_eq_true, if_false, Bool.false_and]
      refine ensures_bind_ok rfl (ensures_bind (remove_wrote (by exact start)) ?_ ?_)
      · rintro _ after ⟨_, wrote⟩
        refine ensures_bind_ok rfl (ensures_get ?_)
        simp only [wrote.1]
        exact ⟨rfl, rfl, wrote.2⟩
      · rintro _ _ ⟨failed, _⟩
        cases failed
    | some entry =>
      obtain ⟨entry_kind, remote_key⟩ := entry
      cases entry_kind with
      | directory => simpa [obligingCall, roundPath, kind] using idle
      | file =>
        simp only [obligingCall, roundPath, kind]
        refine ensures_bind_ok (diverged_run start.1) ?_
        refine ensures_bind_ok rfl (ensures_bind_ok (matching_run _) ?_)
        exact materializeFile_wrote (by exact start) kind
  | startupDirectory path =>
    simp only [applyRound]
    refine ensures_bind_ok (entry_run _) ?_
    rw [if_neg]
    · exact materializeDirectory_wrote start
    · split
      · simp [LocalEntryState.isDirectory]
      · simp
  | startupFile path =>
    simp only [applyRound]
    cases kind : tree.entryKinds.get path with
    | none => simpa [obligingCall, roundPath, kind] using idle
    | some entry =>
      obtain ⟨entry_kind, remote_key⟩ := entry
      cases entry_kind with
      | directory => simpa [obligingCall, roundPath, kind] using idle
      | file =>
        simp only [obligingCall, roundPath, kind]
        refine ensures_bind_ok (entry_run _) (ensures_bind_ok rfl ?_)
        exact materializeFile_wrote (by exact start) kind
  | adoptIndex => exact ⟨rfl, start.1, start.2.trans (List.append_nil log).symm⟩
  | deleteWinner path =>
    refine ensures_bind (remove_wrote start) ?_ ?_
    · rintro _ after ⟨_, wrote⟩
      refine ⟨rfl, ?_, wrote.2⟩
      change after.localState.map _ = none
      rw [wrote.1]
      rfl
    · rintro _ _ ⟨failed, _⟩
      cases failed

theorem rounds_wrote (rounds : List Round) (start : Wrote log agent) :
    Ensures (forEach rounds (applyRound (obligingCall tree))) agent fun _ after =>
      Wrote (log ++ rounds.filterMap (roundPath tree)) after := by
  induction rounds generalizing log agent with
  | nil =>
    simp only [List.filterMap_nil, List.append_nil]
    exact start
  | cons round rounds ih =>
    refine ensures_bind (applyRound_wrote round start) ?_ ?_
    · rintro _ after ⟨_, wrote⟩
      have rest := ih wrote
      rw [List.append_assoc] at rest
      cases touched : roundPath tree round with
      | none => simpa [touched] using rest
      | some path => simpa [touched] using rest
    · rintro _ _ ⟨failed, _⟩
      cases failed

end AtLeast

section Snapshot
variable {scope : PathScope}

def snapshotPaths (scope : PathScope) (snapshot : List NamespaceEntry) : List String :=
  localPaths scope (snapshot.map fun entry => normalizeRelativePath entry.path)

def appliedPaths (scope : PathScope) (snapshot : List NamespaceEntry) :
    Option (List String) → List String
  | some changed_paths => localPaths scope changed_paths
  | none => snapshotPaths scope snapshot

def listed (index : RemoteTreeIndex) : EntryKind → List String
  | .file => index.files.items
  | .directory => index.directories.items

theorem mem_listed_add (tree : RemoteTree) (entry : NamespaceEntry) (local_path remote_path : String)
    (kind : EntryKind) (path : String) :
    path ∈ listed (tree.add entry local_path remote_path).nextIndex kind ↔
      (path = local_path ∧ kind = entry.kind) ∨ path ∈ listed tree.nextIndex kind := by
  cases same : entry.kind with
  | file => cases kind <;> simp [RemoteTree.add, listed, same]
  | directory => cases kind <;> simp [RemoteTree.add, listed, same]

structure Indexed (paths : List String) (tree : RemoteTree) : Prop where
  known : ∀ path ∈ paths, ∃ kind remote_key, tree.entryKinds.get path = some (kind, remote_key)
  within : ∀ kind, ∀ path ∈ listed tree.nextIndex kind, path ∈ paths
  indexed : ∀ path kind remote_key, tree.entryKinds.get path = some (kind, remote_key) →
    path ∈ listed tree.nextIndex kind

theorem Indexed.add {paths : List String} {tree : RemoteTree} (tracks : Indexed paths tree)
    (entry : NamespaceEntry) (local_path remote_path : String) :
    Indexed (paths ++ [local_path]) (tree.add entry local_path remote_path) := by
  have kinds : ∀ path, (tree.add entry local_path remote_path).entryKinds.get path =
      if path = local_path then some (entry.kind, remote_path) else tree.entryKinds.get path :=
    fun path => get_put _ _ _ _
  constructor
  · intro path member
    rw [kinds]
    split
    · exact ⟨_, _, rfl⟩
    · next other => exact tracks.known path (by simpa [other] using member)
  · intro kind path member
    rcases (mem_listed_add ..).mp member with ⟨here, _⟩ | before
    · simp [here]
    · simp [tracks.within kind path before]
  · intro path kind remote_key found
    rw [kinds] at found
    rw [mem_listed_add]
    split at found
    · next here =>
      cases found
      exact .inl ⟨here, rfl⟩
    · exact .inr (tracks.indexed path kind remote_key found)

theorem remoteTree_indexed (scope : PathScope) (snapshot : List NamespaceEntry) :
    Indexed (snapshotPaths scope snapshot) (remoteTree scope snapshot) := by
  refine foldl_invariant (fun done tree => Indexed (snapshotPaths scope done) tree)
    (fun done entry tree tracks => ?_) snapshot ?_
  · unfold addEntry
    have extended : snapshotPaths scope (done ++ [entry]) = snapshotPaths scope done ++
        localPaths scope [normalizeRelativePath entry.path] := by
      simp [snapshotPaths, localPaths]
    rw [extended]
    cases mapped : scope.remoteToLocal (normalizeRelativePath entry.path) with
    | none => simpa [localPaths, mapped] using tracks
    | some local_path =>
      by_cases empty : local_path = ""
      · simpa [localPaths, mapped, empty] using tracks
      · have added := tracks.add entry local_path (normalizeRelativePath entry.path)
        simpa [localPaths, mapped, empty] using added
  · constructor
    · simp [snapshotPaths, localPaths]
    · intro kind path member
      cases kind with
      | file => cases member
      | directory => cases member
    · intro path kind remote_key found
      cases found

theorem mem_roundPaths (scope : PathScope) (snapshot : List NamespaceEntry)
    (changed_paths : Option (List String)) (path : String) :
    path ∈ (snapshotRounds scope (remoteTree scope snapshot) changed_paths).filterMap
      (roundPath (remoteTree scope snapshot)) ↔ path ∈ appliedPaths scope snapshot changed_paths := by
  have tracks := remoteTree_indexed scope snapshot
  generalize remoteTree scope snapshot = tree at tracks
  cases changed_paths with
  | some changed_paths =>
    simp only [snapshotRounds, appliedPaths, changedLocalPaths, List.mem_filterMap, List.mem_append,
      List.mem_map, mem_sorted, mem_ofList, List.mem_singleton]
    constructor
    · rintro ⟨round, (⟨other, member, rfl⟩ | ⟨other, member, rfl⟩) | rfl, touched⟩
      · simp only [roundPath] at touched
        split at touched
        · cases touched; exact member
        · cases touched
      · simp only [roundPath] at touched
        split at touched
        · cases touched
        · cases touched; exact member
      · cases touched
    · intro member
      cases kind : (tree.entryKinds.get path).any fun entry => entry.1 = .directory with
      | true => exact ⟨_, .inl (.inl ⟨path, member, rfl⟩), by simp [roundPath, kind]⟩
      | false => exact ⟨_, .inl (.inr ⟨path, member, rfl⟩), by simp [roundPath, kind]⟩
  | none =>
    simp only [snapshotRounds, appliedPaths, List.mem_filterMap, List.mem_append, List.mem_map,
      mem_sorted, List.mem_singleton]
    constructor
    · rintro ⟨round, (⟨other, member, rfl⟩ | ⟨other, member, rfl⟩) | rfl, touched⟩
      · cases touched
        exact tracks.within .directory path member
      · simp only [roundPath] at touched
        split at touched
        · cases touched; exact tracks.within .file path member
        · cases touched
      · cases touched
    · intro member
      obtain ⟨kind, remote_key, found⟩ := tracks.known path member
      have inside := tracks.indexed path kind remote_key found
      cases kind with
      | directory => exact ⟨_, .inl (.inl ⟨path, inside, rfl⟩), rfl⟩
      | file => exact ⟨_, .inl (.inr ⟨path, inside, rfl⟩), by simp [roundPath, found]⟩

end Snapshot

/-- Whatever the backend, a snapshot stays in the root exactly if its local paths do. -/
theorem touched_paths_confined_iff (root : Path) (scope : PathScope)
    (snapshot : List NamespaceEntry) (changed_paths : Option (List String)) :
    (∀ (σ : Type) (backend : FolderAgentLocalBackend σ) (has_state_store : Bool)
      (preserve_local_files matching_remote_files : Option (IterSet String)) (agent : Agent σ),
      ∀ path ∈ touchedPaths backend scope has_state_store snapshot changed_paths
        preserve_local_files matching_remote_files agent, Confined root path) ↔
    ∀ path ∈ appliedPaths scope snapshot changed_paths, Confined root path := by
  constructor
  · intro every path member
    refine every Unit (obliging fun path =>
      ((remoteTree scope snapshot).entryKinds.get path).isSome) false none none
      ⟨(), none, .empty, .empty, ⟨0, 0, 0, 0⟩⟩ path ?_
    have start : Wrote [] (recording ⟨(), none, .empty, .empty, ⟨0, 0, 0, 0⟩⟩) := ⟨rfl, rfl⟩
    have wrote := @rounds_wrote (remoteTree scope snapshot) _ _
      (snapshotRounds scope (remoteTree scope snapshot) changed_paths) start
    have listed := (mem_roundPaths scope snapshot changed_paths path).mpr member
    rw [List.nil_append] at wrote
    rw [← wrote.2] at listed
    exact listed
  · intro confined σ backend has_state_store preserve matching agent path member
    have bound : Keeps (AddsOnly fun path => path ∈ appliedPaths scope snapshot changed_paths)
        (applyRemoteSnapshot (recorded backend) scope has_state_store snapshot changed_paths preserve
          matching) := by
      refine keeps_forEach_mem addsOnly_refl addsOnly_trans fun round listed => ?_
      refine applyRound_addsOnly backend rfl round fun path touched => ?_
      rw [← mem_roundPaths]
      exact List.mem_filterMap.mpr ⟨round, listed, touched⟩
    rcases bound (recording agent) path member with before | applied
    · cases before
    · exact confined path applied

/-- A remote key that starts with ".." is downloaded to a file next to the root. -/
theorem remote_key_leaves_root :
    let backend := nativeFilesystemBackend ["sync"] (fun _ => "") fun _ => .ok [7]
    let snapshot : List NamespaceEntry := [⟨"../evil", .file, some "hash", none⟩]
    let agent : Agent Disk := ⟨⟨Tree.bare.put ["sync"] (.directory 0 0), fun _ => (0, 0)⟩,
      some .empty, .empty, .empty, ⟨0, 0, 0, 0⟩⟩
    touchedPaths backend (.new none) true snapshot none none none agent = ["../evil"] ∧
    ¬lexical ["sync"] <+: lexical (absolutePath ["sync"] "../evil") ∧
    ((applyRemoteSnapshot backend (.new none) true snapshot none none none).run
      agent).2.disk.tree.fileBytes ["evil"] = some [7] := by
  intro backend snapshot agent
  exact ⟨by decide +kernel, by decide +kernel, by decide +kernel⟩

end BerryKeepFolderConfinement
