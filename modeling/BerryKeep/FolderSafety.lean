import BerryKeep.FolderSync

/-!
What applying a snapshot does to the bytes of local files. Each round performs
at most one operation on the disk, and which one it is can be told from the
state before the round. An operation loses some files and rewrites at most one.
A set of guarded files therefore survives a whole run exactly if every round
spares them, both in steady state and at startup.
-/
namespace BerryKeepFolderSafety
open FiniteTable StatefulProgram TextOperations FileTree BerryKeepFolderPaths BerryKeepFolderSync
variable {α : Type}

section Effects
variable (root : Path) (delivered : String → Except SyncError (List UInt8))

theorem withContext_run {σ : Type} (text : String) (m : Program σ SyncError α) (s : σ) :
    (withContext text m).run s = ((m.run s).1.mapError (.context text), (m.run s).2) := by
  unfold withContext
  rw [tryCatch_run]
  rcases m.run s with ⟨r, t⟩
  cases r with
  | error e => rfl
  | ok a => rfl

theorem io_run (m : DiskM α) (d : Disk) :
    (io m).run d = ((m.run d).1.mapError .io, (m.run d).2) := rfl

variable {d : Disk}

theorem ensures_io {β : Type} {text : String} {m : DiskM α} {f : α → Program Disk SyncError β}
    {Q : Disk → Prop}
    (holds : Ensures m d fun r e => (∀ a, r = .ok a → Ensures (f a) e fun _ t => Q t) ∧
      ((∀ a, r ≠ .ok a) → Q e)) :
    Ensures (withContext text (io m) >>= f) d fun _ t => Q t := by
  unfold Ensures at holds
  rcases run : m.run d with ⟨r, e⟩
  rw [run] at holds
  have here : (withContext text (io m)).run d =
      ((r.mapError SyncError.io).mapError (.context text), e) := by
    rw [withContext_run, io_run, run]
  cases r with
  | error error => exact ensures_of_run (bind_run_error here) (holds.2 fun _ => by simp)
  | ok a => exact ensures_bind_ok here (holds.1 a rfl)

theorem context_io_state (text : String) (m : DiskM α) (d : Disk) :
    ((withContext text (io m)).run d).2 = (m.run d).2 := by
  rw [withContext_run, io_run]

inductive Operation where
  | ensure (path : String)
  | download (path remote_key : String)
  | remove (path : String)

def perform {σ : Type} (backend : FolderAgentLocalBackend σ) : Operation → Program σ SyncError Unit
  | .ensure path => backend.ensureLocalDirectory path
  | .download path remote_key => backend.downloadRemoteFile path remote_key
  | .remove path => backend.removeLocalPath path

def Below (tree : Tree) (path : String) (kind : Node → Bool) (loc : Location) : Prop :=
  ∃ top node, tree.stat (absolutePath root path) = .ok (top, node) ∧ kind node = true ∧ top <+: loc

def Loses (tree : Tree) : Operation → Location → Prop
  | .ensure path => Below root tree path fun node => !node.isDirectory
  | .download path _ => Below root tree path Node.isDirectory
  | .remove path => Below root tree path fun _ => true

def Rewrites (tree : Tree) : Operation → Location → List UInt8 → Prop
  | .download path remote_key, loc, bytes =>
    loc = lexical (absolutePath root path) ∧ delivered remote_key = .ok bytes ∧
      Placeable tree (absolutePath root path)
  | _, _, _ => False

theorem file_is_leaf {tree : Tree} {top loc : Location} {bytes old : List UInt8} {modified : Nat}
    (node : tree.nodes.get top = some (.file bytes modified)) (there : tree.fileBytes loc = some old)
    (within : top <+: loc) : loc = top := by
  by_contra apart
  have present : (tree.nodes.get loc).isSome = true := by
    cases found : tree.nodes.get loc with
    | none => simp [Tree.fileBytes, found] at there
    | some node => rfl
  have directory := directory_of_below present within apart
  simp [Tree.directory, node, Node.isDirectory] at directory

structure FileOutcome (tree after : Tree) (op : Operation) (loc : Location) (old : List UInt8) :
    Prop where
  lost : Loses root tree op loc → after.fileBytes loc = none
  rewritten : ¬Loses root tree op loc → ∀ bytes, Rewrites root delivered tree op loc bytes →
    after.fileBytes loc = some bytes
  kept : ¬Loses root tree op loc → (∀ bytes, ¬Rewrites root delivered tree op loc bytes) →
    after.fileBytes loc = some old

variable {root delivered}

variable {old : List UInt8} {loc : Location}

theorem fileOutcome_of_iff {tree after : Tree} {op : Operation}
    (replaces : ∀ bytes, ¬Rewrites root delivered tree op loc bytes)
    (lost : Loses root tree op loc → after.fileBytes loc = none)
    (kept : ¬Loses root tree op loc → after.fileBytes loc = some old) :
    FileOutcome root delivered tree after op loc old :=
  ⟨lost, fun _ bytes rewrites => absurd rewrites (replaces bytes), fun spared _ => kept spared⟩

theorem ensure_outcome (path : String)
    (there : d.tree.fileBytes loc = some old) :
    Ensures (ensureLocalDirectory root path) d fun _ e =>
      FileOutcome root delivered d.tree e.tree (.ensure path) loc old := by
  have untouched : ∀ {e : Disk}, SameFiles d e → (¬Loses root d.tree (.ensure path) loc) →
      FileOutcome root delivered d.tree e.tree (.ensure path) loc old := by
    intro e same spared
    refine fileOutcome_of_iff (fun _ => id) (fun lost => absurd lost spared) fun _ => ?_
    exact (same loc).trans there
  have made := createDirAll_sameFiles (absolutePath root path) d
  unfold ensureLocalDirectory
  refine ensures_get ?_
  cases found : d.tree.stat (absolutePath root path) with
  | ok entry =>
    obtain ⟨top, node⟩ := entry
    cases node with
    | directory size modified =>
      refine untouched (sameFiles_refl d) ?_
      rintro ⟨top', node', same, kind, _⟩
      rw [found] at same
      cases same
      cases kind
    | file bytes modified =>
      have node := (stat_iff.mp found).2
      refine ensures_io (ensures_mono (removeFile_files found) ?_)
      rintro r e ⟨rfl, files⟩
      refine ⟨fun _ _ => ?_, fun failed => absurd rfl (failed ())⟩
      have same := createDirAll_sameFiles (absolutePath root path) e
      unfold Ensures
      rw [context_io_state]
      refine fileOutcome_of_iff (fun _ => id) (fun lost => ?_) fun spared => ?_
      · obtain ⟨top', node', stat, _, within⟩ := lost
        rw [found] at stat
        cases stat
        rw [same, files, if_pos (file_is_leaf node there within)]
      · rw [same, files, if_neg, there]
        rintro rfl
        exact spared ⟨loc, _, found, rfl, List.prefix_rfl⟩
  | error error =>
    have spared : ¬Loses root d.tree (.ensure path) loc := by
      rintro ⟨top, node, stat, _⟩
      rw [found] at stat
      cases stat
    cases error with
    | notFound =>
      unfold Ensures
      rw [context_io_state]
      exact untouched made spared
    | _ => exact untouched (sameFiles_refl d) spared

theorem remove_outcome (path : String)
    (there : d.tree.fileBytes loc = some old) :
    Ensures (removeLocalPath root path) d fun _ e =>
      FileOutcome root delivered d.tree e.tree (.remove path) loc old := by
  unfold removeLocalPath
  refine ensures_get ?_
  cases found : d.tree.stat (absolutePath root path) with
  | ok entry =>
    obtain ⟨top, node⟩ := entry
    have below : Loses root d.tree (.remove path) loc ↔ top <+: loc := by
      constructor
      · rintro ⟨top', node', stat, _, within⟩
        rw [found] at stat
        cases stat
        exact within
      · exact fun within => ⟨top, node, found, rfl, within⟩
    cases node with
    | directory size modified =>
      have files := removeDirAll_files (directoryAt_stat.mpr ⟨size, modified, found⟩)
      unfold Ensures at files ⊢
      rw [context_io_state]
      refine fileOutcome_of_iff (fun _ => id) (fun lost => ?_) fun spared => ?_
      · rw [files, if_pos (below.mp lost)]
      · rw [files, if_neg fun within => spared (below.mpr within), there]
    | file bytes modified =>
      have files := removeFile_files found
      have node := (stat_iff.mp found).2
      unfold Ensures at files ⊢
      rw [context_io_state]
      refine fileOutcome_of_iff (fun _ => id) (fun lost => ?_) fun spared => ?_
      · rw [files.2, if_pos (file_is_leaf node there (below.mp lost))]
      · rw [files.2, if_neg, there]
        exact fun same => spared (below.mpr (by subst same; exact List.prefix_rfl))
  | error error =>
    have untouched : FileOutcome root delivered d.tree d.tree (.remove path) loc old := by
      refine fileOutcome_of_iff (fun _ => id) (fun lost => ?_) fun _ => there
      obtain ⟨top, node, stat, _⟩ := lost
      rw [found] at stat
      cases stat
    cases error with
    | notFound => exact untouched
    | _ => exact untouched

theorem createParent_sameFiles (target : Path) (d : Disk) :
    SameFiles d ((createParent target).run d).2 := by
  unfold createParent
  split
  · rw [context_io_state]
    exact createDirAll_sameFiles _ d
  · exact sameFiles_refl d

theorem createParent_ok {target : Path} (fits : Placeable d.tree target) :
    ∃ e entry, (createParent target).run d = (.ok (), e) ∧ e.tree.entry target = .ok entry := by
  obtain ⟨parent, e, entry, above, run, there⟩ := entry_after_createDirAll fits
  refine ⟨e, entry, ?_, there⟩
  unfold createParent
  simp only [above]
  rw [withContext_run, io_run, run]
  rfl

theorem receive_files (target : Path) (remote_key : String) (d : Disk) :
    Ensures (receiveFile delivered target remote_key) d fun _ e =>
      (∀ other, other ≠ lexical target → e.tree.fileBytes other = d.tree.fileBytes other) ∧
      ∀ old, d.tree.fileBytes (lexical target) = some old →
        (∀ bytes, delivered remote_key = .ok bytes → Placeable d.tree target →
          e.tree.fileBytes (lexical target) = some bytes) ∧
        ((∀ bytes, delivered remote_key = .ok bytes → ¬Placeable d.tree target) →
          e.tree.fileBytes (lexical target) = some old) := by
  have same := createParent_sameFiles target d
  unfold receiveFile
  rcases made : (createParent target).run d with ⟨r, e⟩
  rw [made] at same
  cases r with
  | error error =>
    refine ensures_of_run (bind_run_error made) ⟨fun other _ => same other, fun old there => ?_⟩
    refine ⟨fun bytes _ fits => ?_, fun _ => (same _).trans there⟩
    obtain ⟨e', entry, run, _⟩ := createParent_ok fits
    rw [made] at run
    cases run
  | ok done =>
    refine ensures_bind_ok made ?_
    unfold Ensures
    rw [withContext_run]
    cases arrived : delivered remote_key with
    | error error =>
      refine ⟨fun other _ => same other, fun old there => ⟨fun bytes impossible => ?_, fun _ => ?_⟩⟩
      · cases impossible
      · exact (same _).trans there
    | ok bytes =>
      change (∀ other, other ≠ lexical target → ((placeFile target bytes).run e).2.tree.fileBytes other =
        d.tree.fileBytes other) ∧ ∀ old, d.tree.fileBytes (lexical target) = some old →
          (∀ bytes', Except.ok bytes = Except.ok bytes' → Placeable d.tree target →
            ((placeFile target bytes).run e).2.tree.fileBytes (lexical target) = some bytes') ∧
          ((∀ bytes', Except.ok bytes = Except.ok bytes' → ¬Placeable d.tree target) →
            ((placeFile target bytes).run e).2.tree.fileBytes (lexical target) = some old)
      obtain ⟨placed, refused⟩ := @placeFile_files target bytes e
      by_cases lands : ∃ dir name, e.tree.entry target = .ok (dir, name) ∧
          e.tree.directory (dir ++ [name]) = false
      · obtain ⟨dir, name, entry, free⟩ := lands
        have files := placed dir name entry free
        refine ⟨fun other apart => ?_, fun old there => ⟨fun bytes' same_bytes _ => ?_, fun never => ?_⟩⟩
        · rw [files, if_neg apart, same]
        · cases same_bytes
          rw [files, if_pos rfl]
        · exact absurd (placeable_of_entry same entry) (never bytes rfl)
      · have unchanged := refused fun dir name entry => by
          by_contra free
          exact lands ⟨dir, name, entry, by simpa using free⟩
        rw [unchanged]
        refine ⟨fun other _ => same other, fun old there => ⟨fun bytes' _ fits => ?_, fun _ => ?_⟩⟩
        · -- a file is at the end of the path, so nothing refuses the placement
          obtain ⟨e', entry, run, found⟩ := createParent_ok fits
          rw [made] at run
          cases run
          refine absurd ⟨entry.1, entry.2, found, ?_⟩ lands
          rw [@entry_lexical _ _ entry.2 entry.1 found]
          by_contra directory
          rw [← same, fileBytes_none_of_directory (by simpa using directory)] at there
          cases there
        · exact (same _).trans there

theorem download_outcome (path remote_key : String)
    (there : d.tree.fileBytes loc = some old) :
    Ensures (downloadRemoteFile root delivered path remote_key) d fun _ e =>
      FileOutcome root delivered d.tree e.tree (.download path remote_key) loc old := by
  unfold downloadRemoteFile
  refine ensures_get ?_
  cases directory : d.tree.isDirectory (absolutePath root path) with
  | true =>
    have all := isDirectory_iff.mp directory
    obtain ⟨size, modified, found⟩ := directoryAt_stat.mp (directoryAt_iff.mpr ⟨rfl, all⟩)
    have apart : loc ≠ lexical (absolutePath root path) := by
      rintro rfl
      rw [fileBytes_none_of_directory (all _ List.prefix_rfl)] at there
      cases there
    have below : Loses root d.tree (.download path remote_key) loc ↔
        lexical (absolutePath root path) <+: loc := by
      constructor
      · rintro ⟨top, node, stat, _, within⟩
        rw [found] at stat
        cases stat
        exact within
      · exact fun within => ⟨_, _, found, rfl, within⟩
    have outcome : ∀ {e : Disk}, (e.tree.fileBytes loc =
        if lexical (absolutePath root path) <+: loc then none else d.tree.fileBytes loc) →
        FileOutcome root delivered d.tree e.tree (.download path remote_key) loc old := by
      intro e files
      refine fileOutcome_of_iff (fun bytes rewrites => apart rewrites.1) (fun lost => ?_)
        fun spared => ?_
      · rw [files, if_pos (below.mp lost)]
      · rw [files, if_neg fun within => spared (below.mpr within), there]
    refine ensures_io (ensures_mono (removeDirAll_files (directoryAt_stat.mpr ⟨size, modified, found⟩)) ?_)
    intro r e files
    refine ⟨fun _ _ => ?_, fun _ => outcome (files loc)⟩
    refine ensures_mono (receive_files _ remote_key e) ?_
    rintro _ t ⟨others, _⟩
    exact outcome ((others loc apart).trans (files loc))
  | false =>
    have spared : ¬Loses root d.tree (.download path remote_key) loc := by
      rintro ⟨top, node, stat, kind, _⟩
      cases node with
      | file bytes modified => cases kind
      | directory size modified =>
        have at_top := directoryAt_iff.mp (directoryAt_stat.mpr ⟨size, modified, stat⟩)
        rw [isDirectory_iff.mpr at_top.2] at directory
        cases directory
    refine ensures_bind_ok rfl (ensures_mono (receive_files _ remote_key d) ?_)
    rintro _ e ⟨others, here⟩
    by_cases target : loc = lexical (absolutePath root path)
    · obtain ⟨rewritten, kept⟩ := here old (by rw [← target]; exact there)
      refine ⟨fun lost => absurd lost spared, fun _ bytes rewrites => ?_, fun _ never => ?_⟩
      · rw [target]
        exact rewritten bytes rewrites.2.1 rewrites.2.2
      · rw [target]
        exact kept fun bytes arrived fits => never bytes ⟨target, arrived, fits⟩
    · refine fileOutcome_of_iff (fun bytes rewrites => target rewrites.1)
        (fun lost => absurd lost spared) fun _ => ?_
      exact (others loc target).trans there

theorem perform_outcome (fingerprint : List UInt8 → String) (op : Operation)
    (there : d.tree.fileBytes loc = some old) :
    FileOutcome root delivered d.tree
      ((perform (nativeFilesystemBackend root fingerprint delivered) op).run d).2.tree op loc old := by
  cases op with
  | ensure path => exact ensure_outcome path there
  | download path remote_key => exact download_outcome path remote_key there
  | remove path => exact remove_outcome path there

end Effects

section Plan
variable (root : Path) (fingerprint : List UInt8 → String)

def unchangedSinceRemembered (agent : Agent Disk) (path : String) : Bool :=
  match agent.localState.bind fun local_state => local_state.get path,
      localEntryStateForPath root agent.disk.tree path with
  | none, _ => true
  | some remembered, .ok current => current = some remembered
  | some _, .error _ => false

def alreadyMatches (hash : Option String) (tree : Tree) (path : String) : Bool :=
  match hash.filter fun hash => !isBlank hash, localEntryStateForPath root tree path,
      localFileContentFingerprint root fingerprint tree path with
  | some hash, .ok (some entry), .ok local_hash => entry.isFile && local_hash = hash
  | _, _, _ => false

def unlessFailed (entry : Except SyncError (Option LocalEntryState))
    (skips : Option LocalEntryState → Bool) (op : Operation) : Option Operation :=
  match entry with
  | .ok entry => if skips entry then none else some op
  | .error _ => none

/-- The operation that a round performs, told from the state before it. -/
def planned (call : Call Disk) (agent : Agent Disk) : Round → Option Operation
  | .changedDirectory path =>
    match call.tree.entryKinds.get path with
    | some (.directory, _) =>
      if unchangedSinceRemembered root agent path then some (.ensure path) else none
    | _ => none
  | .changedPath path =>
    match call.tree.entryKinds.get path with
    | some (.directory, _) => none
    | some (.file, remote_key) =>
      if unchangedSinceRemembered root agent path &&
          !alreadyMatches root fingerprint (call.tree.entryHashes.get path) agent.disk.tree path then
        some (.download path remote_key)
      else none
    | none =>
      unlessFailed (localEntryStateForPath root agent.disk.tree path) (fun entry =>
        entry.isSome && !remoteIndexContainsPathOrDescendants agent.remoteIndex path) (.remove path)
  | .startupDirectory path =>
    unlessFailed (localEntryStateForPath root agent.disk.tree path)
      (fun entry => entry.any LocalEntryState.isDirectory) (.ensure path)
  | .startupFile path =>
    match call.tree.entryKinds.get path with
    | some (.file, remote_key) =>
      unlessFailed (localEntryStateForPath root agent.disk.tree path) (fun entry =>
        call.keepsLocalFile path && entry.any LocalEntryState.isFile) (.download path remote_key)
    | _ => none
  | .adoptIndex => none
  | .deleteWinner path => some (.remove path)

def diskAfter (backend : FolderAgentLocalBackend Disk) (disk : Disk) : Option Operation → Disk
  | none => disk
  | some op => ((perform backend op).run disk).2

end Plan

section Bookkeeping

def SameDisk (agent after : Agent Disk) : Prop := after.disk = agent.disk

theorem sameDisk_refl (agent : Agent Disk) : SameDisk agent agent := rfl

theorem sameDisk_trans (a b c : Agent Disk) (first : SameDisk a b) (second : SameDisk b c) :
    SameDisk a c := Eq.trans second first

theorem sameDisk_modify {f : Agent Disk → Agent Disk} (same : ∀ agent, (f agent).disk = agent.disk) :
    Keeps SameDisk (modify f : AgentM Disk PUnit) := fun agent => same agent

theorem whenTracked_sameDisk {m : AgentM Disk Unit} (holds : Keeps SameDisk m) :
    Keeps SameDisk (whenTracked m) :=
  keeps_bind sameDisk_trans (keeps_get sameDisk_refl) fun _ => keeps_onlyIf sameDisk_refl holds

structure ReadsOnly (backend : FolderAgentLocalBackend Disk) : Prop where
  entry : ∀ path disk, ((backend.localEntryState path).run disk).2 = disk
  print : ∀ path disk, ((backend.fileContentFingerprint path).run disk).2 = disk

theorem native_readsOnly (root : Path) (fingerprint : List UInt8 → String)
    (delivered : String → Except SyncError (List UInt8)) :
    ReadsOnly (nativeFilesystemBackend root fingerprint delivered) := ⟨fun _ _ => rfl, fun _ _ => rfl⟩

variable {backend : FolderAgentLocalBackend Disk} (reads : ReadsOnly backend)
include reads

theorem read_sameDisk (path : String) : Keeps SameDisk (onDisk (backend.localEntryState path)) :=
  fun agent => reads.entry path agent.disk

theorem syncParents_sameDisk (path : String) :
    Keeps SameDisk (syncLocalStateParentDirectories backend path) := by
  refine keeps_forEach sameDisk_refl sameDisk_trans (fun parent => ?_) _
  refine keeps_bind sameDisk_trans (read_sameDisk reads parent) fun entry => ?_
  split
  · exact sameDisk_modify fun _ => rfl
  · exact sameDisk_modify fun _ => rfl

theorem syncPath_sameDisk (path : String) (entry_state : Option LocalEntryState) :
    Keeps SameDisk (whenTracked (syncLocalStatePathAndParents backend path entry_state)) := by
  refine whenTracked_sameDisk ?_
  refine keeps_bind sameDisk_trans (syncParents_sameDisk reads path) fun _ => ?_
  refine keeps_bind sameDisk_trans ?_ fun _ => sameDisk_modify fun _ => rfl
  cases entry_state with
  | none => exact read_sameDisk reads path
  | some entry => exact keeps_pure sameDisk_refl _

end Bookkeeping

section Rounds
variable {root : Path} {fingerprint : List UInt8 → String}
  {delivered : String → Except SyncError (List UInt8)} {call : Call Disk}

theorem onDisk_run (m : Program Disk SyncError α) (agent : Agent Disk) :
    (onDisk m).run agent = ((m.run agent.disk).1, { agent with disk := (m.run agent.disk).2 }) := rfl

theorem disk_after_step {β : Type} {m : Program Disk SyncError α} {f : α → AgentM Disk β}
    (agent : Agent Disk) (rest : ∀ a, Keeps SameDisk (f a)) :
    Ensures (onDisk m >>= f) agent fun _ after => after.disk = (m.run agent.disk).2 := by
  rcases run : m.run agent.disk with ⟨r, disk⟩
  have here : (onDisk m).run agent = (r, { agent with disk }) := by rw [onDisk_run, run]
  cases r with
  | error e => exact ensures_of_run (bind_run_error here) rfl
  | ok a => exact ensures_bind_ok here (rest a _)

theorem disk_after_context {β : Type} {text : String} {m : Program Disk SyncError α}
    {f : α → AgentM Disk β} (agent : Agent Disk) (rest : ∀ a, Keeps SameDisk (f a)) :
    Ensures (withContext text (onDisk m) >>= f) agent fun _ after =>
      after.disk = (m.run agent.disk).2 := by
  rcases run : m.run agent.disk with ⟨r, disk⟩
  have here : (withContext text (onDisk m)).run agent =
      (r.mapError (.context text), { agent with disk }) := by
    rw [withContext_run, onDisk_run, run]
  cases r with
  | error e => exact ensures_of_run (bind_run_error here) rfl
  | ok a => exact ensures_bind_ok here (rest a _)

section Materialize
variable (reads : ReadsOnly call.backend) (path : String)
include reads

theorem materializeDirectory_disk (agent : Agent Disk) :
    Ensures (materializeDirectory call path) agent fun _ after =>
      after.disk = ((call.backend.ensureLocalDirectory path).run agent.disk).2 := by
  refine ensures_bind_ok rfl (ensures_bind_ok rfl (disk_after_step _ fun _ => ?_))
  refine keeps_bind sameDisk_trans ?_ fun _ => syncPath_sameDisk reads path _
  refine keeps_bind sameDisk_trans (keeps_get sameDisk_refl) fun _ => ?_
  exact keeps_ite (read_sameDisk reads path) (keeps_pure sameDisk_refl _)

theorem materializeFile_disk (remote_key : String) (agent : Agent Disk) :
    Ensures (materializeFile call path remote_key) agent fun _ after =>
      after.disk = ((call.backend.downloadRemoteFile path remote_key).run agent.disk).2 := by
  have downloaded : ∀ agent, Ensures (downloadRemoteFileWithLogging call path remote_key) agent
      fun _ after => after.disk =
        ((call.backend.downloadRemoteFile path remote_key).run agent.disk).2 := by
    intro agent
    refine disk_after_context agent fun _ => ?_
    refine keeps_bind sameDisk_trans (read_sameDisk reads path) fun entry => ?_
    split
    · exact keeps_pure sameDisk_refl _
    · exact keeps_throw sameDisk_refl _
  refine ensures_bind_ok rfl (ensures_bind (downloaded _) (fun entry after same => ?_)
    fun _ _ same => same)
  have rest : Keeps SameDisk (whenTracked (syncLocalStatePathAndParents call.backend path
      (some entry)) >>= fun _ => suppressUpload path entry) :=
    keeps_bind sameDisk_trans (syncPath_sameDisk reads path _) fun _ => sameDisk_modify fun _ => rfl
  exact (rest after).trans same

end Materialize

variable (native : call.backend = nativeFilesystemBackend root fingerprint delivered)
include native

theorem entry_read (agent : Agent Disk) (path : String) :
    (onDisk (call.backend.localEntryState path)).run agent = (localEntryStateForPath root agent.disk.tree path, agent) := by
  have read : (call.backend.localEntryState path).run agent.disk =
      (localEntryStateForPath root agent.disk.tree path, agent.disk) := by
    rw [native]
    simp only [nativeFilesystemBackend, bind_run, get_run, lift_run]
  rw [onDisk_run, read]

variable {agent : Agent Disk} {path : String}

theorem diverged_run {local_state : LocalTreeState}
    {entry : LocalEntryState} (tracked : agent.localState = some local_state)
    (remembered : local_state.get path = some entry) :
    (rememberedPathDiverged call.backend path).run agent =
      ((localEntryStateForPath root agent.disk.tree path).map fun current => decide (some entry ≠ current), agent) := by
  unfold rememberedPathDiverged localPathDivergedSinceBaseline
  have run := entry_read native agent path
  cases found : localEntryStateForPath root agent.disk.tree path with
  | error error =>
    rw [found] at run
    simp [bind_run, tracked, Table.has, remembered, run, Except.map]
  | ok current =>
    rw [found] at run
    simp [bind_run, tracked, Table.has, remembered, run, Except.map]

theorem diverged_cases (agent : Agent Disk) (path : String) :
    ((rememberedPathDiverged call.backend path).run agent = (.ok false, agent) ∧
      unchangedSinceRemembered root agent path = true) ∨
    ((∃ r, (rememberedPathDiverged call.backend path).run agent = (r, agent) ∧ r ≠ .ok false) ∧
      unchangedSinceRemembered root agent path = false) := by
  unfold unchangedSinceRemembered
  cases tracked : agent.localState with
  | none => exact .inl ⟨by simp [rememberedPathDiverged, bind_run, tracked], rfl⟩
  | some local_state =>
    cases remembered : local_state.get path with
    | none =>
      refine .inl ⟨?_, by simp [remembered]⟩
      simp [rememberedPathDiverged, bind_run, tracked, Table.has, remembered]
    | some entry =>
      have run := diverged_run native tracked remembered
      cases found : localEntryStateForPath root agent.disk.tree path with
      | error error =>
        rw [found] at run
        exact .inr ⟨⟨_, run, by simp [Except.map]⟩, by simp [remembered]⟩
      | ok current =>
        rw [found] at run
        by_cases same : current = some entry
        · exact .inl ⟨by rw [run, same]; simp [Except.map], by simp [remembered, same]⟩
        · refine .inr ⟨⟨_, run, ?_⟩, by simp [remembered, same]⟩
          simp [Except.map, Ne.symm same]

theorem matching_cases (agent : Agent Disk) (path : String) (hash : Option String) :
    (∃ entry, (matchingLocalEntryForRemoteFileChange call path hash).run agent =
      (.ok (some entry), agent) ∧ alreadyMatches root fingerprint hash agent.disk.tree path = true) ∨
    ((matchingLocalEntryForRemoteFileChange call path hash).run agent = (.ok none, agent) ∧
      alreadyMatches root fingerprint hash agent.disk.tree path = false) := by
  have run := entry_read native agent path
  have print : (onDisk (call.backend.fileContentFingerprint path)).run agent =
      (localFileContentFingerprint root fingerprint agent.disk.tree path, agent) := by
    have read : (call.backend.fileContentFingerprint path).run agent.disk =
        (localFileContentFingerprint root fingerprint agent.disk.tree path, agent.disk) := by
      rw [native]
      simp only [nativeFilesystemBackend, bind_run, get_run, lift_run]
    rw [onDisk_run, read]
  unfold matchingLocalEntryForRemoteFileChange alreadyMatches
  cases filled : hash.filter fun hash => !isBlank hash with
  | none => exact .inr ⟨rfl, rfl⟩
  | some wanted =>
    simp only [unmatched, tryCatch_run]
    cases found : localEntryStateForPath root agent.disk.tree path with
    | error error =>
      rw [found] at run
      exact .inr ⟨by rw [bind_run_error run]; rfl, rfl⟩
    | ok entry =>
      rw [found] at run
      rw [bind_run_ok run]
      cases entry with
      | none => exact .inr ⟨rfl, rfl⟩
      | some entry =>
        cases file : entry.isFile with
        | false =>
          refine .inr ⟨by simp [Option.filter, file], ?_⟩
          cases localFileContentFingerprint root fingerprint agent.disk.tree path with
          | error error => rfl
          | ok local_hash => simp [file]
        | true =>
          simp only [Option.filter, file, if_true]
          cases printed : localFileContentFingerprint root fingerprint agent.disk.tree path with
          | error error =>
            rw [printed] at print
            exact .inr ⟨by rw [bind_run_error print]; rfl, rfl⟩
          | ok local_hash =>
            rw [printed] at print
            rw [bind_run_ok print]
            by_cases same : local_hash = wanted
            · exact .inl ⟨entry, by simp [same], by simp [same, file]⟩
            · exact .inr ⟨by simp [same], by simp [same]⟩

theorem disk_unless_diverged {m : AgentM Disk Unit} {disk : Disk}
    (next : Ensures m agent fun _ after => after.disk = disk) :
    Ensures (do if ← rememberedPathDiverged call.backend path then pure () else m) agent
      fun _ after => after.disk =
        if unchangedSinceRemembered root agent path = true then disk else agent.disk := by
  rcases diverged_cases native agent path with ⟨run, unchanged⟩ | ⟨⟨r, run, other⟩, changed⟩
  · rw [if_pos unchanged]
    exact ensures_bind_ok run next
  · rw [if_neg (by simp [changed])]
    cases r with
    | error error => exact ensures_of_run (bind_run_error run) rfl
    | ok diverged =>
      cases diverged with
      | true => exact ensures_bind_ok run rfl
      | false => exact absurd rfl other

theorem downloadUnlessMatching_disk (agent : Agent Disk) (path remote_key : String) :
    Ensures (do
      match ← matchingLocalEntryForRemoteFileChange call path (call.tree.entryHashes.get path) with
      | some entry_state => do
        whenTracked (syncLocalStatePathAndParents call.backend path (some entry_state))
        suppressUpload path entry_state
      | none => materializeFile call path remote_key) agent fun _ after => after.disk =
        if alreadyMatches root fingerprint (call.tree.entryHashes.get path) agent.disk.tree path =
          true then agent.disk
        else ((call.backend.downloadRemoteFile path remote_key).run agent.disk).2 := by
  have reads : ReadsOnly call.backend := by rw [native]; exact native_readsOnly ..
  rcases matching_cases native agent path (call.tree.entryHashes.get path) with
    ⟨entry, run, same⟩ | ⟨run, different⟩
  · rw [if_pos same]
    refine ensures_bind_ok run ?_
    have rest : Keeps SameDisk (whenTracked (syncLocalStatePathAndParents call.backend path
        (some entry)) >>= fun _ => suppressUpload path entry) :=
      keeps_bind sameDisk_trans (syncPath_sameDisk reads path _) fun _ =>
        sameDisk_modify fun _ => rfl
    exact rest agent
  · rw [if_neg (by simp [different])]
    exact ensures_bind_ok run (materializeFile_disk reads path remote_key agent)

theorem changedFile_disk (agent : Agent Disk) (path remote_key : String) :
    Ensures (applyChangedFile call path remote_key) agent fun _ after => after.disk =
      if unchangedSinceRemembered root agent path = true then
        if alreadyMatches root fingerprint (call.tree.entryHashes.get path) agent.disk.tree path =
          true then agent.disk
        else ((call.backend.downloadRemoteFile path remote_key).run agent.disk).2
      else agent.disk :=
  disk_unless_diverged native
    (ensures_bind_ok rfl (downloadUnlessMatching_disk native _ path remote_key))

theorem disk_by_entry {c : Option LocalEntryState → Bool}
    {op : Operation} {f : Option LocalEntryState → AgentM Disk Unit}
    (skipped : ∀ entry, c entry = true → Ensures (f entry) agent fun _ after =>
      after.disk = agent.disk)
    (next : ∀ entry, c entry = false → Ensures (f entry) agent fun _ after =>
      after.disk = diskAfter call.backend agent.disk (some op)) :
    Ensures (onDisk (call.backend.localEntryState path) >>= f) agent fun _ after => after.disk =
      diskAfter call.backend agent.disk
        (unlessFailed (localEntryStateForPath root agent.disk.tree path) c op) := by
  have read := entry_read native agent path
  cases found : localEntryStateForPath root agent.disk.tree path with
  | error error =>
    rw [found] at read
    exact ensures_of_run (bind_run_error read) rfl
  | ok entry =>
    rw [found] at read
    refine ensures_bind_ok read ?_
    cases done : c entry with
    | true => simpa [unlessFailed, done, diskAfter] using skipped entry done
    | false => simpa [unlessFailed, done] using next entry done

theorem changedAbsence_disk (agent : Agent Disk) (path : String) :
    Ensures (applyChangedAbsence call path) agent fun _ after => after.disk =
      diskAfter call.backend agent.disk
        (unlessFailed (localEntryStateForPath root agent.disk.tree path) (fun entry =>
          entry.isSome && !remoteIndexContainsPathOrDescendants agent.remoteIndex path)
          (.remove path)) := by
  have reads : ReadsOnly call.backend := by rw [native]; exact native_readsOnly ..
  unfold applyChangedAbsence
  refine ensures_bind_ok rfl (disk_by_entry native (fun entry stale => ensures_get ?_)
    fun entry expected => ensures_get ?_)
  · rw [if_pos (by exact stale)]
    rfl
  · rw [if_neg (by rw [expected]; simp)]
    refine ensures_bind_ok rfl (disk_after_context _ fun _ => ?_)
    refine keeps_bind sameDisk_trans (sameDisk_modify fun _ => rfl) fun _ => ?_
    refine whenTracked_sameDisk ?_
    exact keeps_bind sameDisk_trans (sameDisk_modify fun _ => rfl) fun _ =>
      syncParents_sameDisk reads path

theorem startupDirectory_disk (agent : Agent Disk) (path : String) :
    Ensures (applyStartupDirectory call path) agent fun _ after => after.disk =
      diskAfter call.backend agent.disk
        (unlessFailed (localEntryStateForPath root agent.disk.tree path)
          (fun entry => entry.any LocalEntryState.isDirectory) (.ensure path)) := by
  have reads : ReadsOnly call.backend := by rw [native]; exact native_readsOnly ..
  refine disk_by_entry native (fun entry present => ?_) fun entry absent => ?_
  · rw [if_pos present]
    rfl
  · rw [if_neg (by simp [absent])]
    exact materializeDirectory_disk reads path agent

theorem startupFile_disk (agent : Agent Disk) (path remote_key : String) :
    Ensures (applyStartupFile call path remote_key) agent fun _ after => after.disk =
      diskAfter call.backend agent.disk
        (unlessFailed (localEntryStateForPath root agent.disk.tree path) (fun entry =>
          call.keepsLocalFile path && entry.any LocalEntryState.isFile)
          (.download path remote_key)) := by
  have reads : ReadsOnly call.backend := by rw [native]; exact native_readsOnly ..
  refine disk_by_entry native (fun entry kept => ?_) fun entry replaced => ?_
  · rw [if_pos kept]
    rfl
  · rw [if_neg (by rw [replaced]; simp)]
    exact ensures_bind_ok rfl (materializeFile_disk reads path remote_key _)

/-- A round changes the disk by the operation that was planned, and by nothing else. -/
theorem round_disk (agent : Agent Disk) (round : Round) :
    Ensures (applyRound call round) agent fun _ after =>
      after.disk = diskAfter call.backend agent.disk (planned root fingerprint call agent round) := by
  have reads : ReadsOnly call.backend := by rw [native]; exact native_readsOnly ..
  cases round with
  | changedDirectory path =>
    simp only [applyRound, planned]
    cases call.tree.entryKinds.get path with
    | none => exact rfl
    | some entry =>
      obtain ⟨entry_kind, remote_key⟩ := entry
      cases entry_kind with
      | file => exact rfl
      | directory =>
        refine ensures_mono (disk_unless_diverged native (materializeDirectory_disk reads path agent))
          fun _ after same => same.trans ?_
        split
        · rfl
        · rfl
  | changedPath path =>
    simp only [applyRound, planned]
    cases call.tree.entryKinds.get path with
    | none => exact changedAbsence_disk native agent path
    | some entry =>
      obtain ⟨entry_kind, remote_key⟩ := entry
      cases entry_kind with
      | directory => exact rfl
      | file =>
        refine ensures_mono (changedFile_disk native agent path remote_key)
          fun _ after same => same.trans ?_
        split
        · next unchanged =>
          split
          · next matching => simp [unchanged, matching, diskAfter]
          · next matching => simp [unchanged, matching, diskAfter, perform]
        · next changed => simp [changed, diskAfter]
  | startupDirectory path => exact startupDirectory_disk native agent path
  | startupFile path =>
    simp only [applyRound, planned]
    cases call.tree.entryKinds.get path with
    | none => exact rfl
    | some entry =>
      obtain ⟨entry_kind, remote_key⟩ := entry
      cases entry_kind with
      | directory => exact rfl
      | file => exact startupFile_disk native agent path remote_key
  | adoptIndex => exact rfl
  | deleteWinner path =>
    refine disk_after_context agent fun _ => ?_
    exact keeps_bind sameDisk_trans (sameDisk_modify fun _ => rfl) fun _ =>
      sameDisk_modify fun _ => rfl

end Rounds

section Survival
variable (root : Path) (fingerprint : List UInt8 → String)
  (delivered : String → Except SyncError (List UInt8))
  (guard : Location → α → Prop) (view : List UInt8 → α)

def Held (tree : Tree) : Prop := ∀ loc a, guard loc a → (tree.fileBytes loc).map view = some a

def SparesOperation (tree : Tree) (op : Operation) : Prop :=
  ∀ loc a, guard loc a → ¬Loses root tree op loc ∧
    ∀ bytes, Rewrites root delivered tree op loc bytes → view bytes = a

def Spares (call : Call Disk) (agent : Agent Disk) (round : Round) : Prop :=
  ∀ op, planned root fingerprint call agent round = some op →
    SparesOperation root delivered guard view agent.disk.tree op

variable {root fingerprint delivered guard view}

theorem operation_held {d : Disk} (held : Held guard view d.tree) (op : Operation) :
    Held guard view
      ((perform (nativeFilesystemBackend root fingerprint delivered) op).run d).2.tree ↔
      SparesOperation root delivered guard view d.tree op := by
  have outcome : ∀ loc a, guard loc a → ∃ old, view old = a ∧ FileOutcome root delivered d.tree
      ((perform (nativeFilesystemBackend root fingerprint delivered) op).run d).2.tree op loc old := by
    intro loc a guarded
    obtain ⟨old, there, looks⟩ := Option.map_eq_some_iff.mp (held loc a guarded)
    exact ⟨old, looks, perform_outcome fingerprint op there⟩
  constructor
  · intro after loc a guarded
    obtain ⟨old, looks, files⟩ := outcome loc a guarded
    have spared : ¬Loses root d.tree op loc := by
      intro lost
      have here := after loc a guarded
      rw [files.lost lost] at here
      cases here
    refine ⟨spared, fun bytes rewrites => ?_⟩
    have here := after loc a guarded
    rw [files.rewritten spared bytes rewrites] at here
    exact Option.some.inj here
  · intro spares loc a guarded
    obtain ⟨old, looks, files⟩ := outcome loc a guarded
    obtain ⟨spared, same⟩ := spares loc a guarded
    by_cases rewritten : ∃ bytes, Rewrites root delivered d.tree op loc bytes
    · obtain ⟨bytes, rewrites⟩ := rewritten
      rw [files.rewritten spared bytes rewrites, Option.map_some, same bytes rewrites]
    · rw [files.kept spared fun bytes rewrites => rewritten ⟨bytes, rewrites⟩, Option.map_some, looks]

theorem round_held {call : Call Disk}
    (native : call.backend = nativeFilesystemBackend root fingerprint delivered)
    (agent : Agent Disk) (round : Round) (held : Held guard view agent.disk.tree) :
    Held guard view ((applyRound call round).run agent).2.disk.tree ↔
      Spares root fingerprint delivered guard view call agent round := by
  have disk := round_disk native agent round
  unfold Ensures at disk
  rw [disk, native]
  unfold Spares
  cases planned root fingerprint call agent round with
  | none => simpa [diskAfter] using held
  | some op =>
    have exact_op := @operation_held _ root fingerprint delivered _ _ _ held op
    constructor
    · intro after other same
      cases same
      exact exact_op.mp after
    · exact fun spares => exact_op.mpr (spares op rfl)

theorem rounds_held {call : Call Disk}
    (native : call.backend = nativeFilesystemBackend root fingerprint delivered)
    (agent : Agent Disk) (rounds : List Round) (held : Held guard view agent.disk.tree) :
    (∀ done, done <+: rounds →
      Held guard view ((forEach done (applyRound call)).run agent).2.disk.tree) ↔
      AllRounds (applyRound call) (Spares root fingerprint delivered guard view call) agent rounds :=
  forEach_iff (P := fun agent => Held guard view agent.disk.tree) (round_held native) rounds agent held

end Survival

section SteadyState

def relativePath (root loc : Location) : Option String :=
  if root.isPrefixOf loc then
    (some (normalizeRelativePath (joinWith '/' (loc.drop root.length)))).filter fun path => path ≠ ""
  else none

def transferStateRoot (root : Location) : Location := root ++ [".berrykeep", "transfers"]

def rememberedEntry (root : Location) (agent : Agent Disk) (loc : Location) :
    Option LocalEntryState :=
  (relativePath root loc).bind fun path => agent.localState.bind fun local_state => local_state.get path

/-- A file of the folder that is not as it is remembered, or not remembered at all; what the
    agent itself stages for a transfer is not meant. -/
def Unsynchronised (root : Path) (fingerprint : List UInt8 → String) (agent : Agent Disk)
    (loc : Location) (print : String) : Prop :=
  lexical root <+: loc ∧ ¬transferStateRoot (lexical root) <+: loc ∧
    ∃ bytes modified, agent.disk.tree.nodes.get loc = some (.file bytes modified) ∧
      fingerprint bytes = print ∧
      rememberedEntry (lexical root) agent loc ≠ some ⟨.file, bytes.length, modified⟩

/-- In steady state, files that are not synchronised survive every round exactly if each round's
    operation, which follows from the state before it, spares them. -/
theorem steady_state_spares_iff (root : Path) (fingerprint : List UInt8 → String)
    (delivered : String → Except SyncError (List UInt8)) (scope : PathScope) (has_state_store : Bool)
    (snapshot : List NamespaceEntry) (changed_paths : List String)
    (preserve matching : Option (IterSet String)) (agent : Agent Disk) :
    let call : Call Disk := ⟨nativeFilesystemBackend root fingerprint delivered, has_state_store,
      remoteTree scope snapshot, preserve, matching⟩
    let rounds := snapshotRounds scope (remoteTree scope snapshot) (some changed_paths)
    applyRemoteSnapshot call.backend scope has_state_store snapshot (some changed_paths) preserve
      matching = forEach rounds (applyRound call) ∧
    ((∀ done, done <+: rounds → Held (Unsynchronised root fingerprint agent) fingerprint
      ((forEach done (applyRound call)).run agent).2.disk.tree) ↔
      AllRounds (applyRound call)
        (Spares root fingerprint delivered (Unsynchronised root fingerprint agent) fingerprint call)
        agent rounds) := by
  intro call rounds
  have native : call.backend = nativeFilesystemBackend root fingerprint delivered := rfl
  refine ⟨rfl, rounds_held native agent rounds ?_⟩
  rintro loc print ⟨_, _, bytes, modified, node, same, _⟩
  simp [Tree.fileBytes, node, same]

def sampleFolder : Disk where
  tree := (((Tree.bare.put ["sync"] (.directory 0 0)).put ["sync", "a"] (.file [1, 2] 5)).put
    ["sync", "d"] (.directory 0 0)).put ["sync", "d", "b"] (.file [3] 5)
  stamps _ := (0, 9)

def sampleAgent (remembered : LocalTreeState) (index : RemoteTreeIndex) : Agent Disk :=
  ⟨sampleFolder, some remembered, .empty, index, ⟨0, 0, 0, 0⟩⟩

def sampleBackend : FolderAgentLocalBackend Disk :=
  nativeFilesystemBackend ["sync"] (fun bytes => String.ofList (bytes.map fun b => Char.ofNat b.toNat))
    fun _ => .ok [7]

/-- A file that was changed since it was synchronised is removed with its remote original, and one
    that is not remembered is replaced by a remote file of that name. -/
theorem modified_and_new_files_are_lost :
    let print := fun bytes : List UInt8 => String.ofList (bytes.map fun b => Char.ofNat b.toNat)
    let modified := sampleAgent (Table.empty.put "a" ⟨.file, 1, 3⟩) ⟨.ofList ["a"], .empty⟩
    let fresh := sampleAgent .empty .empty
    Unsynchronised ["sync"] print modified ["sync", "a"] (print [1, 2]) ∧
    ((applyRemoteSnapshot sampleBackend (.new none) true [] (some ["a"]) none none).run
      modified).2.disk.tree.fileBytes ["sync", "a"] = none ∧
    Unsynchronised ["sync"] print fresh ["sync", "a"] (print [1, 2]) ∧
    ((applyRemoteSnapshot sampleBackend (.new none) true [⟨"a", .file, some "remote", none⟩]
      (some ["a"]) none none).run fresh).2.disk.tree.fileBytes ["sync", "a"] = some [7] := by
  intro print modified fresh
  refine ⟨⟨by decide, by decide, [1, 2], 5, by decide +kernel, rfl, by decide +kernel⟩,
    by decide +kernel, ⟨by decide, by decide, [1, 2], 5, by decide +kernel, rfl, by decide +kernel⟩,
    by decide +kernel⟩

end SteadyState

section Startup

def startupAgent (disk : Disk) (local_state : LocalTreeState) : Agent Disk :=
  ⟨disk, some local_state, .empty, .empty, ⟨0, 0, 0, 0⟩⟩

def startupRounds (scope : PathScope) (snapshot : List NamespaceEntry) (paths : StartupPaths) :
    List Round :=
  snapshotRounds scope (remoteTree scope snapshot) none ++ paths.deleteWins.sorted.map .deleteWinner

theorem reconcileStartup_rounds {σ : Type} (backend : FolderAgentLocalBackend σ) (scope : PathScope)
    (snapshot : List NamespaceEntry) (paths : StartupPaths) :
    reconcileStartup backend scope snapshot paths = forEach (startupRounds scope snapshot paths)
      (applyRound (startupCall backend scope snapshot paths)) := by
  unfold reconcileStartup startupRounds
  rw [forEach_append, forEach_map]
  rfl

def Preserved (root : Path) (tree : Tree) (paths : StartupPaths) (loc : Location)
    (bytes : List UInt8) : Prop :=
  ∃ path modified, path ∈ paths.preserve.items ∧ path ∉ paths.deleteWins.items ∧
    tree.stat (absolutePath root path) = .ok (loc, .file bytes modified)

/-- At startup, the preserved files keep their bytes through every round exactly if each round's
    operation, which follows from the state before it, spares them. -/
theorem startup_spares_iff (root : Path) (fingerprint : List UInt8 → String)
    (delivered : String → Except SyncError (List UInt8)) (scope : PathScope)
    (snapshot : List NamespaceEntry) (disk : Disk) (local_state : LocalTreeState)
    (baseline : Option LocalTreeState) (baseline_hashes : Table String String) :
    let paths := startupPaths scope snapshot local_state baseline baseline_hashes
      (localFileContentFingerprint root fingerprint disk.tree)
    let backend := nativeFilesystemBackend root fingerprint delivered
    let call := startupCall backend scope snapshot paths
    let rounds := startupRounds scope snapshot paths
    reconcileStartup backend scope snapshot paths = forEach rounds (applyRound call) ∧
    ((∀ done, done <+: rounds → Held (Preserved root disk.tree paths) id
      ((forEach done (applyRound call)).run (startupAgent disk local_state)).2.disk.tree) ↔
      AllRounds (applyRound call)
        (Spares root fingerprint delivered (Preserved root disk.tree paths) id call)
        (startupAgent disk local_state) rounds) := by
  intro paths backend call rounds
  have native : call.backend = nativeFilesystemBackend root fingerprint delivered := rfl
  refine ⟨reconcileStartup_rounds .., rounds_held native (startupAgent disk local_state) rounds ?_⟩
  rintro loc bytes ⟨path, modified, _, _, found⟩
  have node := (stat_iff.mp found).2
  simp [startupAgent, Tree.fileBytes, node]

/-- A local file that nobody else knows is replaced by a remote directory of its name, and so is
    one below a directory whose name a remote file has. -/
theorem preserved_files_are_lost :
    let print := localFileContentFingerprint ["sync"]
      (fun bytes => String.ofList (bytes.map fun b => Char.ofNat b.toNat)) sampleFolder.tree
    let remembered : LocalTreeState := (Table.empty.put "a" ⟨.file, 2, 5⟩).put "d/b" ⟨.file, 1, 5⟩
    let snapshot : List NamespaceEntry := [⟨"a", .directory, none, none⟩, ⟨"d", .file, none, none⟩]
    let paths := startupPaths (.new none) snapshot remembered none .empty print
    let after := ((reconcileStartup sampleBackend (.new none) snapshot paths).run
      (startupAgent sampleFolder remembered)).2.disk.tree
    Preserved ["sync"] sampleFolder.tree paths ["sync", "a"] [1, 2] ∧
    after.fileBytes ["sync", "a"] = none ∧
    Preserved ["sync"] sampleFolder.tree paths ["sync", "d", "b"] [3] ∧
    after.fileBytes ["sync", "d", "b"] = none := by
  intro print remembered snapshot paths after
  refine ⟨⟨"a", 5, by decide +kernel, by decide +kernel, by decide +kernel⟩, by decide +kernel,
    ⟨"d/b", 5, by decide +kernel, by decide +kernel, by decide +kernel⟩, by decide +kernel⟩

end Startup

end BerryKeepFolderSafety
