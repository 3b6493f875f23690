import Mathlib.Data.String.Basic
import BerryKeep.FolderPaths

/-!
Applying a remote snapshot to a local folder. The agent works through a backend
that inspects, makes, replaces and removes entries by their relative paths. What
it does is a list of rounds, one for each path, and an error ends the list. In
steady state the paths are those that changed remotely, at startup they are all
paths of the snapshot, followed by the paths whose remote deletion wins.
-/
namespace BerryKeepFolderSync
open FiniteTable StatefulProgram TextOperations FileTree BerryKeepFolderPaths

inductive LocalEntryKind where
  | file
  | directory
  deriving DecidableEq

structure LocalEntryState where
  kind : LocalEntryKind
  sizeBytes : Nat
  modifiedUnixMs : Nat
  deriving DecidableEq

def LocalEntryState.isFile (entry : LocalEntryState) : Bool := entry.kind = .file

def LocalEntryState.isDirectory (entry : LocalEntryState) : Bool := entry.kind = .directory

abbrev LocalTreeState := Table String LocalEntryState

inductive EntryKind where
  | file
  | directory
  deriving DecidableEq

structure NamespaceEntry where
  path : String
  kind : EntryKind
  contentHash : Option String
  contentFingerprint : Option String

inductive SyncError where
  | io (error : IoError)
  | message (text : String)
  | context (text : String) (cause : SyncError)
  deriving DecidableEq

variable {σ α : Type}

def withContext (text : String) (m : Program σ SyncError α) : Program σ SyncError α :=
  tryCatch m fun cause => throw (.context text cause)

structure FolderAgentLocalBackend (σ : Type) where
  localEntryState : String → Program σ SyncError (Option LocalEntryState)
  fileContentFingerprint : String → Program σ SyncError String
  ensureLocalDirectory : String → Program σ SyncError Unit
  downloadRemoteFile : String → String → Program σ SyncError Unit
  removeLocalPath : String → Program σ SyncError Unit

structure RemoteTreeIndex where
  files : IterSet String
  directories : IterSet String

def RemoteTreeIndex.empty : RemoteTreeIndex := ⟨.empty, .empty⟩

structure RemoteApplyOutcome where
  changedPathCount : Nat
  ensuredDirectoryCount : Nat
  downloadedFileCount : Nat
  removedLocalPathCount : Nat

structure Agent (σ : Type) where
  disk : σ
  localState : Option LocalTreeState
  suppressedUploads : Table String LocalEntryState
  remoteIndex : RemoteTreeIndex
  outcome : RemoteApplyOutcome

abbrev AgentM (σ : Type) := Program (Agent σ) SyncError

def onDisk (m : Program σ SyncError α) : AgentM σ α :=
  onPart Agent.disk (fun agent disk => { agent with disk }) m

section LocalState

def startsWith (text start : String) : Bool := start.toList.isPrefixOf text.toList

def removeLocalStatePathAndDescendants (local_state : LocalTreeState) (path : String) :
    LocalTreeState :=
  local_state.retain fun entry_path _ => entry_path ≠ path && !startsWith entry_path (path ++ "/")

def modifyLocalState (f : LocalTreeState → LocalTreeState) : AgentM σ Unit :=
  modify fun agent => { agent with localState := agent.localState.map f }

def whenTracked (m : AgentM σ Unit) : AgentM σ Unit := do
  onlyIf (← get).localState.isSome m

variable (backend : FolderAgentLocalBackend σ)

def syncLocalStateParentDirectories (path : String) : AgentM σ Unit :=
  forEach (parentDirectories path) fun parent => do
    let entry ← onDisk (backend.localEntryState parent)
    match entry.filter LocalEntryState.isDirectory with
    | some directory => modifyLocalState fun local_state => local_state.put parent directory
    | none => modifyLocalState fun local_state => removeLocalStatePathAndDescendants local_state parent

def rememberEntry (path : String) : Option LocalEntryState → LocalTreeState → LocalTreeState
  | some entry, local_state =>
    if entry.isFile then (removeLocalStatePathAndDescendants local_state path).put path entry
    else local_state.put path entry
  | none, local_state => removeLocalStatePathAndDescendants local_state path

def entryOrCurrent (path : String) : Option LocalEntryState → AgentM σ (Option LocalEntryState)
  | some entry => pure (some entry)
  | none => onDisk (backend.localEntryState path)

def syncLocalStatePathAndParents (path : String) (entry_state : Option LocalEntryState) :
    AgentM σ Unit := do
  syncLocalStateParentDirectories backend path
  let entry_state ← entryOrCurrent backend path entry_state
  modifyLocalState (rememberEntry path entry_state)

def localPathDivergedSinceBaseline (path : String) : AgentM σ Bool := do
  match (← get).localState with
  | none => pure false
  | some local_state =>
    let current ← onDisk (backend.localEntryState path)
    pure (decide (local_state.get path ≠ current))

def rememberedPathDiverged (path : String) : AgentM σ Bool := do
  if (← get).localState.any fun local_state => local_state.has path then
    localPathDivergedSinceBaseline backend path
  else pure false

end LocalState

section RemoteTree

structure RemoteTree where
  nextIndex : RemoteTreeIndex
  entryKinds : Table String (EntryKind × String)
  entryHashes : Table String String

def RemoteTree.empty : RemoteTree := ⟨.empty, .empty, .empty⟩

def NamespaceEntry.hash (entry : NamespaceEntry) : Option String :=
  entry.contentFingerprint.or entry.contentHash

def RemoteTree.add (tree : RemoteTree) (entry : NamespaceEntry) (local_path remote_path : String) :
    RemoteTree where
  nextIndex := match entry.kind with
    | .directory =>
      { tree.nextIndex with directories := tree.nextIndex.directories.insert local_path }
    | .file => { tree.nextIndex with files := tree.nextIndex.files.insert local_path }
  entryKinds := tree.entryKinds.put local_path (entry.kind, remote_path)
  entryHashes := match entry.kind, entry.hash.filter fun hash => !isBlank hash with
    | .file, some hash => tree.entryHashes.put local_path hash
    | _, _ => tree.entryHashes

def addEntry (scope : PathScope) (tree : RemoteTree) (entry : NamespaceEntry) : RemoteTree :=
  let remote_path := normalizeRelativePath entry.path
  match scope.remoteToLocal remote_path with
  | none => tree
  | some local_path => if local_path = "" then tree else tree.add entry local_path remote_path

def remoteTree (scope : PathScope) (snapshot : List NamespaceEntry) : RemoteTree :=
  snapshot.foldl (addEntry scope) .empty

def changedLocalPaths (scope : PathScope) (changed_paths : List String) : List String :=
  (IterSet.ofList (localPaths scope changed_paths)).sorted

def remoteIndexContainsPathOrDescendants (remote_index : RemoteTreeIndex) (path : String) : Bool :=
  remote_index.files.contains path || remote_index.directories.contains path ||
    (remote_index.files.items ++ remote_index.directories.items).any fun entry =>
      startsWith entry (path ++ "/")

end RemoteTree

section Rounds

structure Call (σ : Type) where
  backend : FolderAgentLocalBackend σ
  hasStateStore : Bool
  tree : RemoteTree
  preserveLocalFiles : Option (IterSet String)
  matchingRemoteFiles : Option (IterSet String)

variable (call : Call σ)

def countOutcome (f : RemoteApplyOutcome → RemoteApplyOutcome) : AgentM σ Unit :=
  modify fun agent => { agent with outcome := f agent.outcome }

def countChanged : AgentM σ Unit :=
  countOutcome fun outcome => { outcome with changedPathCount := outcome.changedPathCount + 1 }

def countEnsured : AgentM σ Unit :=
  countOutcome fun outcome =>
    { outcome with ensuredDirectoryCount := outcome.ensuredDirectoryCount + 1 }

def countDownloaded : AgentM σ Unit :=
  countOutcome fun outcome => { outcome with downloadedFileCount := outcome.downloadedFileCount + 1 }

def countRemoved : AgentM σ Unit :=
  countOutcome fun outcome =>
    { outcome with removedLocalPathCount := outcome.removedLocalPathCount + 1 }

def suppressUpload (path : String) (entry : LocalEntryState) : AgentM σ Unit :=
  modify fun agent => { agent with suppressedUploads := agent.suppressedUploads.put path entry }

def allowUpload (path : String) : AgentM σ Unit :=
  modify fun agent => { agent with suppressedUploads := agent.suppressedUploads.del path }

def materializedEntry (path : String) : AgentM σ (Option LocalEntryState) := do
  if call.hasStateStore || (← get).localState.isSome then onDisk (call.backend.localEntryState path)
  else pure none

def materializeDirectory (path : String) : AgentM σ Unit := do
  countChanged
  countEnsured
  onDisk (call.backend.ensureLocalDirectory path)
  let entry_state ← materializedEntry call path
  whenTracked (syncLocalStatePathAndParents call.backend path entry_state)

def downloadRemoteFileWithLogging (local_relative_path remote_key : String) :
    AgentM σ LocalEntryState := do
  withContext ("failed to download remote file " ++ remote_key)
    (onDisk (call.backend.downloadRemoteFile local_relative_path remote_key))
  let entry ← onDisk (call.backend.localEntryState local_relative_path)
  match entry.filter LocalEntryState.isFile with
  | some entry_state => pure entry_state
  | none => throw (.message ("downloaded remote file " ++ remote_key ++
      " did not materialize as a local file"))

def materializeFile (path remote_key : String) : AgentM σ Unit := do
  countDownloaded
  let entry_state ← downloadRemoteFileWithLogging call path remote_key
  whenTracked (syncLocalStatePathAndParents call.backend path (some entry_state))
  suppressUpload path entry_state

def removeLocalPathWithLogging (relative_path : String) : AgentM σ Unit :=
  withContext ("failed to remove local path " ++ relative_path)
    (onDisk (call.backend.removeLocalPath relative_path))

/-- A failed check counts as no match. -/
def unmatched (m : AgentM σ (Option LocalEntryState)) : AgentM σ (Option LocalEntryState) :=
  tryCatch m fun _ => pure none

def matchingLocalEntryForRemoteFileChange (path : String) (remote_content_hash : Option String) :
    AgentM σ (Option LocalEntryState) :=
  match remote_content_hash.filter fun hash => !isBlank hash with
  | none => pure none
  | some hash => unmatched do
    let entry ← onDisk (call.backend.localEntryState path)
    match entry.filter LocalEntryState.isFile with
    | none => pure none
    | some entry_state =>
      let local_content_hash ← onDisk (call.backend.fileContentFingerprint path)
      pure (if local_content_hash = hash then some entry_state else none)

def applyChangedDirectory (path : String) : AgentM σ Unit := do
  if ← rememberedPathDiverged call.backend path then pure ()
  else materializeDirectory call path

def applyChangedFile (path remote_key : String) : AgentM σ Unit := do
  if ← rememberedPathDiverged call.backend path then pure ()
  else do
    countChanged
    match ← matchingLocalEntryForRemoteFileChange call path (call.tree.entryHashes.get path) with
    | some entry_state => do
      whenTracked (syncLocalStatePathAndParents call.backend path (some entry_state))
      suppressUpload path entry_state
    | none => materializeFile call path remote_key

def applyChangedAbsence (path : String) : AgentM σ Unit := do
  countChanged
  let local_entry ← onDisk (call.backend.localEntryState path)
  if local_entry.isSome && !remoteIndexContainsPathOrDescendants (← get).remoteIndex path then pure ()
  else do
    countRemoved
    removeLocalPathWithLogging call path
    allowUpload path
    whenTracked do
      modifyLocalState fun local_state => removeLocalStatePathAndDescendants local_state path
      syncLocalStateParentDirectories call.backend path

def applyStartupDirectory (path : String) : AgentM σ Unit := do
  let entry ← onDisk (call.backend.localEntryState path)
  if entry.any LocalEntryState.isDirectory then pure ()
  else materializeDirectory call path

def Call.keepsLocalFile (path : String) : Bool :=
  (call.preserveLocalFiles.any fun set => set.contains path) ||
    call.matchingRemoteFiles.any fun set => set.contains path

def applyStartupFile (path remote_key : String) : AgentM σ Unit := do
  let entry ← onDisk (call.backend.localEntryState path)
  if call.keepsLocalFile path && entry.any LocalEntryState.isFile then pure ()
  else do
    countChanged
    materializeFile call path remote_key

def removeDeleteWinner (path : String) : AgentM σ Unit := do
  removeLocalPathWithLogging call path
  allowUpload path
  modifyLocalState fun local_state => removeLocalStatePathAndDescendants local_state path

inductive Round where
  | changedDirectory (path : String)
  | changedPath (path : String)
  | startupDirectory (path : String)
  | startupFile (path : String)
  | adoptIndex
  | deleteWinner (path : String)

def applyRound : Round → AgentM σ Unit
  | .changedDirectory path =>
    match call.tree.entryKinds.get path with
    | some (.directory, _) => applyChangedDirectory call path
    | _ => pure ()
  | .changedPath path =>
    match call.tree.entryKinds.get path with
    | some (.directory, _) => pure ()
    | some (.file, remote_key) => applyChangedFile call path remote_key
    | none => applyChangedAbsence call path
  | .startupDirectory path => applyStartupDirectory call path
  | .startupFile path =>
    match call.tree.entryKinds.get path with
    | some (.file, remote_key) => applyStartupFile call path remote_key
    | _ => pure ()
  | .adoptIndex => modify fun agent => { agent with remoteIndex := call.tree.nextIndex }
  | .deleteWinner path => removeDeleteWinner call path

/-- Directories come first, both among the changed paths and at startup. -/
def snapshotRounds (scope : PathScope) (tree : RemoteTree) : Option (List String) → List Round
  | some changed_paths =>
    let paths := changedLocalPaths scope changed_paths
    paths.map .changedDirectory ++ paths.map .changedPath ++ [.adoptIndex]
  | none =>
    tree.nextIndex.directories.sorted.map .startupDirectory ++
      tree.nextIndex.files.sorted.map .startupFile ++ [.adoptIndex]

end Rounds

def applyRemoteSnapshot (backend : FolderAgentLocalBackend σ) (scope : PathScope)
    (has_state_store : Bool) (snapshot : List NamespaceEntry) (changed_paths : Option (List String))
    (preserve_local_files matching_remote_files : Option (IterSet String)) : AgentM σ Unit :=
  let tree := remoteTree scope snapshot
  forEach (snapshotRounds scope tree changed_paths)
    (applyRound ⟨backend, has_state_store, tree, preserve_local_files, matching_remote_files⟩)

section Startup

def remoteFileContentFingerprintsByLocalPath (snapshot : List NamespaceEntry) (scope : PathScope) :
    Table String String :=
  snapshot.foldl (fun by_local_path entry =>
    match entry.kind, entry.hash.filter fun hash => hash ≠ "",
        (scope.remoteToLocal (normalizeRelativePath entry.path)).filter fun path => path ≠ "" with
    | .file, some hash, some local_path => by_local_path.put local_path hash
    | _, _, _ => by_local_path) .empty

def remoteFilePathsByLocalPath (snapshot : List NamespaceEntry) (scope : PathScope) :
    IterSet String :=
  .ofList (localPaths scope ((snapshot.filter fun entry => entry.kind = .file).map fun entry =>
    normalizeRelativePath entry.path))

variable (local_state : LocalTreeState) (baseline : Option LocalTreeState)
  (baseline_hashes remote_hashes : Table String String)
  (content_hash_for_path : String → Except SyncError String)

def localFilesWhere (test : String → LocalEntryState → Bool) : IterSet String :=
  .ofList ((local_state.entries.filter fun row => row.2.isFile && test row.1 row.2).map Prod.fst)

def localPathsToPreserveOnStartupWithHash : IterSet String :=
  localFilesWhere local_state fun path entry_state =>
    match baseline.bind fun state => state.get path with
    | none =>
      match remote_hashes.get path, content_hash_for_path path with
      | some remote_hash, .ok local_hash => local_hash ≠ remote_hash
      | _, _ => true
    | some previous =>
      previous ≠ entry_state &&
        match remote_hashes.get path, content_hash_for_path path with
        | some remote_hash, .ok local_hash =>
          local_hash ≠ remote_hash && baseline_hashes.get path ≠ some local_hash
        | _, _ => true

def localPathsMatchingRemoteOnStartup : IterSet String :=
  localFilesWhere local_state fun path entry_state =>
    match remote_hashes.get path with
    | none => false
    | some remote_hash =>
      ((baseline.bind fun state => state.get path) = some entry_state &&
        baseline_hashes.get path = some remote_hash) ||
      match content_hash_for_path path with
      | .ok local_hash => local_hash = remote_hash
      | .error _ => false

def startupRemoteDeleteWinsPathsWithHash (remote_files preserve_local_files : IterSet String) :
    IterSet String :=
  localFilesWhere local_state fun path entry_state =>
    !remote_files.contains path &&
      match baseline.bind fun state => state.get path with
      | none => false
      | some previous =>
        previous = entry_state || (preserve_local_files.contains path &&
          match baseline_hashes.get path, content_hash_for_path path with
          | some expected_hash, .ok local_hash => local_hash = expected_hash
          | _, _ => false)

end Startup

structure StartupPaths where
  preserve : IterSet String
  matching : IterSet String
  deleteWins : IterSet String

def startupPaths (scope : PathScope) (snapshot : List NamespaceEntry) (local_state : LocalTreeState)
    (baseline : Option LocalTreeState) (baseline_hashes : Table String String)
    (content_hash_for_path : String → Except SyncError String) : StartupPaths :=
  let remote_hashes := remoteFileContentFingerprintsByLocalPath snapshot scope
  let preserve := localPathsToPreserveOnStartupWithHash local_state baseline baseline_hashes
    remote_hashes content_hash_for_path
  ⟨preserve,
    localPathsMatchingRemoteOnStartup local_state baseline baseline_hashes remote_hashes
      content_hash_for_path,
    startupRemoteDeleteWinsPathsWithHash local_state baseline baseline_hashes content_hash_for_path
      (remoteFilePathsByLocalPath snapshot scope) preserve⟩

def startupCall (backend : FolderAgentLocalBackend σ) (scope : PathScope)
    (snapshot : List NamespaceEntry) (paths : StartupPaths) : Call σ :=
  ⟨backend, true, remoteTree scope snapshot, some paths.preserve, some paths.matching⟩

def reconcileStartup (backend : FolderAgentLocalBackend σ) (scope : PathScope)
    (snapshot : List NamespaceEntry) (paths : StartupPaths) : AgentM σ Unit := do
  applyRemoteSnapshot backend scope true snapshot none (some paths.preserve) (some paths.matching)
  forEach paths.deleteWins.sorted (removeDeleteWinner (startupCall backend scope snapshot paths))

section NativeFilesystem
variable (root : Path)

def display (path : Path) : String := "/" ++ joinWith '/' path

def LocalEntryState.fromMetadata : Node → LocalEntryState
  | .file bytes modified => ⟨.file, bytes.length, modified⟩
  | .directory size modified => ⟨.directory, size, modified⟩

def io (m : DiskM α) : Program Disk SyncError α :=
  ⟨fun d => ((m.run d).1.mapError .io, (m.run d).2)⟩

def localEntryStateForPath (tree : Tree) (relative_path : String) :
    Except SyncError (Option LocalEntryState) :=
  if normalizeRelativePath relative_path = "" then .ok none
  else
    let absolute := absolutePath root relative_path
    match tree.stat absolute with
    | .ok entry => .ok (some (.fromMetadata entry.2))
    | .error .notFound => .ok none
    | .error error => .error (.context ("failed to read metadata for " ++ display absolute) (.io error))

def localFileContentFingerprint (fingerprint : List UInt8 → String) (tree : Tree)
    (relative_path : String) : Except SyncError String :=
  let absolute := absolutePath root relative_path
  let failed := fun error : IoError => Except.error
    (SyncError.context ("failed to compute local content fingerprint " ++ display absolute)
      (.io error))
  match tree.stat absolute with
  | .ok (_, .file bytes _) => .ok (fingerprint bytes)
  | .ok (_, .directory _ _) => failed .isADirectory
  | .error error => failed error

def ensureLocalDirectory (relative_path : String) : Program Disk SyncError Unit := do
  let absolute := absolutePath root relative_path
  let materialize := withContext ("failed to materialize remote directory " ++ display absolute)
    (io (createDirAll absolute))
  match (← get).tree.stat absolute with
  | .ok (_, .directory _ _) => pure ()
  | .ok (_, .file _ _) => do
    withContext ("failed to remove local file before materializing remote directory " ++
      display absolute) (io (removeFile absolute))
    materialize
  | .error .notFound => materialize
  | .error error => throw (.context ("failed to inspect local path " ++ display absolute) (.io error))

def createParent (target : Path) : Program Disk SyncError Unit :=
  match parentPath target with
  | some parent =>
    withContext ("failed to create parent directory " ++ display parent) (io (createDirAll parent))
  | none => pure ()

/-- The bytes come from the client library; a download that fails leaves no file. -/
def receiveFile (delivered : String → Except SyncError (List UInt8)) (target : Path)
    (remote_key : String) : Program Disk SyncError Unit := do
  createParent target
  withContext ("failed to download remote file " ++ remote_key) do
    let bytes ← lift (delivered remote_key)
    io (placeFile target bytes)

def downloadRemoteFile (delivered : String → Except SyncError (List UInt8))
    (local_relative_path remote_key : String) : Program Disk SyncError Unit := do
  let target := absolutePath root local_relative_path
  onlyIf ((← get).tree.isDirectory target) (withContext
    ("failed to remove local directory " ++ display target) (io (removeDirAll target)))
  receiveFile delivered target remote_key

def removeLocalPath (relative_path : String) : Program Disk SyncError Unit := do
  let absolute := absolutePath root relative_path
  match (← get).tree.stat absolute with
  | .ok (_, .directory _ _) =>
    withContext ("failed to remove local directory " ++ display absolute) (io (removeDirAll absolute))
  | .ok (_, .file _ _) =>
    withContext ("failed to remove local file " ++ display absolute) (io (removeFile absolute))
  | .error .notFound => pure ()
  | .error error => throw (.context ("failed to inspect local path " ++ display absolute) (.io error))

def nativeFilesystemBackend (fingerprint : List UInt8 → String)
    (delivered : String → Except SyncError (List UInt8)) : FolderAgentLocalBackend Disk where
  localEntryState path := do lift (localEntryStateForPath root (← get).tree path)
  fileContentFingerprint path := do
    lift (localFileContentFingerprint root fingerprint (← get).tree path)
  ensureLocalDirectory := ensureLocalDirectory root
  downloadRemoteFile := downloadRemoteFile root delivered
  removeLocalPath := removeLocalPath root

end NativeFilesystem

end BerryKeepFolderSync
