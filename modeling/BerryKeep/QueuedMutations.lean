import BerryKeep.SyncPlanning

/-!
The queue of offline mutations of the FUSE adapter. The first entry is sent to
the server, by the sync loop or right after it was queued, and leaves the queue
once the server took it. An entry names the remote version it was based on; a
cached snapshot that shows another one holds back an upload or a rename.
-/
namespace BerryKeepQueuedMutations
open BerryKeepSyncPlanning

section Source

inductive PendingMutationOp where
  | uploadFile (path staged_rel_path upload_state_rel_path : String) (size : Nat)
      (base_remote_version : Option String) (content_hash : String)
  | ensureDirectory (path : String)
  | deletePath (path : String) (directory : Bool) (base_remote_version : Option String)
  | renamePath (from_path to_path : String) (overwrite : Bool) (base_remote_version : Option String)

structure PendingMutation where
  id : Nat
  op : PendingMutationOp

inductive ApplyMutationResult where
  | applied
  | conflict
  deriving DecidableEq

inductive RemoteCall where
  | putFileResumable (path staged_rel_path upload_state_rel_path : String)
  | putLargeAwareReader (marker : String)
  | deletePath (key : String)
  | renamePath (from_path to_path : String) (overwrite : Bool)

/-- The directory of the staged files, the snapshot file, the answers of the server, and the files that
    go with a finished entry. -/
structure Surroundings where
  stagedDir : String
  loadCachedSnapshot : Except String (Option (List NamespaceEntry))
  remote : RemoteCall → Except String Unit
  cleanUp : PendingMutation → Except String Unit

def remoteFileVersion (remote : List NamespaceEntry) (path : String) : Option String :=
  remote.findSome? fun entry => if entry.kind = .file ∧ entry.path = path then entry.version else none

def remoteVersionForcesConflict : Option String → Option String → Bool
  | none, _ => false
  | some base, some current => base != current
  | some _, none => true

variable (env : Surroundings)

def cachedSnapshotReportsConflict (path : String) (base_remote_version : Option String) :
    Except String Bool :=
  env.loadCachedSnapshot.map fun snapshot => remoteVersionForcesConflict base_remote_version
    (snapshot.bind fun remote => remoteFileVersion remote path)

def directoryMarker (path : String) : String :=
  String.ofList (path.toList.reverse.dropWhile (· == '/')).reverse ++ "/"

def issue (reports_conflict : Except String Bool) (call : RemoteCall) (context : String) :
    Except String ApplyMutationResult × List RemoteCall :=
  match reports_conflict with
  | .error error => (.error error, [])
  | .ok true => (.ok .conflict, [])
  | .ok false => match env.remote call with
    | .ok () => (.ok .applied, [call])
    | .error error => (.error (context ++ ": " ++ error), [call])

def applyMutation (mutation : PendingMutation) :
    Except String ApplyMutationResult × List RemoteCall :=
  match mutation.op with
  | .uploadFile path staged upload_state _ base_remote_version _ =>
    issue env (cachedSnapshotReportsConflict env path base_remote_version)
      (.putFileResumable path staged upload_state)
      ("failed to upload staged file " ++ env.stagedDir ++ "/" ++ staged)
  | .ensureDirectory path =>
    issue env (.ok false) (.putLargeAwareReader (directoryMarker path))
      ("failed to create remote directory marker for " ++ path)
  | .deletePath path directory _ =>
    let key := if directory then directoryMarker path else path
    issue env (.ok false) (.deletePath key) ("failed to delete remote path " ++ key)
  | .renamePath from_path to_path overwrite base_remote_version =>
    issue env (if base_remote_version.isSome then
        cachedSnapshotReportsConflict env from_path base_remote_version else .ok false)
      (.renamePath from_path to_path overwrite)
      ("failed to rename remote path " ++ from_path ++ " -> " ++ to_path)

structure QueueRun (α : Type) where
  answer : Except String α
  pending : List PendingMutation
  issued : List RemoteCall

/-- The entry leaves the queue before the files that belong to it are cleaned up. -/
def applyFirst (next : PendingMutation) (pending : List PendingMutation) :
    QueueRun ApplyMutationResult :=
  match applyMutation env next with
  | (.ok .applied, issued) => ⟨(env.cleanUp next).map fun _ => .applied,
      pending.eraseP fun entry => entry.id == next.id, issued⟩
  | (result, issued) => ⟨result, pending, issued⟩

def applyNextPendingMutation : List PendingMutation → QueueRun (Option ApplyMutationResult)
  | [] => ⟨.ok none, [], []⟩
  | next :: rest =>
    let run := applyFirst env next (next :: rest)
    ⟨run.answer.map some, run.pending, run.issued⟩

def tryApplyQueuedMutationNow (id : Nat) : List PendingMutation → QueueRun Bool
  | [] => ⟨.ok true, [], []⟩
  | first :: rest =>
    if first.id = id then
      let run := applyFirst env first (first :: rest)
      ⟨run.answer.map (· == .applied), run.pending, run.issued⟩
    else ⟨.ok false, first :: rest, []⟩

end Source

section Property

def PendingMutationOp.basedOn : PendingMutationOp → Option (String × String)
  | .uploadFile path _ _ _ base _ => base.map fun version => (path, version)
  | .ensureDirectory _ => none
  | .deletePath path _ base => base.map fun version => (path, version)
  | .renamePath from_path _ _ base => base.map fun version => (from_path, version)

def Shows (env : Surroundings) (path version : String) : Prop :=
  ∃ remote, env.loadCachedSnapshot = .ok (some remote) ∧ remoteFileVersion remote path = some version

/-- Unless the snapshot shows its base, the first entry stays and nothing goes out. -/
def Honoured {α : Type} (env : Surroundings) (first : PendingMutation)
    (rest : List PendingMutation) (run : QueueRun α) : Prop :=
  ∀ path version, first.op.basedOn = some (path, version) → ¬Shows env path version →
    run.pending = first :: rest ∧ run.issued = []

end Property

variable {env : Surroundings} {first : PendingMutation} {rest : List PendingMutation}

theorem issue_unshown {path version : String} (unshown : ¬Shows env path version)
    (call : RemoteCall) (context : String) :
    let outcome := issue env (cachedSnapshotReportsConflict env path (some version)) call context
    outcome.1 ≠ .ok .applied ∧ outcome.2 = [] := by
  unfold cachedSnapshotReportsConflict
  cases loaded : env.loadCachedSnapshot with
  | error error => simp [issue, Except.map]
  | ok snapshot =>
    have conflict : remoteVersionForcesConflict (some version)
        (snapshot.bind fun remote => remoteFileVersion remote path) = true := by
      cases shown : snapshot.bind fun remote => remoteFileVersion remote path with
      | none => rfl
      | some current =>
        obtain ⟨remote, rfl, found⟩ := Option.bind_eq_some_iff.mp shown
        have other : version ≠ current := fun same => unshown ⟨remote, loaded, same ▸ found⟩
        simpa [remoteVersionForcesConflict] using other
    simp [issue, Except.map, conflict]

theorem applyFirst_silent (queue : List PendingMutation)
    (silent : (applyMutation env first).1 ≠ .ok .applied ∧ (applyMutation env first).2 = []) :
    (applyFirst env first queue).pending = queue ∧ (applyFirst env first queue).issued = [] := by
  unfold applyFirst
  split
  · next issued outcome => simp [outcome] at silent
  · next result issued _ outcome => exact ⟨rfl, by simpa [outcome] using silent.2⟩

theorem applyMutation_silent {path version : String}
    (based : first.op.basedOn = some (path, version)) (unshown : ¬Shows env path version)
    (kept : ∀ directory, first.op ≠ .deletePath path directory (some version)) :
    (applyMutation env first).1 ≠ .ok .applied ∧ (applyMutation env first).2 = [] := by
  unfold applyMutation
  cases op : first.op with
  | uploadFile other staged upload_state size base hash =>
    rw [op] at based
    obtain ⟨_, rfl, same⟩ := Option.map_eq_some_iff.mp based
    cases same
    exact issue_unshown unshown _ _
  | ensureDirectory other =>
    rw [op] at based
    cases based
  | deletePath other directory base =>
    rw [op] at based
    obtain ⟨_, rfl, same⟩ := Option.map_eq_some_iff.mp based
    cases same
    exact absurd op (kept directory)
  | renamePath from_path to_path overwrite base =>
    rw [op] at based
    obtain ⟨_, rfl, same⟩ := Option.map_eq_some_iff.mp based
    cases same
    exact issue_unshown unshown _ _

/-- Uploads and renames respect the version they were based on; a deletion does exactly if the
    snapshot shows that version. -/
theorem based_mutations_honoured_iff (env : Surroundings) (first : PendingMutation)
    (rest : List PendingMutation) :
    (Honoured env first rest (applyNextPendingMutation env (first :: rest)) ∧
      ∀ id, Honoured env first rest (tryApplyQueuedMutationNow env id (first :: rest))) ↔
    ∀ path directory version, first.op = .deletePath path directory (some version) →
      Shows env path version := by
  constructor
  · intro honoured path directory version deletes
    by_contra unshown
    have silent := (honoured.1 path version (by simp [deletes, PendingMutationOp.basedOn]) unshown).2
    simp only [applyNextPendingMutation, applyFirst, applyMutation, deletes, issue] at silent
    split at silent <;> grind
  · intro shown
    have silent : ∀ path version, first.op.basedOn = some (path, version) →
        ¬Shows env path version → (applyFirst env first (first :: rest)).pending = first :: rest ∧
          (applyFirst env first (first :: rest)).issued = [] :=
      fun path version based unshown => applyFirst_silent _ (applyMutation_silent based unshown
        fun directory deletes => unshown (shown path directory version deletes))
    refine ⟨silent, fun id path version based unshown => ?_⟩
    simp only [tryApplyQueuedMutationNow]
    split
    · exact silent path version based unshown
    · exact ⟨rfl, rfl⟩

/-- A deletion based on version `1` goes out although the snapshot shows version `2`. -/
theorem stale_deletion_sent :
    ¬Honoured ⟨"staged", .ok (some [⟨"a", .file, some "2", none⟩]), fun _ => .ok (), fun _ => .ok ()⟩
      ⟨7, .deletePath "a" false (some "1")⟩ []
      (applyNextPendingMutation ⟨"staged", .ok (some [⟨"a", .file, some "2", none⟩]), fun _ => .ok (),
        fun _ => .ok ()⟩ [⟨7, .deletePath "a" false (some "1")⟩]) := by
  intro honoured
  have silent := (honoured "a" "1" rfl (by rintro ⟨_, ⟨⟩, shown⟩; revert shown; decide)).2
  cases silent

end BerryKeepQueuedMutations
