import Mathlib.Data.String.Basic
import BerryKeep.FiniteTable

/-!
The planner that compares a local tree with a remote one. Entries are looked up
by path, the last entry of a path counts, and every path is decided on its own
from the two entries found for it.
-/
namespace BerryKeepSyncPlanning
open FiniteTable

inductive EntryKind where
  | file
  | directory
  deriving DecidableEq, Repr

inductive PinState where
  | unpinned
  | pinned
  deriving DecidableEq, Repr

inductive HydrationState where
  | placeholder
  | hydrated
  deriving DecidableEq, Repr

structure NamespaceEntry where
  path : String
  kind : EntryKind
  version : Option String
  contentHash : Option String
  deriving DecidableEq, Repr

structure LocalEntry where
  entry : NamespaceEntry
  pinState : PinState
  hydrationState : HydrationState
  deriving DecidableEq, Repr

structure SyncSnapshot where
  localEntries : List LocalEntry
  remoteEntries : List NamespaceEntry

structure SyncPolicy where
  createLocalPlaceholdersForRemoteOnly : Bool
  treatMissingRemoteAsUpload : Bool

inductive SyncOperation where
  | ensurePlaceholder (path remote_version remote_content_hash : String)
  | hydrate (path remote_version remote_content_hash : String)
  | upload (path : String) (local_version : Option String)
  | conflict (path : String) (local_version remote_version remote_content_hash : Option String)
  | createDirectory (path : String)
  deriving DecidableEq, Repr

def SyncPolicy.default : SyncPolicy := ⟨true, true⟩

def SyncOperation.path : SyncOperation → String
  | .ensurePlaceholder path _ _ => path
  | .hydrate path _ _ => path
  | .upload path _ => path
  | .conflict path _ _ _ => path
  | .createDirectory path => path

def byPath {α : Type} (path : α → String) (entries : List α) : Table String α :=
  entries.foldl (fun map entry => map.put (path entry) entry) Table.empty

def SyncSnapshot.localMap (snapshot : SyncSnapshot) : Table String LocalEntry :=
  byPath (fun entry => entry.entry.path) snapshot.localEntries

def SyncSnapshot.remoteMap (snapshot : SyncSnapshot) : Table String NamespaceEntry :=
  byPath NamespaceEntry.path snapshot.remoteEntries

def SyncSnapshot.allPaths (snapshot : SyncSnapshot) : List String :=
  (IterSet.ofList (snapshot.localMap.keys ++ snapshot.remoteMap.keys)).sorted

def placeholderContentHash (path : String) (remote_entry : NamespaceEntry) : String :=
  remote_entry.contentHash.getD ("server-head:" ++ path)

def hydrateFrom (path : String) (remote_entry : NamespaceEntry) : SyncOperation :=
  .hydrate path (remote_entry.version.getD "") (placeholderContentHash path remote_entry)

def planBoth (path : String) (local_entry : LocalEntry) (remote_entry : NamespaceEntry) :
    List SyncOperation :=
  if local_entry.entry.kind = .directory ∨ remote_entry.kind = .directory then []
  else if local_entry.entry.version = remote_entry.version ∧
      local_entry.entry.contentHash = remote_entry.contentHash then
    if local_entry.pinState = .pinned ∧ local_entry.hydrationState = .placeholder then
      [hydrateFrom path remote_entry]
    else []
  else if local_entry.hydrationState = .hydrated ∧ local_entry.entry.version.isSome ∧
      remote_entry.version.isSome then
    [.conflict path local_entry.entry.version remote_entry.version
      (some (placeholderContentHash path remote_entry))]
  else [hydrateFrom path remote_entry]

def planLocalOnly (policy : SyncPolicy) (path : String) (local_entry : LocalEntry) :
    List SyncOperation :=
  if local_entry.entry.kind = .directory then []
  else if policy.treatMissingRemoteAsUpload then [.upload path local_entry.entry.version]
  else []

def planRemoteOnly (policy : SyncPolicy) (path : String) (remote_entry : NamespaceEntry) :
    List SyncOperation :=
  if remote_entry.kind = .directory then [.createDirectory path]
  else if policy.createLocalPlaceholdersForRemoteOnly then
    [.ensurePlaceholder path (remote_entry.version.getD "")
      (placeholderContentHash path remote_entry)]
  else []

def planPath (snapshot : SyncSnapshot) (policy : SyncPolicy) (path : String) :
    List SyncOperation :=
  match snapshot.localMap.get path, snapshot.remoteMap.get path with
  | some local_entry, some remote_entry => planBoth path local_entry remote_entry
  | some local_entry, none => planLocalOnly policy path local_entry
  | none, some remote_entry => planRemoteOnly policy path remote_entry
  | none, none => []

def planSync (snapshot : SyncSnapshot) (policy : SyncPolicy) : List SyncOperation :=
  snapshot.allPaths.foldl (fun operations path => operations ++ planPath snapshot policy path) []

section Plan
variable {snapshot : SyncSnapshot} {policy : SyncPolicy} {path : String}

theorem planBoth_length (local_entry : LocalEntry) (remote_entry : NamespaceEntry) :
    (planBoth path local_entry remote_entry).length ≤ 1 := by
  unfold planBoth
  split
  · simp
  · split
    · split <;> simp
    · split <;> simp

variable {local_entry : LocalEntry}

variable {remote_entry : NamespaceEntry}

theorem planBoth_path
    {operation : SyncOperation} (planned : operation ∈ planBoth path local_entry remote_entry) :
    operation.path = path := by
  unfold planBoth hydrateFrom at planned
  split at planned
  · cases planned
  · split at planned
    · split at planned
      · rw [List.mem_singleton.mp planned, SyncOperation.path]
      · cases planned
    · split at planned
      · rw [List.mem_singleton.mp planned, SyncOperation.path]
      · rw [List.mem_singleton.mp planned, SyncOperation.path]

theorem planLocalOnly_spec (policy : SyncPolicy) (path : String) (local_entry : LocalEntry) :
    planLocalOnly policy path local_entry = [] ∨
      planLocalOnly policy path local_entry = [.upload path local_entry.entry.version] := by
  unfold planLocalOnly
  split
  · exact .inl rfl
  · split
    · exact .inr rfl
    · exact .inl rfl

theorem planRemoteOnly_spec (policy : SyncPolicy) (path : String) (remote_entry : NamespaceEntry) :
    (planRemoteOnly policy path remote_entry).length ≤ 1 ∧
      ∀ operation ∈ planRemoteOnly policy path remote_entry, operation.path = path := by
  unfold planRemoteOnly
  split
  · simp [SyncOperation.path]
  · split <;> simp [SyncOperation.path]

theorem planPath_spec (snapshot : SyncSnapshot) (policy : SyncPolicy) (path : String) :
    (planPath snapshot policy path).length ≤ 1 ∧
      ∀ operation ∈ planPath snapshot policy path, operation.path = path := by
  unfold planPath
  split
  · exact ⟨planBoth_length _ _, fun operation planned => planBoth_path planned⟩
  · next local_entry _ _ =>
    rcases planLocalOnly_spec policy path local_entry with empty | single
    · simp [empty]
    · simp [single, SyncOperation.path]
  · exact planRemoteOnly_spec policy path _
  · simp

theorem planSync_eq (snapshot : SyncSnapshot) (policy : SyncPolicy) :
    planSync snapshot policy = snapshot.allPaths.flatMap (planPath snapshot policy) := by
  unfold planSync
  rw [List.foldl_append_eq_append, List.nil_append, List.flatMap_def]

theorem flatMap_own (f : String → List SyncOperation)
    (own : ∀ path, ∀ operation ∈ f path, operation.path = path) (path : String) :
    ∀ paths : List String, paths.Nodup →
      (paths.flatMap f).filter (fun operation => operation.path = path) =
        if path ∈ paths then f path else [] := by
  intro paths
  induction paths with
  | nil => intro _; rfl
  | cons first rest ih =>
    intro nodup
    obtain ⟨unlisted, rest_nodup⟩ := List.nodup_cons.mp nodup
    rw [List.flatMap_cons, List.filter_append, ih rest_nodup]
    by_cases here : path = first
    · subst here
      have all : (f path).filter (fun operation => operation.path = path) = f path := by
        apply List.filter_eq_self.mpr
        intro operation planned
        exact decide_eq_true (own path operation planned)
      rw [all, if_neg unlisted, if_pos List.mem_cons_self, List.append_nil]
    · have none_here : (f first).filter (fun operation => operation.path = path) = [] := by
        apply List.filter_eq_nil_iff.mpr
        intro operation planned
        rw [own first operation planned, decide_eq_true_eq]
        exact fun same => here same.symm
      rw [none_here, List.nil_append]
      simp only [List.mem_cons, here, false_or]

theorem operations_of_path (snapshot : SyncSnapshot) (policy : SyncPolicy) (path : String) :
    (planSync snapshot policy).filter (fun operation => operation.path = path) =
      if path ∈ snapshot.allPaths then planPath snapshot policy path else [] := by
  rw [planSync_eq]
  exact flatMap_own _ (fun path => (planPath_spec snapshot policy path).2) path _ (sorted_nodup _)

theorem path_listed
    (here : snapshot.localMap.get path = some local_entry) : path ∈ snapshot.allPaths := by
  have key : path ∈ snapshot.localMap.keys := (mem_keys _ _).mpr ⟨local_entry, here⟩
  simp only [SyncSnapshot.allPaths, mem_sorted, mem_ofList, List.mem_append]
  exact .inl key

theorem planned_iff (here : snapshot.localMap.get path = some local_entry)
    (there : snapshot.remoteMap.get path = some remote_entry) {operation : SyncOperation}
    (about : operation.path = path) :
    operation ∈ planSync snapshot policy ↔ operation ∈ planBoth path local_entry remote_entry := by
  have round : planPath snapshot policy path = planBoth path local_entry remote_entry := by
    rw [planPath, here, there]
  have own := operations_of_path snapshot policy path
  rw [if_pos (path_listed here), round] at own
  rw [← own, List.mem_filter]
  simp [about]

theorem diverged_hydrate_iff
    (local_file : local_entry.entry.kind = .file) (remote_file : remote_entry.kind = .file)
    (hydrated : local_entry.hydrationState = .hydrated)
    (differs : local_entry.entry.contentHash ≠ remote_entry.contentHash) (version hash : String) :
    SyncOperation.hydrate path version hash ∈ planBoth path local_entry remote_entry ↔
      (SyncOperation.hydrate path version hash = hydrateFrom path remote_entry ∧
        ¬(local_entry.entry.version.isSome ∧ remote_entry.version.isSome)) := by
  have files : ¬(local_entry.entry.kind = .directory ∨ remote_entry.kind = .directory) := by
    rw [local_file, remote_file]
    simp
  have diverged : ¬(local_entry.entry.version = remote_entry.version ∧
      local_entry.entry.contentHash = remote_entry.contentHash) := fun same => differs same.2
  unfold planBoth
  rw [if_neg files, if_neg diverged]
  by_cases versions : local_entry.entry.version.isSome ∧ remote_entry.version.isSome
  · rw [if_pos ⟨hydrated, versions⟩]
    simp [versions]
  · rw [if_neg fun all => versions all.2]
    simp [versions]

theorem hydrate_spares_local_iff (snapshot : SyncSnapshot) (policy : SyncPolicy) :
    (∀ path, ((planSync snapshot policy).filter fun operation => operation.path = path).length ≤ 1) ∧
    ∀ path local_entry remote_entry, snapshot.localMap.get path = some local_entry →
      snapshot.remoteMap.get path = some remote_entry → local_entry.entry.kind = .file →
      remote_entry.kind = .file → local_entry.hydrationState = .hydrated →
      local_entry.entry.contentHash ≠ remote_entry.contentHash →
      ((∀ version hash, SyncOperation.hydrate path version hash ∉ planSync snapshot policy) ↔
        local_entry.entry.version.isSome ∧ remote_entry.version.isSome) := by
  constructor
  · intro path
    rw [operations_of_path]
    split
    · exact (planPath_spec snapshot policy path).1
    · exact Nat.zero_le _
  · intro path local_entry remote_entry here there local_file remote_file hydrated differs
    have each := @diverged_hydrate_iff path _ _ local_file remote_file hydrated differs
    constructor
    · intro spared
      by_contra unversioned
      refine spared (remote_entry.version.getD "") (placeholderContentHash path remote_entry) ?_
      rw [planned_iff here there rfl, each]
      exact ⟨rfl, unversioned⟩
    · intro versions version hash planned
      rw [planned_iff here there rfl, each] at planned
      exact planned.2 versions

end Plan

def unversionedEdit (local_version : Option String) : SyncSnapshot where
  localEntries := [⟨⟨"notes.txt", .file, local_version, some "h-local"⟩, .unpinned, .hydrated⟩]
  remoteEntries := [⟨"notes.txt", .file, some "v1", some "h-remote"⟩]

theorem unversioned_edit_overwritten :
    planSync (unversionedEdit none) .default = [.hydrate "notes.txt" "v1" "h-remote"] := by
  decide +kernel

theorem versioned_edit_spared : ¬∃ version hash, SyncOperation.hydrate "notes.txt" version hash ∈
    planSync (unversionedEdit (some "v0")) .default := by
  have spared := (hydrate_spares_local_iff (unversionedEdit (some "v0")) .default).2 "notes.txt" _ _
    rfl rfl rfl rfl rfl (by decide)
  rintro ⟨version, hash, planned⟩
  exact spared.mpr ⟨rfl, rfl⟩ version hash planned

end BerryKeepSyncPlanning
