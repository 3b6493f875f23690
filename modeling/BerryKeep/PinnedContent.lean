import BerryKeep.ContentRepair
import BerryKeep.UploadAssembly

/-!
What the sections of a repair and a sweep do to stored payloads. A sweep takes
files and marks of ownership away and touches nothing that a repair task pins;
a write adds files that hold its payload, and a read finds it afterwards; the
last sections change no content when the manifest is there already.
-/
namespace BerryKeepPinnedContent
open FiniteTable TextOperations StatefulProgram BerryKeepContentCodec BerryKeepStoragePool
  BerryKeepStorageRelocation BerryKeepNodeStore BerryKeepBundleExchange BerryKeepContentCleanup
  BerryKeepReplicationSubjects BerryKeepUploadAssembly BerryKeepContentRepair

section Sweeps
variable {s t u : Store} {p : CleanupProtectionSnapshot} {r now : Nat} {dry_run : Bool}

structure Shrinks (s t : Store) : Prop where
  tasks : t.repairTasks = s.repairTasks
  owned : ∀ hash ∈ t.ownedManifests.items, hash ∈ s.ownedManifests.items
  files : ∀ file entry, t.content.disk.get file = some entry → s.content.disk.get file = some entry

theorem shrinks_refl (s : Store) : Shrinks s s := ⟨rfl, fun _ own => own, fun _ _ found => found⟩

theorem shrinks_trans (s t u : Store) (first : Shrinks s t) (next : Shrinks t u) : Shrinks s u where
  tasks := next.tasks.trans first.tasks
  owned := fun hash own => first.owned hash (next.owned hash own)
  files := fun file entry found => first.files file entry (next.files file entry found)

theorem removeIndexed_files {st : ContentStore} {kind : StorageContentKind} {hash : String}
    {file f : FilePath} {entry : FileEntry}
    (found : (removeIndexedFile st kind hash file).2.disk.get f = some entry) :
    st.disk.get f = some entry := by
  rw [removeIndexed_disk] at found
  split at found
  · cases found
  · exact found

theorem removeFile_files {st : ContentStore} {file f : FilePath} {entry : FileEntry}
    (found : (st.removeFile file).disk.get f = some entry) : st.disk.get f = some entry := by
  change (st.disk.del file).get f = some entry at found
  exact (get_del_some found).2

theorem sweepManifest_shrinks (sweep : ManifestSweep) (file : FilePath) :
    Shrinks sweep.store (sweepManifest p r now dry_run sweep file).store := by
  unfold sweepManifest
  split
  · exact shrinks_refl _
  · split
    · exact shrinks_refl _
    · split
      · exact shrinks_refl _
      · split
        · exact shrinks_refl _
        · split
          · exact shrinks_refl _
          · refine ⟨rfl, fun hash own => ?_, fun f entry found => removeIndexed_files found⟩
            dsimp only at own
            split at own
            · exact ((mem_erase _ _ _).mp own).2
            · exact own

theorem sweepManifests_shrinks (s : Store) : Shrinks s (sweepManifests p r now dry_run s).store := by
  unfold sweepManifests
  refine List.foldlRecOn (motive := fun sweep : ManifestSweep => Shrinks s sweep.store) _ _
    (shrinks_refl s) ?_
  intro sweep before file _
  exact shrinks_trans _ _ _ before (sweepManifest_shrinks sweep file)

variable {protected_chunks : Finset String} {cached : IterSet String}

theorem sweepChunk_shrinks (sweep : ChunkSweep) (item : FilePath × Option String) :
    Shrinks sweep.store (sweepChunk protected_chunks cached r now dry_run sweep item).store := by
  unfold sweepChunk
  dsimp only
  split
  · exact shrinks_refl _
  · split
    · exact shrinks_refl _
    · split
      · exact shrinks_refl _
      · split
        · exact shrinks_refl _
        · split
          · exact ⟨rfl, fun _ own => own, fun f entry found => removeFile_files found⟩
          · split
            · exact ⟨rfl, fun _ own => own, fun f entry found => removeIndexed_files found⟩
            · exact ⟨rfl, fun _ own => own, fun f entry found => removeIndexed_files found⟩

theorem sweepChunks_shrinks
    (s : Store) : Shrinks s (sweepChunks protected_chunks cached r now dry_run s).store := by
  unfold sweepChunks
  refine List.foldlRecOn (motive := fun sweep : ChunkSweep => Shrinks s sweep.store) _ _
    (shrinks_refl s) ?_
  intro sweep before item _
  exact shrinks_trans _ _ _ before (sweepChunk_shrinks sweep item)

theorem reapCachedChunkRecord_shrinks (owned : Finset String) (deleted : Nat) (hash : String) :
    Keeps Shrinks (reapCachedChunkRecord owned deleted hash) := by
  unfold reapCachedChunkRecord
  have forget : Keeps Shrinks (modify fun s : Store =>
      { s with cachedChunks := s.cachedChunks.erase hash } : StoreM Unit) :=
    fun _ => ⟨rfl, fun _ own => own, fun _ _ found => found⟩
  refine keeps_ite (keeps_bind shrinks_trans forget fun _ => keeps_pure shrinks_refl _) ?_
  refine keeps_bind shrinks_trans (keeps_get shrinks_refl) fun s => ?_
  refine keeps_bind shrinks_trans (keeps_lift shrinks_refl _) fun path => ?_
  split
  · exact keeps_bind shrinks_trans forget fun _ => keeps_pure shrinks_refl _
  · exact keeps_pure shrinks_refl _

theorem cleanup_shrinks (codec : Codec) (r : Nat) (dry_run : Bool) (s : Store) :
    Shrinks s ((cleanupUnreferenced codec r dry_run).run s).2 := by
  change Ensures (cleanupUnreferenced codec r dry_run) s fun _ t => Shrinks s t
  unfold cleanupUnreferenced
  refine ensures_get (ensures_bind_ok (a := s.world.seconds 0) rfl (ensures_get ?_))
  have began : Shrinks s (unixTs.run s).2 := ⟨rfl, fun _ own => own, fun _ _ found => found⟩
  have swept : Shrinks s (sweepManifests (protectionOf s) r (s.world.seconds 0) dry_run
      (unixTs.run s).2).store := shrinks_trans _ _ _ began (sweepManifests_shrinks _)
  refine ensures_bind_ok (a := ()) rfl (ensures_lift (fun _ _ => swept) fun found _ => ?_)
  refine ensures_bind_ok (a := ()) rfl ?_
  have chunks : Shrinks s (sweepChunks ((protectionOf s).recoveryChunks ∪ found.1)
      (protectionOf s).cachedChunkRecords r (s.world.seconds 0) dry_run (sweepManifests
        (protectionOf s) r (s.world.seconds 0) dry_run (unixTs.run s).2).store).store :=
    shrinks_trans _ _ _ swept (sweepChunks_shrinks _)
  refine ensures_after (keeps_foldEach shrinks_refl shrinks_trans
    (reapCachedChunkRecord_shrinks found.1) _ _) (fun _ t reaped => ?_)
    fun _ t reaped => shrinks_trans _ _ _ chunks reaped
  have kept := shrinks_trans _ _ _ chunks reaped
  refine ensures_after (keeps_onlyIf shrinks_refl
    fun _ => ⟨rfl, fun _ own => own, fun _ _ found => found⟩) (fun _ u last => ?_)
    fun _ u last => shrinks_trans _ _ _ kept last
  exact shrinks_trans _ _ _ kept last

theorem sweepManifests_dry (s : Store) : (sweepManifests p r now true s).store = s := by
  unfold sweepManifests
  refine List.foldlRecOn (motive := fun sweep : ManifestSweep => sweep.store = s) _ _ rfl ?_
  intro sweep before file _
  unfold sweepManifest
  split
  · exact before
  · split
    · exact before
    · split
      · exact before
      · split
        · exact before
        · exact before

theorem sweepChunks_dry (s : Store) :
    (sweepChunks protected_chunks cached r now true s).store = s := by
  unfold sweepChunks
  refine List.foldlRecOn (motive := fun sweep : ChunkSweep => sweep.store = s) _ _ rfl ?_
  intro sweep before item _
  unfold sweepChunk
  dsimp only
  split
  · exact before
  · split
    · exact before
    · split
      · exact before
      · exact before

theorem cleanup_dry (codec : Codec) (r : Nat) (s : Store) :
    ((cleanupUnreferenced codec r true).run s).2.content = s.content := by
  change Ensures (cleanupUnreferenced codec r true) s fun _ t => t.content = s.content
  unfold cleanupUnreferenced
  refine ensures_get (ensures_bind_ok (a := s.world.seconds 0) rfl (ensures_get ?_))
  have swept : (sweepManifests (protectionOf s) r (s.world.seconds 0) true
      (unixTs.run s).2).store.content = s.content := by
    rw [sweepManifests_dry]
    rfl
  refine ensures_bind_ok (a := ()) rfl (ensures_lift (fun _ _ => swept) fun found _ => ?_)
  refine ensures_bind_ok (a := ()) rfl ?_
  refine ensures_bind_ok rfl (ensures_bind_ok (a := ()) rfl ?_)
  change (sweepChunks _ _ r _ true _).store.content = s.content
  rw [sweepChunks_dry]
  exact swept

theorem cleanup_pinned (codec : Codec) (r : Nat) (dry_run : Bool) {pin : ContentRepairTask}
    (pinned : pin ∈ s.repairTasks) :
    Untouched .manifest pin.manifestHash s.content
        ((cleanupUnreferenced codec r dry_run).run s).2.content ∧
      ∀ chunk ∈ pin.chunks, isHexOfLength 64 chunk.hash = true →
        Untouched .chunk chunk.hash s.content
          ((cleanupUnreferenced codec r dry_run).run s).2.content := by
  cases dry_run with
  | true =>
    rw [cleanup_dry]
    exact ⟨untouched_refl, fun _ _ _ => untouched_refl⟩
  | false =>
    have needed : pin.manifestHash ∈ (protectionOf s).recoveryManifests.items :=
      (mem_ofList _ _).mpr (List.mem_map.mpr ⟨pin, pinned, rfl⟩)
    obtain ⟨begun, same, outcome⟩ := cleanup_end codec r s
    dsimp only at outcome
    have manifest : Untouched .manifest pin.manifestHash s.content (sweepManifests (protectionOf s) r
        (s.world.seconds 0) false begun).store.content := by
      rw [← same]
      exact sweepManifests_untouched begun fun _ => .inr needed
    have chunks : ∀ hash, Untouched .chunk hash s.content (sweepManifests (protectionOf s) r
        (s.world.seconds 0) false begun).store.content := sweepManifests_chunks same
    rcases outcome with ⟨error, _, ended⟩ | ⟨found, _, ended⟩
    · rw [ended]
      exact ⟨manifest, fun chunk _ _ => chunks chunk.hash⟩
    · rw [ended]
      refine ⟨manifest.trans (sweepChunks_untouched _ (by simp)), fun chunk listed hex => ?_⟩
      have inside : chunk.hash ∈ (protectionOf s).recoveryChunks :=
        List.mem_toFinset.mpr (List.mem_flatMap.mpr ⟨pin, pinned, List.mem_map.mpr ⟨chunk, listed, rfl⟩⟩)
      exact (chunks chunk.hash).trans
        (sweepChunks_untouched _ fun _ => ⟨hex, .inl (Finset.mem_union_left _ inside)⟩)

end Sweeps

section Writing
variable {codec : Codec} {kind : StorageContentKind} {hash : String} {payload : Bytes} {s t : Store}

def Stored (st : ContentStore) (kind : StorageContentKind) (hash : String) (bytes : Bytes) : Prop :=
  ∃ path entry, st.pool.contentPath kind hash = .ok path ∧ st.fileAt path = some entry ∧
    entry.bytes = bytes

theorem Stored.same {a b : ContentStore} {bytes : Bytes} (stored : Stored a kind hash bytes)
    (same : SameReads kind hash a b) : Stored b kind hash bytes := by
  obtain ⟨path, entry, placed, found, rfl⟩ := stored
  refine ⟨path, entry, ?_, ?_, rfl⟩
  · rw [sameReads_contentPath same, placed]
  · rw [sameReads_fileAt same (contentPath_ok placed), found]

theorem Stored.file {st : ContentStore} {bytes : Bytes} (stored : Stored st kind hash bytes) :
    ∃ path entry, st.disk.get path = some entry ∧ entry.bytes = bytes := by
  obtain ⟨path, entry, _, found, same⟩ := stored
  unfold ContentStore.fileAt at found
  split at found
  · exact ⟨path, entry, found, same⟩
  · cases found

structure Grows (payload : Bytes) (s t : Store) : Prop where
  tasks : t.repairTasks = s.repairTasks
  owned : t.ownedManifests = s.ownedManifests
  files : ∀ file entry, t.content.disk.get file = some entry →
    s.content.disk.get file = some entry ∨ entry.bytes = payload

theorem grows_refl (s : Store) : Grows payload s s := ⟨rfl, rfl, fun _ _ found => .inl found⟩

theorem grows_trans (s t u : Store) (first : Grows payload s t) (next : Grows payload t u) :
    Grows payload s u where
  tasks := next.tasks.trans first.tasks
  owned := next.owned.trans first.owned
  files := by
    intro file entry found
    rcases next.files file entry found with before | written
    · exact first.files file entry before
    · exact .inr written

theorem grows_bind {α β : Type} {m : StoreM α} {f : α → StoreM β} (first : Keeps (Grows payload) m)
    (next : ∀ a, Keeps (Grows payload) (f a)) : Keeps (Grows payload) (m >>= f) :=
  keeps_bind grows_trans first next

theorem writeFile_grows (file : FilePath) (now : Int) :
    Keeps (Grows payload) (onContent fun st => st.writeFile file ⟨payload, now⟩) := by
  intro s
  refine ⟨rfl, rfl, fun f entry found => ?_⟩
  change (s.content.disk.put file ⟨payload, now⟩).get f = some entry at found
  rw [get_put] at found
  split at found
  · cases found
    exact .inr rfl
  · exact .inl found

theorem quiet_grows {α : Type} {m : StoreM α}
    (same : ∀ s, (m.run s).2.repairTasks = s.repairTasks ∧
      (m.run s).2.ownedManifests = s.ownedManifests ∧
      (m.run s).2.content.disk = s.content.disk) : Keeps (Grows payload) m := by
  intro s
  obtain ⟨tasks, owned, disk⟩ := same s
  refine ⟨tasks, owned, fun file entry found => .inl ?_⟩
  rw [← disk]
  exact found

theorem persist_grows (codec : Codec) (kind : StorageContentKind) (hash : String) (payload : Bytes) :
    Keeps (Grows payload) (persistStorageContent codec kind hash payload) := by
  unfold persistStorageContent
  refine grows_bind (keeps_get grows_refl) fun s => ?_
  refine grows_bind (keeps_lift grows_refl _) fun existing_path => ?_
  refine keeps_ite (keeps_pure grows_refl _) ?_
  refine grows_bind (quiet_grows fun _ => ⟨rfl, rfl, rfl⟩) fun free => ?_
  refine grows_bind (keeps_lift grows_refl _) fun target => ?_
  refine grows_bind (quiet_grows fun _ => ⟨rfl, rfl, rfl⟩) fun _ => ?_
  refine grows_bind (keeps_lift grows_refl _) fun target_path => ?_
  refine grows_bind (quiet_grows fun _ => ⟨rfl, rfl, rfl⟩) fun now => ?_
  refine grows_bind (writeFile_grows target_path now) fun _ => ?_
  refine grows_bind (quiet_grows fun _ => ⟨rfl, rfl, rfl⟩) fun _ => ?_
  exact grows_bind (quiet_grows fun _ => ⟨rfl, rfl, rfl⟩) fun _ => keeps_pure grows_refl _

theorem persistTorn_grows (codec : Codec) (kind : StorageContentKind) (hash : String)
    (payload : Bytes) (writes : Nat) :
    Keeps (Grows payload) (persistTorn codec kind hash payload writes) := by
  unfold persistTorn
  refine grows_bind (keeps_get grows_refl) fun s => ?_
  refine grows_bind (keeps_lift grows_refl _) fun existing_path => ?_
  refine keeps_ite (keeps_pure grows_refl _) ?_
  refine grows_bind (quiet_grows fun _ => ⟨rfl, rfl, rfl⟩) fun free => ?_
  refine grows_bind (keeps_lift grows_refl _) fun target => ?_
  refine grows_bind (keeps_onlyIf grows_refl (quiet_grows fun _ => ⟨rfl, rfl, rfl⟩)) fun _ => ?_
  refine grows_bind (keeps_lift grows_refl _) fun target_path => ?_
  refine grows_bind (quiet_grows fun _ => ⟨rfl, rfl, rfl⟩) fun now => ?_
  refine grows_bind (keeps_onlyIf grows_refl (writeFile_grows target_path now)) fun _ => ?_
  exact keeps_onlyIf grows_refl (quiet_grows fun _ => ⟨rfl, rfl, rfl⟩)

theorem persist_present (payload : Bytes) (present : Readable codec s.content kind hash) :
    (persistStorageContent codec kind hash payload).run s = (.ok ⟨false, false⟩, s) := by
  obtain ⟨path, entry, placed, found, right⟩ := present
  unfold persistStorageContent
  simp only [bind_run, get_run, lift_run, placed, found, Option.any_some, right, beq_self_eq_true,
    if_true, pure_run]

theorem persist_stored (codec : Codec) (kind : StorageContentKind) (hash : String) (payload : Bytes)
    (s : Store) :
    Ensures (persistStorageContent codec kind hash payload) s fun result t =>
      ∀ outcome, result = .ok outcome → Stored t.content kind hash payload ∨
        ∃ bytes, Stored t.content kind hash bytes ∧ Stored s.content kind hash bytes ∧
          hashHex codec bytes = hash := by
  unfold persistStorageContent
  refine ensures_get (ensures_lift (fun _ _ _ failed => by cases failed) fun path placed => ?_)
  refine ensures_ite (fun present outcome _ => .inr ?_) fun absent => ?_
  · cases found : s.content.fileAt path with
    | none =>
      rw [found] at present
      cases present
    | some entry =>
      rw [found, Option.any_some, beq_iff_eq] at present
      have stored : Stored s.content kind hash entry.bytes := ⟨path, entry, placed, found, rfl⟩
      exact ⟨entry.bytes, stored, stored, present⟩
  · refine ensures_bind_ok rfl (ensures_lift (fun _ _ _ failed => by cases failed)
      fun target chosen => ?_)
    obtain ⟨member, _, _, free⟩ := selectWritePath_ok chosen
    refine ensures_bind_ok (a := ()) rfl (ensures_lift (fun _ _ _ failed => by cases failed)
      fun target_path located => ?_)
    intro outcome done
    left
    refine ⟨target_path, ⟨payload, s.world.fileTimes 0⟩, ?_, ?_, rfl⟩
    · have known := path_of_mem member
      rw [← path_congr (noteLocation_paths s.content.pool
        ⟨kind, hash, target.config.id, payload.length, .available⟩)] at known
      change (s.content.pool.noteLocation
        ⟨kind, hash, target.config.id, payload.length, .available⟩).contentPath kind hash = _
      have noted : (s.content.pool.noteLocation
          ⟨kind, hash, target.config.id, payload.length, .available⟩).locations.get (kind, hash) =
          some target.config.id := get_put_self _ _ _
      simp [StoragePool.contentPath, StoragePool.readPath, noted, known, located]
    · obtain ⟨file, again, named, _⟩ := placed_on_every_path located target.config.id
      rw [located] at again
      cases again
      have mounted : s.content.mounted target_path.pathId = true := by
        rw [named]
        by_contra hidden
        simp [ContentStore.freeSpace, hidden] at free
      change (if s.content.mounted target_path.pathId then
        (s.content.disk.put target_path ⟨payload, s.world.fileTimes 0⟩).get target_path else none) = _
      rw [if_pos mounted, get_put_self]

end Writing

section Sections
variable {codec : Codec} {hash : String} {bytes payload : Bytes} {s t : Store} {task : RepairTask}

def Quiet (s t : Store) : Prop := t.content = s.content ∧ t.repairTasks = s.repairTasks

theorem quiet_refl (s : Store) : Quiet s s := ⟨rfl, rfl⟩

theorem quiet_trans (s t u : Store) (first : Quiet s t) (next : Quiet t u) : Quiet s u :=
  ⟨next.1.trans first.1, next.2.trans first.2⟩

theorem markOwned_quiet (codec : Codec) (hash : String) :
    Keeps Quiet (markManifestLocallyOwned codec hash) :=
  markManifestLocallyOwned_keeps quiet_refl quiet_trans (fun _ _ => ⟨rfl, rfl⟩)
    (fun _ _ => ⟨rfl, rfl⟩) codec hash

/-- As long as the manifest is there with the right bytes, the content stays as it is. -/
def QuietIfPresent (codec : Codec) (hash : String) (s t : Store) : Prop :=
  Readable codec s.content .manifest hash → Quiet s t

theorem quietIf_of_quiet {α : Type} {m : StoreM α} (quiet : Keeps Quiet m) :
    Keeps (QuietIfPresent codec hash) m := fun s _ => quiet s

theorem quietIf_refl (s : Store) : QuietIfPresent codec hash s s := fun _ => quiet_refl s

theorem quietIf_trans (s t u : Store) (first : QuietIfPresent codec hash s t)
    (next : QuietIfPresent codec hash t u) : QuietIfPresent codec hash s u := by
  intro present
  have before := first present
  refine quiet_trans _ _ _ before (next ?_)
  rw [before.1]
  exact present

theorem quietIf_bind {α β : Type} {m : StoreM α} {f : α → StoreM β}
    (first : Keeps (QuietIfPresent codec hash) m) (next : ∀ a, Keeps (QuietIfPresent codec hash) (f a)) :
    Keeps (QuietIfPresent codec hash) (m >>= f) := keeps_bind quietIf_trans first next

theorem import_quiet (codec : Codec) (bundle : ReplicationExportBundle) :
    Keeps (QuietIfPresent codec bundle.manifestHash) (importReplicationBundle codec bundle) := by
  have accepted : Keeps (QuietIfPresent codec bundle.manifestHash)
      (acceptReplicationManifest codec (bundle.logicalPath.getD bundle.key) bundle) := by
    unfold acceptReplicationManifest
    refine keeps_ite (keeps_pure quietIf_refl _) (quietIf_bind (keeps_refuseIf quietIf_refl _ _) fun _ => ?_)
    cases codec.decodeManifest bundle.manifestBytes with
    | none => exact keeps_throw quietIf_refl _
    | some manifest =>
      refine quietIf_bind (keeps_refuseIf quietIf_refl _ _) fun _ => ?_
      refine quietIf_bind (keeps_get quietIf_refl) fun st => ?_
      refine quietIf_bind
        (keeps_forEach quietIf_refl quietIf_trans (fun _ => keeps_lift quietIf_refl _) _) fun _ => ?_
      refine quietIf_bind (fun s present => ?_) fun _ => quietIf_of_quiet (markOwned_quiet _ _)
      rw [persist_present _ present]
      exact quiet_refl s
  unfold importReplicationBundle
  refine quietIf_bind (quietIf_of_quiet fun _ => ⟨rfl, rfl⟩) fun nanos => ?_
  refine quietIf_bind (keeps_lift quietIf_refl _) fun version_id => ?_
  refine quietIf_bind (quietIf_of_quiet fun _ => ⟨rfl, rfl⟩) fun now => ?_
  refine quietIf_bind accepted fun _ => ?_
  refine quietIf_bind (keeps_get quietIf_refl) fun s => ?_
  dsimp only
  generalize chooseReplicationBundleObjectId codec s bundle _ version_id _ = lineage
  refine quietIf_bind (quietIf_of_quiet ?_) fun object_id => ?_
  · cases lineage with
    | known object_id => exact fun _ => ⟨rfl, rfl⟩
    | fresh => exact fun _ => ⟨rfl, rfl⟩
    | conflictRecreated => exact fun _ => ⟨rfl, rfl⟩
  refine quietIf_bind (quietIf_of_quiet fun _ => ⟨rfl, rfl⟩) fun now => ?_
  refine quietIf_bind (keeps_get quietIf_refl) fun s => ?_
  refine quietIf_bind (quietIf_of_quiet fun _ => ⟨rfl, rfl⟩) fun r => ?_
  exact quietIf_bind (quietIf_of_quiet fun _ => ⟨rfl, rfl⟩) fun _ => keeps_pure quietIf_refl _

theorem finish_content (codec : Codec) (task : RepairTask) :
    Keeps (fun s t : Store => t.content = s.content) (finishVerifiedContentRepair codec task) := by
  have refl : ∀ s : Store, s.content = s.content := fun _ => rfl
  unfold finishVerifiedContentRepair
  refine keeps_bind (fun _ _ _ before after => after.trans before) ?_ fun _ => fun _ => rfl
  exact keeps_onlyIf refl fun s => (markOwned_quiet codec task.hash s).1

theorem finishTorn_content (codec : Codec) (task : RepairTask) (writes : Nat) :
    Keeps (fun s t : Store => t.content = s.content) (finishTorn codec task writes) := by
  have refl : ∀ s : Store, s.content = s.content := fun _ => rfl
  have trans : ∀ a b c : Store, b.content = a.content → c.content = b.content →
      c.content = a.content := fun _ _ _ before after => after.trans before
  unfold finishTorn
  cases writes with
  | zero => exact keeps_pure refl _
  | succ writes =>
    refine keeps_onlyIf refl (keeps_bind trans (fun _ => rfl) fun _ => ?_)
    refine keeps_bind trans (keeps_get refl) fun s => ?_
    refine keeps_bind trans (keeps_lift refl _) fun manifest => ?_
    exact keeps_forEach refl trans (fun _ _ => rfl) _

/-- A commit of an import whose manifest is there changes no content, however far it comes. -/
theorem commit_content {bundle : ReplicationExportBundle} {last : StoreM Unit}
    (quiet : Keeps (fun s t : Store => t.content = s.content) last)
    (present : Readable codec s.content .manifest bundle.manifestHash) :
    ((importReplicationBundle codec bundle >>= fun _ => last).run s).2.content = s.content := by
  have imported := (import_quiet codec bundle s present).1
  rw [bind_run]
  rcases run : (importReplicationBundle codec bundle).run s with ⟨result, t⟩
  rw [run] at imported
  cases result with
  | error error => exact imported
  | ok version_id => exact (quiet t).trans imported

theorem persistPrepared_run (codec : Codec) (task : RepairTask) (bytes : Bytes) (s : Store) :
    Grows bytes ((persistContentRepairTask task).run s).2
      ((persistPrepared codec task bytes).run s).2 := by
  have installed : Keeps (Grows bytes) (installRecoveryManifest codec task.hash bytes) := by
    unfold installRecoveryManifest
    refine grows_bind (keeps_lift grows_refl _) fun _ => ?_
    exact grows_bind (persist_grows _ _ _ _) fun _ => keeps_pure grows_refl _
  exact installed _

theorem mem_persisted (task : RepairTask) (s : Store) :
    task.pin ∈ ((persistContentRepairTask task).run s).2.repairTasks :=
  List.mem_append_right _ (List.mem_singleton.mpr rfl)

theorem installChunk_grows (codec : Codec) (chunk : ChunkRef) (bytes : Bytes) :
    Keeps (Grows bytes) (installChunk codec chunk false bytes) := by
  unfold installChunk ingestVerifiedChunk
  refine grows_bind (grows_bind (persist_grows _ _ _ _) fun _ => keeps_pure grows_refl _) fun _ => ?_
  exact keeps_pure grows_refl _

end Sections

section Manifests
variable {codec : Codec} {hash : String} {payload : Bytes} {manifest : ObjectManifest}

theorem checkedChunks_ok {chunks : List ChunkRef} {hash : String} :
    ∀ {sizes : Table String Nat} {total sum : Nat}, checkedChunks hash chunks sizes total = .ok sum →
      (∀ chunk ∈ chunks, isHexOfLength 64 chunk.hash = true ∧
        ∀ size, sizes.get chunk.hash = some size → size = chunk.sizeBytes) ∧
      ∀ a ∈ chunks, ∀ b ∈ chunks, a.hash = b.hash → a = b := by
  induction chunks with
  | nil =>
    intro sizes total sum _
    simp
  | cons chunk chunks ih =>
    intro sizes total sum passed
    unfold checkedChunks at passed
    split at passed
    · cases passed
    · next safe =>
      split at passed
      · cases passed
      · next consistent =>
        split at passed
        · cases passed
        · obtain ⟨each, same⟩ := ih passed
          have own : ∀ size, sizes.get chunk.hash = some size → size = chunk.sizeBytes := by
            intro size found
            rw [found] at consistent
            simpa using consistent
          -- A later entry with the same hash has been compared with this one.
          have later : ∀ other ∈ chunks, other.hash = chunk.hash → other = chunk := by
            intro other member equal
            have size := (each other member).2 chunk.sizeBytes (by rw [equal, get_put_self])
            cases other
            cases chunk
            simp only at equal size
            rw [equal, size]
          constructor
          · intro other member
            rcases List.mem_cons.mp member with rfl | member
            · exact ⟨by simpa [manifestHashLooksSafeFilename] using safe, own⟩
            · refine ⟨(each other member).1, fun size found => ?_⟩
              by_cases equal : other.hash = chunk.hash
              · rw [later other member equal]
                exact own size (equal ▸ found)
              · exact (each other member).2 size (by rw [get_put_other _ _ equal, found])
          · intro a first b second equal
            rcases List.mem_cons.mp first with rfl | inside
            · rcases List.mem_cons.mp second with rfl | after
              · rfl
              · exact (later b after equal.symm).symm
            · rcases List.mem_cons.mp second with rfl | after
              · exact later a inside equal
              · exact same a inside b after equal

theorem validateManifest_ok (valid : validateManifest codec hash payload = .ok manifest) :
    hashHex codec payload = hash ∧ codec.decodeManifest payload = some manifest ∧
      (∀ chunk ∈ manifest.chunks, isHexOfLength 64 chunk.hash = true) ∧
      ∀ a ∈ manifest.chunks, ∀ b ∈ manifest.chunks, a.hash = b.hash → a = b := by
  unfold validateManifest at valid
  split at valid
  · cases valid
  · next named =>
    split at valid
    · cases valid
    · next found decoded =>
      split at valid
      · cases valid
      · next total checked =>
        split at valid
        · cases valid
        · cases valid
          obtain ⟨each, same⟩ := checkedChunks_ok checked
          exact ⟨not_not.mp named, decoded, fun chunk member => (each chunk member).1, same⟩

theorem readValidManifest_ok {st : ContentStore} {bytes : Bytes}
    (read : readValidManifest codec st hash = .ok (some (bytes, manifest))) :
    Stored st .manifest hash bytes ∧ validateManifest codec hash bytes = .ok manifest := by
  unfold readValidManifest readManifestBytes at read
  cases placed : st.pool.contentPath .manifest hash with
  | error error =>
    rw [placed] at read
    cases read
  | ok path =>
    cases found : st.fileAt path with
    | none =>
      simp only [placed, found, Option.map_none] at read
      cases read
    | some entry =>
      simp only [placed, found, Option.map_some] at read
      split at read
      · cases read
      · next valid =>
        cases read
        exact ⟨⟨path, entry, placed, found, rfl⟩, valid⟩

end Manifests

end BerryKeepPinnedContent
