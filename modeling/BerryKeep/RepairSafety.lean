import BerryKeep.PinnedContent
import BerryKeep.UploadOutcome

/-!
What a finished repair guarantees. The stored task pins the manifest and all of
its chunks, and a sweep touches nothing that is pinned; so what the pass has
verified stays as it was, and what it replaces is right when it is installed.
The invariant says for each phase which chunks are known to be right, and the
last phase is reached only when that is all of them.
-/
namespace BerryKeepRepairSafety
open FiniteTable TextOperations StatefulProgram BerryKeepContentCodec BerryKeepStoragePool
  BerryKeepStorageRelocation BerryKeepNodeStore BerryKeepBundleExchange BerryKeepContentCleanup
  BerryKeepReplicationSubjects BerryKeepUploadAssembly BerryKeepContentRepair BerryKeepPinnedContent
open BerryKeepUploadSessions (CollisionFree)

section Invariant
variable (codec : Codec) (seen : List Bytes)

def Intact (st : ContentStore) (chunk : ChunkRef) : Prop :=
  ∃ bytes, Stored st .chunk chunk.hash bytes ∧ bytes.length = chunk.sizeBytes ∧
    hashHex codec bytes = chunk.hash

/-- Bytes that occur are the manifest of the task and list its work set. -/
def Lists (task : RepairTask) (bytes : Bytes) : Prop :=
  bytes ∈ seen ∧ ∃ manifest, validateManifest codec task.hash bytes = .ok manifest ∧
    manifest.chunks = task.chunks

structure Pinned (s : Store) (task : RepairTask) : Prop where
  row : task.pin ∈ s.repairTasks
  listed : ∃ bytes, Lists codec seen task bytes

def Installed (st : ContentStore) (task : RepairTask) : Prop :=
  ∃ bytes, Stored st .manifest task.hash bytes ∧ Lists codec seen task bytes

/-- The transfers under way. While chunks are replaced, every chunk that is not right yet has
    a job or is among those that nobody supplied. -/
structure Transferring (s : Store) (task : RepairTask) (existing_chunk_check : ExistingChunkCheck)
    (jobs : Table String ChunkJob) (result : ChunkRecoveryResult) : Prop where
  keyed : ∀ hash job, jobs.get hash = some job → job.chunk.hash = hash ∧ job.chunk ∈ task.chunks
  accepted : ∀ hash job source bytes, jobs.get hash = some job →
    job.stage = .installing source bytes →
      bytes ∈ seen ∧ bytes.length = job.chunk.sizeBytes ∧ hashHex codec bytes = job.chunk.hash
  covered : existing_chunk_check = .replace → Installed codec seen s.content task ∧
    ∀ chunk ∈ task.chunks, Intact codec s.content chunk ∨ chunk.hash ∈ result.remaining ∨
      ∃ job, jobs.get chunk.hash = some job ∧ job.chunk = chunk

def Complete (st : ContentStore) (task : RepairTask) : Prop :=
  Installed codec seen st task ∧ ∀ chunk ∈ task.chunks, Intact codec st chunk

def PhaseInvariant (s : Store) (task : RepairTask) : Phase → Prop
  | .idle | .ended _ | .checkManifest | .askManifest _ _ | .askExport _ => True
  | .prepare bytes rest prepared => Lists codec seen { task with chunks := prepared ++ rest } bytes
  | .persist bytes => Lists codec seen task bytes
  | .transfer existing_chunk_check _ jobs result _ =>
    Pinned codec seen s task ∧ Transferring codec seen s task existing_chunk_check jobs result
  | .readManifest _ => Pinned codec seen s task
  | .verify _ rest invalid =>
    Pinned codec seen s task ∧ Installed codec seen s.content task ∧
      (∀ chunk ∈ invalid, chunk ∈ task.chunks) ∧ ∃ checked, task.chunks = checked ++ rest ∧
        ∀ chunk ∈ checked, Intact codec s.content chunk ∨ chunk ∈ invalid
  | .finish _ => Pinned codec seen s task ∧ Complete codec seen s.content task
  | .commit _ bundle =>
    Pinned codec seen s task ∧ Complete codec seen s.content task ∧
      bundle.manifestHash = task.hash

structure Invariant (sys : System) : Prop where
  repair : sys.task.repairChunks = true
  files : ∀ file entry, sys.store.content.disk.get file = some entry → entry.bytes ∈ seen
  phase : PhaseInvariant codec seen sys.store sys.task sys.phase

variable {codec seen} {s t : Store} {task : RepairTask} {sys : System}

theorem Lists.hex {bytes : Bytes} (lists : Lists codec seen task bytes) :
    ∀ chunk ∈ task.chunks, isHexOfLength 64 chunk.hash = true := by
  obtain ⟨_, manifest, valid, same⟩ := lists
  rw [← same]
  exact (validateManifest_ok valid).2.2.1

theorem Lists.apart {bytes : Bytes} (lists : Lists codec seen task bytes) :
    ∀ a ∈ task.chunks, ∀ b ∈ task.chunks, a.hash = b.hash → a = b := by
  obtain ⟨_, manifest, valid, same⟩ := lists
  rw [← same]
  exact (validateManifest_ok valid).2.2.2

theorem Intact.same {a b : ContentStore} {chunk : ChunkRef} (intact : Intact codec a chunk)
    (same : SameReads .chunk chunk.hash a b) : Intact codec b chunk := by
  obtain ⟨bytes, stored, size, named⟩ := intact
  exact ⟨bytes, stored.same same, size, named⟩

theorem Installed.same {a b : ContentStore} (installed : Installed codec seen a task)
    (same : SameReads .manifest task.hash a b) : Installed codec seen b task := by
  obtain ⟨bytes, stored, lists⟩ := installed
  exact ⟨bytes, stored.same same, lists⟩

theorem Installed.readable {st : ContentStore} (installed : Installed codec seen st task) :
    Readable codec st .manifest task.hash := by
  obtain ⟨bytes, ⟨path, entry, placed, found, rfl⟩, _, manifest, valid, _⟩ := installed
  exact ⟨path, entry, placed, found, (validateManifest_ok valid).1⟩

structure KeepsPinned (task : RepairTask) (s t : Store) : Prop where
  row : task.pin ∈ t.repairTasks
  manifest : SameReads .manifest task.hash s.content t.content
  chunks : ∀ chunk ∈ task.chunks, SameReads .chunk chunk.hash s.content t.content

theorem Complete.kept (complete : Complete codec seen s.content task) (same : KeepsPinned task s t) :
    Complete codec seen t.content task := by
  refine ⟨complete.1.same same.manifest, fun chunk listed => ?_⟩
  exact (complete.2 chunk listed).same (same.chunks chunk listed)

theorem phase_kept (kept : Pinned codec seen s task → KeepsPinned task s t) {phase : Phase}
    (holds : PhaseInvariant codec seen s task phase) : PhaseInvariant codec seen t task phase := by
  have still : Pinned codec seen s task → Pinned codec seen t task :=
    fun pinned => ⟨(kept pinned).row, pinned.listed⟩
  cases phase with
  | idle => trivial
  | ended outcome => trivial
  | checkManifest => trivial
  | askManifest sources all_sources => trivial
  | askExport sources => trivial
  | prepare bytes rest prepared => exact holds
  | persist bytes => exact holds
  | transfer existing_chunk_check sources jobs result recovered =>
    obtain ⟨pinned, transferring⟩ := holds
    have same := kept pinned
    refine ⟨still pinned, transferring.keyed, transferring.accepted, fun replacing => ?_⟩
    obtain ⟨installed, covered⟩ := transferring.covered replacing
    refine ⟨installed.same same.manifest, fun chunk listed => ?_⟩
    rcases covered chunk listed with intact | rest
    · exact .inl (intact.same (same.chunks chunk listed))
    · exact .inr rest
  | readManifest recovered => exact still holds
  | verify recovered rest invalid =>
    obtain ⟨pinned, installed, inside, checked, split, each⟩ := holds
    have same := kept pinned
    refine ⟨still pinned, installed.same same.manifest, inside, checked, split, fun chunk member => ?_⟩
    have listed : chunk ∈ task.chunks := by
      rw [split]
      exact List.mem_append_left _ member
    rcases each chunk member with intact | bad
    · exact .inl (intact.same (same.chunks chunk listed))
    · exact .inr bad
  | finish recovered =>
    obtain ⟨pinned, complete⟩ := holds
    exact ⟨still pinned, complete.kept (kept pinned)⟩
  | commit recovered bundle =>
    obtain ⟨pinned, complete, named⟩ := holds
    exact ⟨still pinned, complete.kept (kept pinned), named⟩

theorem cleanup_keeps (codec : Codec) (r : Nat) (dry_run : Bool)
    (pinned : Pinned codec seen s task) :
    KeepsPinned task s ((cleanupUnreferenced codec r dry_run).run s).2 := by
  obtain ⟨bytes, lists⟩ := pinned.listed
  obtain ⟨manifest, chunks⟩ := cleanup_pinned codec r dry_run pinned.row
  refine ⟨?_, manifest.toSameReads, fun chunk listed => ?_⟩
  · rw [(cleanup_shrinks codec r dry_run s).tasks]
    exact pinned.row
  · exact (chunks chunk listed (lists.hex chunk listed)).toSameReads

theorem cleanup_invariant (holds : Invariant codec seen sys)
    (decodeBundle : Bytes → Option ReplicationExportBundle) (r : Nat) (dry_run : Bool) :
    Invariant codec seen (exec codec decodeBundle (.cleanup r dry_run) sys) where
  repair := holds.repair
  files := by
    intro file entry found
    exact holds.files file entry ((cleanup_shrinks codec r dry_run sys.store).files file entry found)
  phase := phase_kept (cleanup_keeps codec r dry_run) holds.phase

end Invariant

section Steps
variable {codec : Codec} {seen : List Bytes} {sys : System} {s t : Store} {task : RepairTask}
  {decodeBundle : Bytes → Option ReplicationExportBundle} {nodes : List String}
  {reply : Except String Bytes}

theorem Invariant.goto (holds : Invariant codec seen sys) {phase : Phase}
    (there : PhaseInvariant codec seen sys.store sys.task phase) :
    Invariant codec seen { sys with phase := phase } := ⟨holds.repair, holds.files, there⟩

theorem Invariant.fail (holds : Invariant codec seen sys) (error : RecoveryError) :
    Invariant codec seen (sys.fail error) := holds.goto trivial

variable {bytes : Bytes}

theorem Invariant.occurs (holds : Invariant codec seen sys) {kind : StorageContentKind} {hash : String}
    (stored : Stored sys.store.content kind hash bytes) : bytes ∈ seen := by
  obtain ⟨path, entry, found, rfl⟩ := stored.file
  exact holds.files path entry found

theorem files_grown (known : bytes ∈ seen)
    (before : ∀ file entry, s.content.disk.get file = some entry → entry.bytes ∈ seen)
    (grown : Grows bytes s t) :
    ∀ file entry, t.content.disk.get file = some entry → entry.bytes ∈ seen := by
  intro file entry found
  rcases grown.files file entry found with old | written
  · exact before file entry old
  · rw [written]
    exact known

theorem withManifest_invariant (holds : Invariant codec seen sys)
    (known : bytes ∈ seen) : Invariant codec seen (sys.withManifest codec bytes) := by
  unfold System.withManifest
  split
  · exact holds.fail _
  · next manifest valid => exact holds.goto ⟨known, manifest, valid, rfl⟩

theorem uniqueJobs_get (chunks : List ChunkRef) (hash : String) :
    (∀ job, (uniqueJobs chunks).get hash = some job →
      job.chunk ∈ chunks ∧ job.chunk.hash = hash ∧ job.stage = .checking) ∧
      ((∃ chunk ∈ chunks, chunk.hash = hash) → ∃ job, (uniqueJobs chunks).get hash = some job) := by
  unfold uniqueJobs
  refine foldl_invariant (fun done (jobs : Table String ChunkJob) =>
    (∀ job, jobs.get hash = some job →
      job.chunk ∈ done ∧ job.chunk.hash = hash ∧ job.stage = .checking) ∧
      ((∃ chunk ∈ done, chunk.hash = hash) → ∃ job, jobs.get hash = some job)) ?_ chunks ?_
  · rintro done chunk jobs ⟨each, all⟩
    by_cases same : hash = chunk.hash
    · subst same
      rw [get_put_self]
      constructor
      · intro job found
        cases found
        exact ⟨by simp, rfl, rfl⟩
      · exact fun _ => ⟨_, rfl⟩
    · rw [get_put_other _ _ same]
      constructor
      · intro job found
        obtain ⟨inside, named, stage⟩ := each job found
        exact ⟨List.mem_append_left _ inside, named, stage⟩
      · rintro ⟨other, member, named⟩
        rcases List.mem_append.mp member with before | last
        · exact all ⟨other, before, named⟩
        · rw [List.mem_singleton.mp last] at named
          exact absurd named.symm same
  · exact ⟨by simp, by simp⟩

theorem startTransfer_transferring {existing_chunk_check : ExistingChunkCheck}
    {chunks : List ChunkRef} (inside : ∀ chunk ∈ chunks, chunk ∈ task.chunks)
    (pinned : Pinned codec seen s task)
    (covered : existing_chunk_check = .replace → Installed codec seen s.content task ∧
      ∀ chunk ∈ task.chunks, Intact codec s.content chunk ∨ chunk ∈ chunks) :
    Transferring codec seen s task existing_chunk_check (uniqueJobs chunks)
      ChunkRecoveryResult.empty where
  keyed := by
    intro hash job found
    obtain ⟨member, named, _⟩ := (uniqueJobs_get chunks hash).1 job found
    exact ⟨named, inside _ member⟩
  accepted := by
    intro hash job source bytes found stage
    rw [((uniqueJobs_get chunks hash).1 job found).2.2] at stage
    cases stage
  covered := by
    intro replacing
    obtain ⟨installed, each⟩ := covered replacing
    refine ⟨installed, fun chunk listed => ?_⟩
    rcases each chunk listed with intact | bad
    · exact .inl intact
    · obtain ⟨job, found⟩ := (uniqueJobs_get chunks chunk.hash).2 ⟨chunk, bad, rfl⟩
      obtain ⟨member, named, _⟩ := (uniqueJobs_get chunks chunk.hash).1 job found
      obtain ⟨bytes, lists⟩ := pinned.listed
      exact .inr (.inr ⟨job, found, lists.apart _ (inside _ member) _ listed named⟩)

theorem chunkVerified_intact {st : ContentStore} {chunk : ChunkRef}
    (verified : chunkVerified codec st chunk = .ok true) : Intact codec st chunk := by
  unfold chunkVerified at verified
  cases placed : st.pool.contentPath .chunk chunk.hash with
  | error error =>
    rw [placed] at verified
    cases verified
  | ok path =>
    cases found : st.fileAt path with
    | none =>
      simp only [placed, found, Option.any_none] at verified
      cases verified
    | some entry =>
      simp only [placed, found, Option.any_some, Except.ok.injEq, Bool.and_eq_true, beq_iff_eq]
        at verified
      exact ⟨entry.bytes, ⟨path, entry, placed, found, rfl⟩, verified.1, verified.2⟩

theorem persist_invariant (holds : Invariant codec seen sys)
    (lists : Lists codec seen sys.task bytes) :
    Invariant codec seen (match (persistPrepared codec sys.task bytes).run sys.store with
      | (.ok (), t) => { sys with store := t }.startTransfer .matchMetadata nodes sys.task.chunks 0
      | (.error error, t) => { sys with store := t }.fail (.failed error)) := by
  have grown := persistPrepared_run codec sys.task bytes sys.store
  rcases run : (persistPrepared codec sys.task bytes).run sys.store with ⟨result, t⟩
  rw [run] at grown
  have files := files_grown (s := ((persistContentRepairTask sys.task).run sys.store).2) lists.1
    holds.files grown
  cases result with
  | error error => exact ⟨holds.repair, files, trivial⟩
  | ok done =>
    have pinned : Pinned codec seen t sys.task :=
      ⟨by rw [grown.tasks]; exact mem_persisted sys.task sys.store, bytes, lists⟩
    refine ⟨holds.repair, files, pinned, startTransfer_transferring (fun _ member => member) pinned ?_⟩
    intro other
    cases other

theorem endTransfer_invariant (holds : Invariant codec seen sys)
    {existing_chunk_check : ExistingChunkCheck} {jobs : Table String ChunkJob}
    {result : ChunkRecoveryResult} (pinned : Pinned codec seen sys.store sys.task)
    (transferring : Transferring codec seen sys.store sys.task existing_chunk_check jobs result)
    (over_all : jobs.keys = []) (recovered : Nat) :
    Invariant codec seen (sys.endTransfer existing_chunk_check result recovered) := by
  unfold System.endTransfer
  split
  · exact holds.goto trivial
  · next none_missing =>
    split
    · next replacing =>
      obtain ⟨installed, covered⟩ := transferring.covered replacing
      refine holds.goto ⟨pinned, installed, fun chunk listed => ?_⟩
      rcases covered chunk listed with intact | missing | ⟨job, found, _⟩
      · exact intact
      · rw [not_not.mp none_missing] at missing
        cases missing
      · have key := (mem_keys jobs chunk.hash).mpr ⟨job, found⟩
        rw [over_all] at key
        cases key
    · exact holds.goto pinned

theorem installed_of_read (free : CollisionFree codec seen) (holds : Invariant codec seen sys)
    (pinned : Pinned codec seen sys.store sys.task) {manifest : ObjectManifest}
    (read : readValidManifest codec sys.store.content sys.task.hash = .ok (some (bytes, manifest))) :
    Installed codec seen sys.store.content sys.task ∧ manifest.chunks = sys.task.chunks := by
  obtain ⟨stored, valid⟩ := readValidManifest_ok read
  obtain ⟨pinned_bytes, known, pinned_manifest, pinned_valid, listed⟩ := pinned.listed
  have named := (validateManifest_ok valid).1.trans (validateManifest_ok pinned_valid).1.symm
  have same := free bytes (holds.occurs stored) pinned_bytes known named
  subst same
  rw [valid] at pinned_valid
  cases pinned_valid
  exact ⟨⟨bytes, stored, known, manifest, valid, listed⟩, listed⟩

theorem verify_invariant (holds : Invariant codec seen sys) {chunk : ChunkRef}
    {rest invalid : List ChunkRef} {recovered : Nat}
    (verifying : PhaseInvariant codec seen sys.store sys.task (.verify recovered (chunk :: rest) invalid)) :
    Invariant codec seen (match chunkVerified codec sys.store.content chunk with
      | .error error => sys.fail (.failed error)
      | .ok true => { sys with phase := .verify recovered rest invalid }
      | .ok false => { sys with phase := .verify recovered rest (invalid ++ [chunk]) }) := by
  obtain ⟨pinned, installed, inside, checked, split_at, each⟩ := verifying
  have moved : sys.task.chunks = (checked ++ [chunk]) ++ rest := by
    rw [split_at, List.append_assoc]
    rfl
  split
  · exact holds.fail _
  · next verified =>
    refine holds.goto ⟨pinned, installed, inside, checked ++ [chunk], moved, fun other member => ?_⟩
    rcases List.mem_append.mp member with before | last
    · exact each other before
    · rw [List.mem_singleton.mp last]
      exact .inl (chunkVerified_intact verified)
  · refine holds.goto ⟨pinned, installed, ?_, checked ++ [chunk], moved, fun other member => ?_⟩
    · intro other member
      rcases List.mem_append.mp member with before | last
      · exact inside other before
      · rw [List.mem_singleton.mp last, split_at]
        simp
    · rcases List.mem_append.mp member with before | last
      · rcases each other before with intact | bad
        · exact .inl intact
        · exact .inr (List.mem_append_left _ bad)
      · exact .inr (List.mem_append_right _ last)

theorem endPass_invariant (holds : Invariant codec seen sys) (recovered : Nat)
    {section_run : Except StoreError Unit × Store}
    (quiet : section_run.2.content = sys.store.content) :
    Invariant codec seen (sys.endPass recovered section_run) := by
  refine ⟨holds.repair, ?_, trivial⟩
  change ∀ file entry, section_run.2.content.disk.get file = some entry → _
  rw [quiet]
  exact holds.files

theorem proceed_invariant (free : CollisionFree codec seen) (holds : Invariant codec seen sys)
    (known : ∀ bytes, reply = .ok bytes → bytes ∈ seen)
    (bundled : ∀ bytes bundle, reply = .ok bytes → decodeBundle bytes = some bundle →
      bundle.manifestBytes ∈ seen) :
    Invariant codec seen (sys.proceed codec decodeBundle nodes reply) := by
  have phase := holds.phase
  unfold System.proceed
  split
  · exact holds
  · exact holds
  · split
    · next bytes manifest read =>
      exact withManifest_invariant holds (holds.occurs (readValidManifest_ok read).1)
    · exact holds.goto trivial
  · split
    · next bytes =>
      split
      · exact withManifest_invariant holds (known bytes rfl)
      · exact holds.goto trivial
    · exact holds.goto trivial
  · split
    · exact holds.goto trivial
    · exact holds.fail _
  · split
    · next bundle decoded =>
      split
      · refine withManifest_invariant holds ?_
        cases reply with
        | error error => cases decoded
        | ok bytes => exact bundled bytes bundle rfl decoded
      · exact holds.goto trivial
    · exact holds.goto trivial
  · exact holds.fail _
  · next bytes chunk rest prepared here =>
    rw [here] at phase
    unfold System.prepareChunk
    rw [if_pos holds.repair]
    refine holds.goto ?_
    change Lists codec seen { sys.task with chunks := (prepared ++ [chunk]) ++ rest } bytes
    rw [List.append_assoc]
    exact phase
  · next bytes prepared here =>
    rw [here] at phase
    change Lists codec seen { sys.task with chunks := prepared ++ [] } bytes at phase
    rw [List.append_nil] at phase
    exact ⟨holds.repair, holds.files, phase⟩
  · next bytes here =>
    rw [here] at phase
    exact persist_invariant holds phase
  · next existing_chunk_check sources jobs result recovered here =>
    rw [here] at phase
    split
    · next over_all => exact endTransfer_invariant holds phase.1 phase.2 over_all recovered
    · exact holds
  · next recovered here =>
    rw [here] at phase
    split
    · exact holds.fail _
    · exact holds.fail _
    · next bytes manifest read =>
      obtain ⟨installed, same⟩ := installed_of_read free holds phase read
      refine holds.goto ⟨phase, installed, by simp, [], ?_, by simp⟩
      rw [if_pos holds.repair, same]
      rfl
  · next recovered chunk rest invalid here =>
    rw [here] at phase
    exact verify_invariant holds phase
  · next recovered invalid here =>
    rw [here] at phase
    obtain ⟨pinned, installed, inside, checked, split_at, each⟩ := phase
    rw [List.append_nil] at split_at
    split
    · next all_right =>
      refine holds.goto ⟨pinned, installed, fun chunk listed => ?_⟩
      rw [split_at] at listed
      rcases each chunk listed with intact | bad
      · exact intact
      · rw [all_right] at bad
        cases bad
    · refine holds.goto ⟨pinned, startTransfer_transferring inside pinned fun _ => ⟨installed, ?_⟩⟩
      rw [split_at]
      exact each
  · next recovered here =>
    rw [here] at phase
    split
    · exact endPass_invariant holds recovered (finish_content codec sys.task sys.store)
    · next pending waiting =>
      split
      · exact holds.fail _
      · exact holds.fail _
      · split
        · exact holds.fail _
        · next bundle restored =>
          refine holds.goto ⟨phase.1, phase.2, ?_⟩
          unfold PendingReplicationImport.restoreBundle at restored
          split at restored
          · cases restored
          · cases restored
            rfl
  · next recovered bundle here =>
    rw [here] at phase
    obtain ⟨pinned, complete, named⟩ := phase
    refine endPass_invariant holds recovered (commit_content (finish_content codec sys.task) ?_)
    rw [named]
    exact complete.1.readable

end Steps

section Transfers
variable {codec : Codec} {seen : List Bytes} {sys : System} {s t : Store} {task : RepairTask}
  {chunk : ChunkRef} {sources : List String} {existing_chunk_check : ExistingChunkCheck}
  {reply : Except String Bytes} {stage next : ChunkStage} {outcome : Except RecoveryError Bool}
  {jobs : Table String ChunkJob} {result : ChunkRecoveryResult}

theorem recoverChunk_goes (step : recoverChunk codec chunk sources false existing_chunk_check reply s
    stage = (.inl next, t)) :
    t = s ∧ ∀ source bytes, next = .installing source bytes →
      reply = .ok bytes ∧ bytes.length = chunk.sizeBytes ∧ hashHex codec bytes = chunk.hash := by
  unfold recoverChunk at step
  split at step
  · split at step
    · cases step
    · cases step
      exact ⟨rfl, fun _ _ same => by cases same⟩
  · cases step
  · split at step
    · split at step
      · next fits =>
        cases step
        refine ⟨rfl, fun _ _ same => ?_⟩
        cases same
        exact ⟨rfl, fits⟩
      · cases step
        exact ⟨rfl, fun _ _ same => by cases same⟩
    · cases step
      exact ⟨rfl, fun _ _ same => by cases same⟩
  · split at step
    · cases step
    · cases step

theorem recoverChunk_ends (step : recoverChunk codec chunk sources false existing_chunk_check reply s
    stage = (.inr outcome, t)) :
    (t = s ∧ ∀ done, outcome = .ok done → done = false ∧ existing_chunk_check ≠ .replace) ∨
      ∃ source bytes, stage = .installing source bytes ∧
        t = ((installChunk codec chunk false bytes).run s).2 ∧
        ∀ done, outcome = .ok done → ((installChunk codec chunk false bytes).run s).1 = .ok () := by
  unfold recoverChunk at step
  split at step
  · split at step
    · next kept =>
      cases step
      refine .inl ⟨rfl, fun done same => ?_⟩
      cases same
      refine ⟨rfl, fun replacing => ?_⟩
      rw [replacing] at kept
      cases kept
    · cases step
  · cases step
    exact .inl ⟨rfl, fun _ same => by cases same⟩
  · split at step
    · split at step
      · cases step
      · cases step
    · cases step
  · next source bytes =>
    right
    refine ⟨source, bytes, rfl, ?_⟩
    split at step
    · next t run =>
      cases step
      rw [run]
      exact ⟨rfl, fun _ _ => rfl⟩
    · next error t run =>
      cases step
      rw [run]
      exact ⟨rfl, fun _ same => by cases same⟩

variable {hash : String}

theorem installChunk_keepsRead {kind : StorageContentKind}
    (other : (kind, hash) ≠ (.chunk, chunk.hash)) (bytes : Bytes) :
    Keeps (KeepsRead kind hash) (installChunk codec chunk false bytes) := by
  unfold installChunk ingestVerifiedChunk
  refine keeps_bind keepsRead_trans ?_ fun _ => keeps_pure keepsRead_refl _
  exact keeps_bind keepsRead_trans (persistStorageContent_keepsRead other bytes)
    fun _ => keeps_pure keepsRead_refl _

/-- After an installation the chunk is right: a file that was kept for its hash has, without
    collisions, the bytes that the peer sent. -/
theorem installChunk_intact (free : CollisionFree codec seen)
    (files : ∀ file entry, s.content.disk.get file = some entry → entry.bytes ∈ seen)
    {bytes : Bytes} (known : bytes ∈ seen) (size : bytes.length = chunk.sizeBytes)
    (named : hashHex codec bytes = chunk.hash)
    (done : ((installChunk codec chunk false bytes).run s).1 = .ok ()) :
    Intact codec ((installChunk codec chunk false bytes).run s).2.content chunk := by
  have after := persist_stored codec .chunk chunk.hash bytes s
  unfold Ensures at after
  unfold installChunk ingestVerifiedChunk at done ⊢
  rw [bind_run, bind_run] at done ⊢
  rcases run : (persistStorageContent codec .chunk chunk.hash bytes).run s with ⟨ended, t⟩
  rw [run] at after
  simp only [run] at done ⊢
  cases ended with
  | error error => cases done
  | ok persisted =>
    rcases after persisted rfl with stored | ⟨found, stored, before, right⟩
    · exact ⟨bytes, stored, size, named⟩
    · obtain ⟨path, entry, there, rfl⟩ := before.file
      have same := free _ (files path entry there) bytes known (right.trans named.symm)
      exact ⟨bytes, same ▸ stored, size, named⟩

theorem note_remaining (hash : String) :
    (∀ h ∈ result.remaining, h ∈ (result.note hash outcome).remaining) ∧
      ((∀ done, outcome ≠ .ok done) → hash ∈ (result.note hash outcome).remaining) := by
  unfold ChunkRecoveryResult.note
  split
  · exact ⟨fun _ member => member, fun failed => absurd rfl (failed true)⟩
  · exact ⟨fun _ member => member, fun failed => absurd rfl (failed false)⟩
  · exact ⟨fun _ member => List.mem_append_left _ member,
      fun _ => List.mem_append_right _ (List.mem_singleton.mpr rfl)⟩

theorem transferring_goes {job : ChunkJob}
    (transferring : Transferring codec seen s task existing_chunk_check jobs result)
    (found : jobs.get hash = some job) (accepted : ∀ source bytes, next = .installing source bytes →
      bytes ∈ seen ∧ bytes.length = job.chunk.sizeBytes ∧ hashHex codec bytes = job.chunk.hash) :
    Transferring codec seen s task existing_chunk_check (jobs.put hash ⟨job.chunk, next⟩) result where
  keyed := by
    intro other there stored
    rcases get_put_some stored with ⟨same, rfl⟩ | ⟨-, stored⟩
    · rw [same]
      exact transferring.keyed hash job found
    · exact transferring.keyed other there stored
  accepted := by
    intro other there source bytes stored installing
    rcases get_put_some stored with ⟨-, rfl⟩ | ⟨-, stored⟩
    · exact accepted source bytes installing
    · exact transferring.accepted other there source bytes stored installing
  covered := by
    intro replacing
    obtain ⟨installed, covered⟩ := transferring.covered replacing
    refine ⟨installed, fun chunk listed => ?_⟩
    rcases covered chunk listed with intact | missing | ⟨there, stored, same⟩
    · exact .inl intact
    · exact .inr (.inl missing)
    · refine .inr (.inr ?_)
      by_cases equal : chunk.hash = hash
      · rw [equal] at stored ⊢
        rw [found] at stored
        cases stored
        exact ⟨_, get_put_self _ _ _, same⟩
      · exact ⟨there, by rw [get_put_other _ _ equal, stored], same⟩

theorem transferring_ends {job : ChunkJob} (lists : ∃ bytes, Lists codec seen task bytes)
    (transferring : Transferring codec seen s task existing_chunk_check jobs result)
    (found : jobs.get hash = some job)
    (manifest : SameReads .manifest task.hash s.content t.content)
    (others : ∀ h, h ≠ hash → SameReads .chunk h s.content t.content)
    (replaced : existing_chunk_check = .replace → ∀ done, outcome = .ok done →
      Intact codec t.content job.chunk) :
    Transferring codec seen t task existing_chunk_check (jobs.del hash)
      (result.note hash outcome) where
  keyed := by
    intro other there stored
    exact transferring.keyed other there (get_del_some stored).2
  accepted := by
    intro other there source bytes stored installing
    exact transferring.accepted other there source bytes (get_del_some stored).2 installing
  covered := by
    intro replacing
    obtain ⟨installed, covered⟩ := transferring.covered replacing
    obtain ⟨bytes, lists⟩ := lists
    obtain ⟨named, inside⟩ := transferring.keyed hash job found
    refine ⟨installed.same manifest, fun chunk listed => ?_⟩
    by_cases equal : chunk.hash = hash
    · have same : job.chunk = chunk := lists.apart _ inside _ listed (named.trans equal.symm)
      by_cases failed : ∀ done, outcome ≠ .ok done
      · rw [equal]
        exact .inr (.inl ((note_remaining hash).2 failed))
      · push Not at failed
        obtain ⟨done, ended⟩ := failed
        rw [← same]
        exact .inl (replaced replacing done ended)
    · rcases covered chunk listed with intact | missing | ⟨there, stored, same⟩
      · exact .inl (intact.same (others _ equal))
      · exact .inr (.inl ((note_remaining hash).1 _ missing))
      · exact .inr (.inr ⟨there, by rw [get_del_other _ equal, stored], same⟩)

theorem stepChunk_invariant (free : CollisionFree codec seen) (holds : Invariant codec seen sys)
    (hash : String) (known : ∀ bytes, reply = .ok bytes → bytes ∈ seen) :
    Invariant codec seen (sys.stepChunk codec hash reply) := by
  have phase := holds.phase
  unfold System.stepChunk
  split
  · next existing_chunk_check sources jobs result recovered here =>
    rw [here] at phase
    obtain ⟨pinned, transferring⟩ := phase
    split
    · exact holds
    · next job found =>
      rw [holds.repair, Bool.not_true]
      obtain ⟨named, _⟩ := transferring.keyed hash job found
      split
      · next next_stage t step =>
        obtain ⟨rfl, fits⟩ := recoverChunk_goes step
        refine ⟨holds.repair, holds.files, pinned, transferring_goes transferring found ?_⟩
        intro source bytes installing
        obtain ⟨answered, size, right⟩ := fits source bytes installing
        exact ⟨known bytes answered, size, right⟩
      · next outcome t step =>
        rcases recoverChunk_ends step with ⟨rfl, ended⟩ | ⟨source, bytes, installing, rfl, ended⟩
        · refine ⟨holds.repair, holds.files, pinned, ?_⟩
          refine transferring_ends pinned.listed transferring found (keepsRead_refl sys.store)
            (fun h _ => keepsRead_refl sys.store) fun replacing done same => ?_
          exact absurd replacing (ended done same).2
        · obtain ⟨occurs, size, right⟩ := transferring.accepted hash job source bytes found installing
          have grown := installChunk_grows codec job.chunk bytes sys.store
          refine ⟨holds.repair, files_grown occurs holds.files grown, ⟨?_, pinned.listed⟩, ?_⟩
          · rw [grown.tasks]
            exact pinned.row
          · refine transferring_ends pinned.listed transferring found
              (installChunk_keepsRead (by simp) bytes sys.store) (fun h other => ?_) ?_
            · refine installChunk_keepsRead (fun same => other ?_) bytes sys.store
              cases same
              exact named
            · intro _ done same
              exact installChunk_intact free holds.files occurs size right (ended done same)
  · exact holds

end Transfers

section Runs
variable {codec : Codec} {seen : List Bytes} {sys : System} {s : Store} {task : RepairTask}
  {decodeBundle : Bytes → Option ReplicationExportBundle}

def payloads (decodeBundle : Bytes → Option ReplicationExportBundle) : Event → List Bytes
  | .proceed _ (.ok bytes) =>
    bytes :: (decodeBundle bytes).toList.map fun bundle => bundle.manifestBytes
  | .chunk _ (.ok bytes) => [bytes]
  | _ => []

/-- The bytes of the files at the start and of everything that peers send. -/
def occurring (decodeBundle : Bytes → Option ReplicationExportBundle) (store : Store)
    (events : List Event) : List Bytes :=
  (store.content.disk.values.map fun entry => entry.bytes) ++ events.flatMap (payloads decodeBundle)

/-- The last steps of a pass, in which the manifest is marked as owned. -/
def finishing : Phase → Bool
  | .finish _ | .commit _ _ => true
  | _ => false

def pinning : Phase → Bool
  | .transfer _ _ _ _ _ | .readManifest _ | .verify _ _ _ | .finish _ | .commit _ _ => true
  | _ => false

theorem resting {phase : Phase} (rests : phase.running = false) :
    PhaseInvariant codec seen s task phase := by
  unfold Phase.running at rests
  split at rests
  · trivial
  · trivial
  · cases rests

theorem pinned_of_pinning (holds : Invariant codec seen sys) (pins : pinning sys.phase = true) :
    Pinned codec seen sys.store sys.task := by
  have phase := holds.phase
  unfold pinning at pins
  split at pins
  · next here => rw [here] at phase; exact phase.1
  · next here => rw [here] at phase; exact phase
  · next here => rw [here] at phase; exact phase.1
  · next here => rw [here] at phase; exact phase.1
  · next here => rw [here] at phase; exact phase.1
  · cases pins

theorem finishing_cases {phase : Phase} (ends : finishing phase = true) :
    (∃ recovered, phase = .finish recovered) ∨ ∃ recovered bundle, phase = .commit recovered bundle := by
  unfold finishing at ends
  split at ends
  · next recovered => exact .inl ⟨recovered, rfl⟩
  · next recovered bundle => exact .inr ⟨recovered, bundle, rfl⟩
  · cases ends

theorem complete_of_finishing (holds : Invariant codec seen sys)
    (ends : finishing sys.phase = true) :
    Pinned codec seen sys.store sys.task ∧ Complete codec seen sys.store.content sys.task := by
  have phase := holds.phase
  rcases finishing_cases ends with ⟨recovered, here⟩ | ⟨recovered, bundle, here⟩
  · rw [here] at phase
    exact phase
  · rw [here] at phase
    exact ⟨phase.1, phase.2.1⟩

theorem torn_files (holds : Invariant codec seen sys) (hash : String) (writes : Nat) :
    ∀ file entry, ((sys.torn codec hash writes).run sys.store).2.content.disk.get file = some entry →
      entry.bytes ∈ seen := by
  have phase := holds.phase
  unfold System.torn
  split
  · next bytes here =>
    rw [here] at phase
    split
    · exact holds.files
    · next writes =>
      exact files_grown (s := ((persistContentRepairTask sys.task).run sys.store).2) phase.1
        holds.files (persistTorn_grows codec .manifest sys.task.hash bytes writes _)
  · next existing_chunk_check sources jobs result recovered here =>
    rw [here] at phase
    split
    · next chunk source bytes found =>
      have known := (phase.2.accepted hash _ source bytes found rfl).1
      exact files_grown known holds.files (persistTorn_grows codec .chunk chunk.hash bytes writes _)
    · exact holds.files
  · split
    · exact holds.files
    · rw [finishTorn_content codec sys.task writes sys.store]
      exact holds.files
  · next recovered bundle here =>
    rw [here] at phase
    split
    · exact holds.files
    · next writes =>
      have present := phase.2.1.1.readable
      rw [← phase.2.2] at present
      rw [commit_content (finishTorn_content codec sys.task writes) present]
      exact holds.files
  · exact holds.files

theorem exec_invariant (free : CollisionFree codec seen) (event : Event)
    (known : ∀ bytes ∈ payloads decodeBundle event, bytes ∈ seen)
    (holds : Invariant codec seen sys) : Invariant codec seen (exec codec decodeBundle event sys) := by
  cases event with
  | take chunks =>
    unfold exec
    dsimp only
    split
    · exact holds
    · exact ⟨holds.repair, holds.files, trivial⟩
  | proceed nodes reply =>
    refine proceed_invariant free holds ?_ ?_
    · rintro bytes rfl
      exact known bytes List.mem_cons_self
    · rintro bytes bundle rfl decoded
      refine known _ (List.mem_cons_of_mem _ ?_)
      rw [decoded]
      exact List.mem_singleton.mpr rfl
  | chunk hash reply =>
    refine stepChunk_invariant free holds hash ?_
    rintro bytes rfl
    exact known bytes (List.mem_singleton.mpr rfl)
  | cancel hash writes => exact ⟨holds.repair, torn_files holds hash writes, trivial⟩
  | postpone =>
    unfold exec
    dsimp only
    split
    · exact holds
    · next rests => exact ⟨holds.repair, holds.files, resting (Bool.not_eq_true _ ▸ rests)⟩
  | cleanup r dry_run => exact cleanup_invariant holds decodeBundle r dry_run

theorem proceed_content (holds : Invariant codec seen sys) (ends : finishing sys.phase = true)
    (nodes : List String) (reply : Except String Bytes) :
    (sys.proceed codec decodeBundle nodes reply).store.content = sys.store.content := by
  have phase := holds.phase
  rcases finishing_cases ends with ⟨recovered, here⟩ | ⟨recovered, bundle, here⟩
  · simp only [System.proceed, here]
    split
    · exact finish_content codec sys.task sys.store
    · split
      · rfl
      · rfl
      · split
        · rfl
        · rfl
  · rw [here] at phase
    have present := phase.2.1.1.readable
    rw [← phase.2.2] at present
    simp only [System.proceed, here]
    exact commit_content (finish_content codec sys.task) present

theorem torn_content (holds : Invariant codec seen sys) (ends : finishing sys.phase = true)
    (hash : String) (writes : Nat) :
    ((sys.torn codec hash writes).run sys.store).2.content = sys.store.content := by
  have phase := holds.phase
  rcases finishing_cases ends with ⟨recovered, here⟩ | ⟨recovered, bundle, here⟩
  · simp only [System.torn, here]
    split
    · rfl
    · exact finishTorn_content codec sys.task writes sys.store
  · rw [here] at phase
    have present := phase.2.1.1.readable
    rw [← phase.2.2] at present
    simp only [System.torn, here]
    split
    · rfl
    · next writes => exact commit_content (finishTorn_content codec sys.task writes) present

theorem exec_complete (holds : Invariant codec seen sys) (ends : finishing sys.phase = true)
    (event : Event) :
    Complete codec seen (exec codec decodeBundle event sys).store.content sys.task := by
  obtain ⟨pinned, complete⟩ := complete_of_finishing holds ends
  have running : sys.phase.running = true := by
    rcases finishing_cases ends with ⟨recovered, here⟩ | ⟨recovered, bundle, here⟩
    · rw [here]
      rfl
    · rw [here]
      rfl
  cases event with
  | take chunks => simpa only [exec, running, if_true] using complete
  | proceed nodes reply =>
    change Complete codec seen (sys.proceed codec decodeBundle nodes reply).store.content sys.task
    rw [proceed_content holds ends nodes reply]
    exact complete
  | chunk hash reply =>
    rcases finishing_cases ends with ⟨recovered, here⟩ | ⟨recovered, bundle, here⟩
    · simpa only [exec, System.stepChunk, here] using complete
    · simpa only [exec, System.stepChunk, here] using complete
  | cancel hash writes =>
    change Complete codec seen ((sys.torn codec hash writes).run sys.store).2.content sys.task
    rw [torn_content holds ends hash writes]
    exact complete
  | postpone => simpa only [exec, running, if_true] using complete
  | cleanup r dry_run => exact complete.kept (cleanup_keeps codec r dry_run pinned)

theorem withManifest_store (sys : System) (bytes : Bytes) :
    (sys.withManifest codec bytes).store = sys.store := by
  unfold System.withManifest
  split
  · rfl
  · rfl

theorem prepareChunk_store (sys : System) (bytes : Bytes) (chunk : ChunkRef)
    (rest prepared : List ChunkRef) :
    (sys.prepareChunk bytes chunk rest prepared).store = sys.store := by
  unfold System.prepareChunk
  split
  · rfl
  · split
    · rfl
    · rfl
    · rfl

theorem endTransfer_store (sys : System) (existing_chunk_check : ExistingChunkCheck)
    (result : ChunkRecoveryResult) (recovered : Nat) :
    (sys.endTransfer existing_chunk_check result recovered).store = sys.store := by
  unfold System.endTransfer
  split
  · rfl
  · split
    · rfl
    · rfl

theorem proceed_owned (unfinished : finishing sys.phase = false) (nodes : List String)
    (reply : Except String Bytes) :
    (sys.proceed codec decodeBundle nodes reply).store.ownedManifests = sys.store.ownedManifests := by
  unfold System.proceed
  split
  · rfl
  · rfl
  · split
    · rw [withManifest_store]
    · rfl
  · split
    · split
      · rw [withManifest_store]
      · rfl
    · rfl
  · split
    · rfl
    · rfl
  · split
    · split
      · rw [withManifest_store]
      · rfl
    · rfl
  · rfl
  · rw [prepareChunk_store]
  · rfl
  · next bytes _ =>
    have grown := (persistPrepared_run codec sys.task bytes sys.store).owned
    split
    · next t run =>
      rw [run] at grown
      exact grown
    · next error t run =>
      rw [run] at grown
      exact grown
  · split
    · rw [endTransfer_store]
    · rfl
  · split
    · rfl
    · rfl
    · rfl
  · split
    · rfl
    · rfl
    · rfl
  · split
    · rfl
    · rfl
  · next here =>
    rw [here] at unfinished
    cases unfinished
  · next here =>
    rw [here] at unfinished
    cases unfinished

theorem stepChunk_owned (repair : sys.task.repairChunks = true) (hash : String)
    (reply : Except String Bytes) :
    (sys.stepChunk codec hash reply).store.ownedManifests = sys.store.ownedManifests := by
  unfold System.stepChunk
  split
  · split
    · rfl
    · next job _ =>
      rw [repair, Bool.not_true]
      split
      · next stage t step =>
        obtain ⟨rfl, _⟩ := recoverChunk_goes step
        rfl
      · next outcome t step =>
        rcases recoverChunk_ends step with ⟨rfl, _⟩ | ⟨source, bytes, _, rfl, _⟩
        · rfl
        · exact (installChunk_grows codec job.chunk bytes sys.store).owned
  · rfl

theorem torn_owned (unfinished : finishing sys.phase = false) (hash : String) (writes : Nat) :
    ((sys.torn codec hash writes).run sys.store).2.ownedManifests = sys.store.ownedManifests := by
  unfold System.torn
  split
  · next bytes _ =>
    split
    · rfl
    · next writes => exact (persistTorn_grows codec .manifest sys.task.hash bytes writes _).owned
  · split
    · next chunk source bytes _ =>
      exact (persistTorn_grows codec .chunk chunk.hash bytes writes sys.store).owned
    · rfl
  · next here =>
    rw [here] at unfinished
    cases unfinished
  · next here =>
    rw [here] at unfinished
    cases unfinished
  · rfl

theorem exec_owned (repair : sys.task.repairChunks = true)
    (unfinished : finishing sys.phase = false) (event : Event) :
    ∀ hash ∈ (exec codec decodeBundle event sys).store.ownedManifests.items,
      hash ∈ sys.store.ownedManifests.items := by
  intro hash own
  cases event with
  | take chunks =>
    unfold exec at own
    dsimp only at own
    split at own
    · exact own
    · exact own
  | proceed nodes reply => rwa [exec, proceed_owned unfinished nodes reply] at own
  | chunk name reply => rwa [exec, stepChunk_owned repair name reply] at own
  | cancel name writes =>
    change hash ∈ ((sys.torn codec name writes).run sys.store).2.ownedManifests.items at own
    rwa [torn_owned unfinished name writes] at own
  | postpone =>
    unfold exec at own
    dsimp only at own
    split at own
    · exact own
    · exact own
  | cleanup r dry_run => exact (cleanup_shrinks codec r dry_run sys.store).owned hash own

def Replica (codec : Codec) (st : ContentStore) (hash : String) (manifest : ObjectManifest) : Prop :=
  ∃ bytes, Stored st .manifest hash bytes ∧ hashHex codec bytes = hash ∧
    codec.decodeManifest bytes = some manifest ∧ ∀ chunk ∈ manifest.chunks, Intact codec st chunk

theorem Complete.replica {st : ContentStore} (complete : Complete codec seen st task)
    {manifest : ObjectManifest} {bytes : Bytes}
    (stored : Stored st .manifest task.hash bytes)
    (valid : validateManifest codec task.hash bytes = .ok manifest)
    (same : manifest.chunks = task.chunks) : Replica codec st task.hash manifest := by
  refine ⟨bytes, stored, (validateManifest_ok valid).1, (validateManifest_ok valid).2.1, ?_⟩
  rw [same]
  exact complete.2

/-- What holds in every state of a run: the manifest of the task comes to be owned only in the
    last steps of a pass; before and after each of them it is a complete replica of the chunks
    that the pass has pinned; and from the pinning on no sweep touches one of these. -/
structure RepairSafe (codec : Codec) (decodeBundle : Bytes → Option ReplicationExportBundle)
    (sys : System) : Prop where
  marked : ∀ event, sys.task.hash ∉ sys.store.ownedManifests.items →
    sys.task.hash ∈ (exec codec decodeBundle event sys).store.ownedManifests.items →
      finishing sys.phase = true
  complete : finishing sys.phase = true → ∃ manifest, manifest.chunks = sys.task.chunks ∧
    Replica codec sys.store.content sys.task.hash manifest ∧ ∀ event,
      Replica codec (exec codec decodeBundle event sys).store.content sys.task.hash manifest
  kept : pinning sys.phase = true → ∀ retention_secs dry_run, ∀ chunk ∈ sys.task.chunks,
    Untouched .chunk chunk.hash sys.store.content
      (exec codec decodeBundle (.cleanup retention_secs dry_run) sys).store.content

theorem Invariant.safe (free : CollisionFree codec seen) (holds : Invariant codec seen sys) :
    RepairSafe codec decodeBundle sys where
  marked := by
    intro event before after
    by_contra unfinished
    exact before (exec_owned holds.repair (Bool.not_eq_true _ ▸ unfinished) event _ after)
  complete := by
    intro ends
    obtain ⟨pinned, complete⟩ := complete_of_finishing holds ends
    obtain ⟨bytes, stored, known, manifest, valid, same⟩ := complete.1
    refine ⟨manifest, same, complete.replica stored valid same, fun event => ?_⟩
    have later := @exec_complete _ _ _ decodeBundle holds ends event
    obtain ⟨other, other_stored, other_known, other_manifest, other_valid, other_same⟩ := later.1
    have named := (validateManifest_ok other_valid).1.trans (validateManifest_ok valid).1.symm
    have equal := free other other_known bytes known named
    subst equal
    exact later.replica other_stored valid same
  kept := by
    intro pins retention_secs dry_run chunk listed
    have pinned := pinned_of_pinning holds pins
    obtain ⟨bytes, lists⟩ := pinned.listed
    exact (cleanup_pinned codec retention_secs dry_run pinned.row).2 chunk listed
      (lists.hex chunk listed)

/-- Whatever the peers answer, wherever passes are dropped and whenever sweeps run: a repair
    that finishes has made a complete replica, unless two of the payloads that occur collide. -/
theorem finished_repair_complete (codec : Codec)
    (decodeBundle : Bytes → Option ReplicationExportBundle) (store : Store) (task : RepairTask)
    (events : List Event) (repair : task.repairChunks = true)
    (free : CollisionFree codec (occurring decodeBundle store events)) :
    RepairSafe codec decodeBundle
      (runAll (exec codec decodeBundle) ⟨store, task, .idle⟩ events) := by
  have start : Invariant codec (occurring decodeBundle store events) ⟨store, task, .idle⟩ := by
    refine ⟨repair, fun file entry found => ?_, trivial⟩
    refine List.mem_append_left _ (List.mem_map.mpr ⟨entry, ?_, rfl⟩)
    exact (mem_values _ _).mpr ⟨file, found⟩
  have brought : ∀ event ∈ events, ∀ bytes ∈ payloads decodeBundle event,
      bytes ∈ occurring decodeBundle store events := by
    intro event listed bytes brings
    exact List.mem_append_right _ (List.mem_flatMap.mpr ⟨event, listed, brings⟩)
  have holds := run_invariant (Invariant codec (occurring decodeBundle store events))
    (fun sys event known before => exec_invariant free event known before) events _
    (allSteps_of_mem events _ brought) start
  exact holds.safe free

end Runs

section Example
open BerryKeepStoreCalls BerryKeepUploadSessions

def damagedNode : Store :=
  { emptyNode with content := { emptyNode.content with
      disk := Table.empty.put (chunkFile "legacy-primary" abcHash) ⟨[0, 0, 0], 0⟩ } }

def abcTask : RepairTask := ⟨⟨some "a", abcManifestHash⟩, true, [], none⟩

def silence : Except String Bytes := .error "content source timed out"

/-- The manifest comes from a peer, the chunk passes for its size, and a sweep of everything
    that is not pinned runs before the chunk is read and replaced. -/
def abcRepair : List Event :=
  [.take [], .proceed ["node-2"] silence,
    .proceed [] (.ok (textBytes (prettyManifest abcManifest))), .proceed [] silence,
    .proceed [] silence, .proceed ["node-2"] silence, .chunk abcHash silence,
    .proceed [] silence, .proceed [] silence, .cleanup 0 false, .proceed [] silence,
    .proceed ["node-2"] silence, .chunk abcHash silence, .chunk abcHash (.ok [97, 98, 99]),
    .chunk abcHash silence, .proceed [] silence]

def abcRepaired : System :=
  runAll (exec abcUploadCodec fun _ => none) ⟨damagedNode, abcTask, .idle⟩ abcRepair

theorem abcRepair_run :
    finishing abcRepaired.phase = true ∧ abcManifestHash ∉ abcRepaired.store.ownedManifests.items ∧
      abcManifestHash ∈ (exec abcUploadCodec (fun _ => none) (.proceed [] silence)
        abcRepaired).store.ownedManifests.items := by
  decide +kernel

theorem abcRepair_free :
    CollisionFree abcUploadCodec (occurring (fun _ => none) damagedNode abcRepair) := by
  have distinct : ((occurring (fun _ => none) damagedNode abcRepair).map
      (hashHex abcUploadCodec)).Nodup := by
    decide +kernel
  intro x first y second same
  exact List.inj_on_of_nodup_map distinct first second same

theorem damaged_chunk_repaired :
    RepairSafe abcUploadCodec (fun _ => none) abcRepaired ∧ finishing abcRepaired.phase = true ∧
      abcManifestHash ∈ (exec abcUploadCodec (fun _ => none) (.proceed [] silence)
        abcRepaired).store.ownedManifests.items :=
  ⟨finished_repair_complete abcUploadCodec (fun _ => none) damagedNode abcTask abcRepair rfl
    abcRepair_free, abcRepair_run.1, abcRepair_run.2.2⟩

end Example

end BerryKeepRepairSafety
