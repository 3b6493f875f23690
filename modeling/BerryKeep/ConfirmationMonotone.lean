import BerryKeep.StoreCalls

/-!
Confirmation under the exchange of versions. A put and a metadata import only
add versions and a commit only confirms, but a replication import replaces a
stored record by the one in its bundle, state included. A metadata import on the
other hand never touches a stored record, so a commit does not travel with it.
-/
namespace BerryKeepConfirmationMonotone
open FiniteTable TextOperations StatefulProgram BerryKeepContentCodec BerryKeepCatalog
  BerryKeepVersionGraph BerryKeepCurrentNamespace BerryKeepNodeStore BerryKeepLineageResolution
  BerryKeepStoreOperations BerryKeepPathMutations BerryKeepBundleExchange BerryKeepStoreCalls

def KeepsConfirmed (c : Catalog) (object_id : String) (index : FileVersionIndex) : Prop :=
  ∀ id old new, recordAt c object_id id = some old → old.state = .confirmed →
    index.versions.get id = some new → new.state = .confirmed

def ConfirmedKept (c d : Catalog) : Prop :=
  ∀ id index, d.indexes.rows.get id = some index → KeepsConfirmed c id index

section Steps
variable {c d : Catalog} {s t : Store} {key object_id : String} {index : FileVersionIndex}

theorem keepsConfirmed_of_stored
    (all : ∀ id new, index.versions.get id = some new → recordAt c object_id id = some new) :
    KeepsConfirmed c object_id index := by
  intro id old new before confirmed after
  rw [all id new after] at before
  cases before
  exact confirmed

theorem confirmedKept_refl (c : Catalog) : ConfirmedKept c c := by
  intro id index stored
  apply keepsConfirmed_of_stored
  intro version_id new found
  rw [recordAt_of_row stored]
  exact found

theorem rows_confirmedKept (same : d.indexes.rows = c.indexes.rows) : ConfirmedKept c d := by
  intro id index stored
  rw [same] at stored
  exact confirmedKept_refl c id index stored

theorem rebound_confirmedKept {persist : Bool} (result : Rebound c d key object_id index persist)
    (new : persist = true → KeepsConfirmed c object_id index) : ConfirmedKept c d := by
  intro id found stored
  rcases result.row id with same | ⟨wanted, rfl, written⟩
  · rw [same] at stored
    exact confirmedKept_refl c id found stored
  · rw [written] at stored
    cases stored
    exact new wanted

theorem confirmed_writeInvariant (c : Catalog) :
    WriteInvariant (ConfirmedKept c) (KeepsConfirmed c) := by
  apply rowsInvariant
  · intro a b same kept id index stored
    rw [same] at stored
    exact kept id index stored
  · intro a b object_id index new written kept id found stored
    rw [written, get_put] at stored
    split at stored
    · next here =>
      cases stored
      rw [here]
      exact new
    · exact kept id found stored

theorem delete_confirmedKept (c : Catalog) (object_id : String) :
    Preserves (ConfirmedKept c) (deleteVersionIndexByObjectId object_id) := by
  intro a kept id found stored
  change (a.indexes.rows.del object_id).get id = some found at stored
  exact kept id found (get_del_some stored).2

theorem written_confirmedKept {manifest_hash version_id : String} {create : Bool}
    (written : Written s t key object_id manifest_hash version_id create) :
    ConfirmedKept s.catalog t.catalog := by
  cases written with
  | again _ _ _ _ tail =>
    exact rebound_confirmedKept tail.rebound fun wanted => by cases wanted
  | added _ _ record new tail =>
    apply rebound_confirmedKept tail.rebound
    intro _ id old found before confirmed after
    change ((s.catalog.indexOrEmpty object_id).insertRecord record).versions.get id = _ at after
    rw [recordAt_eq] at before
    rw [insertRecord_get] at after
    split at after
    · next same =>
      rw [same, new.id, new.unstored] at before
      cases before
    · rw [after] at before
      cases before
      exact confirmed

theorem confirmed_confirmedKept {version_id : String} (done : Confirmed s t key version_id) :
    ConfirmedKept s.catalog t.catalog := by
  obtain ⟨_, _, object_id, index, version, _, loaded, stored, _, tail⟩ := done
  apply rebound_confirmedKept tail.rebound
  intro _ id old found before confirmed after
  change (index.insertRecord { version with state := .confirmed }).versions.get id = _ at after
  rw [recordAt_of_row loaded] at before
  rw [insertRecord_get] at after
  split at after
  · cases after
    rfl
  · rw [after] at before
    cases before
    exact confirmed

end Steps

section Imports
variable {s t : Store} {bundle : ReplicationExportBundle}

theorem merge_stored {key object_id : String} {versions : List MetadataVersionRecord} :
    ∀ {start merged : FileVersionIndex} {before after : Bool},
      versions.foldlM (mergeMetadataVersion key object_id) (start, before) = .ok (merged, after) →
      ∀ id record, start.versions.get id = some record → merged.versions.get id = some record := by
  induction versions with
  | nil =>
    intro start merged before after merge id record stored
    cases merge
    exact stored
  | cons version versions ih =>
    intro start merged before after merge id record stored
    rw [List.foldlM_cons] at merge
    unfold mergeMetadataVersion at merge
    dsimp only at merge
    cases found : start.versions.get version.versionId with
    | none =>
      rw [found] at merge
      apply ih merge
      rw [insertRecord_get, if_neg]
      · exact stored
      · intro same
        change id = version.versionId at same
        rw [same, found] at stored
        cases stored
    | some existing =>
      rw [found] at merge
      dsimp only at merge
      split at merge
      · exact ih merge id record stored
      · cases merge

theorem importMetadata_confirmedKept (codec : Codec) (s : Store) (bundle : MetadataExportBundle) :
    ConfirmedKept s.catalog ((importMetadataBundle codec bundle).run s).2.catalog := by
  rcases importMetadata_imported codec s bundle with same | imported
  · rw [same.catalog]
    exact confirmedKept_refl _
  · cases imported with
    | versions r _ merged changed merge catalog =>
      rw [catalog]
      apply publishMetadata_preserves (confirmed_writeInvariant s.catalog) r _ _ _ changed ?_ _
        (confirmedKept_refl _)
      intro wanted id old new before confirmed after
      rw [if_pos wanted] at after
      rw [recordAt_eq] at before
      have kept := merge_stored merge id old before
      change merged.versions.get id = some new at after
      rw [kept] at after
      cases after
      exact confirmed
    | binding r _ _ _ _ catalog =>
      rw [catalog]
      exact rows_confirmedKept (bindManifest_bound r s.catalog _ _).1

def ReplicaNotStale (s : Store) (bundle : ReplicationExportBundle) : Prop :=
  bundle.state = .provisional →
    ∀ version_id, replicationVersionId bundle (s.world.nanos 0) = .ok version_id →
      ∀ index ∈ s.catalog.loadAllVersionIndexes, ∀ record ∈ index.versions.get version_id,
        record.state = .provisional

theorem pruned_keepsConfirmed {c : Catalog} {index : FileVersionIndex}
    (loaded : index ∈ c.loadAllVersionIndexes) (version_id : String) :
    KeepsConfirmed c index.objectId (index.removeVersion version_id).recomputed := by
  have stored := (mem_loadAllVersionIndexes c index).mp loaded
  apply keepsConfirmed_of_stored
  intro id record found
  change (index.versions.del version_id).get id = some record at found
  rw [get_del] at found
  rw [recordAt_of_row stored]
  split at found
  · cases found
  · exact found

theorem withReplica_keepsConfirmed {c : Catalog} {record : FileVersionRecord}
    (fresh : ∀ old, recordAt c record.objectId record.versionId = some old →
      old.state = .confirmed → record.state = .confirmed) :
    KeepsConfirmed c record.objectId (withReplica (c.indexOrEmpty record.objectId) record) := by
  intro id old new before confirmed after
  rw [recordAt_eq] at before
  unfold withReplica at after
  split at after
  · rw [after] at before
    cases before
    exact confirmed
  · change ((c.indexOrEmpty record.objectId).insertRecord record).versions.get id = _ at after
    rw [insertRecord_get] at after
    split at after
    · next same =>
      cases after
      apply fresh old _ confirmed
      rw [recordAt_eq, ← same]
      exact before
    · rw [after] at before
      cases before
      exact confirmed

theorem importReplication_confirmedKept (codec : Codec) (fresh : ReplicaNotStale s bundle) :
    ConfirmedKept s.catalog ((importReplicationBundle codec bundle).run s).2.catalog := by
  rcases importReplication_imported codec s bundle with
    ⟨same, _⟩ | ⟨r, _, version_id, named, _, _, lineage, _, catalog, _⟩
  · rw [same.catalog]
    exact confirmedKept_refl _
  · rw [catalog]
    apply publishReplica_preserves (confirmed_writeInvariant s.catalog)
      (delete_confirmedKept s.catalog) r _ bundle (fun stored member => pruned_keepsConfirmed member _) _ (confirmedKept_refl _)
    intro _
    apply withReplica_keepsConfirmed
    intro old stored confirmed
    change bundle.state = .confirmed
    cases stale : bundle.state with
    | confirmed => rfl
    | provisional =>
      obtain ⟨index, loaded, found⟩ := Option.bind_eq_some_iff.mp stored
      have member := (mem_loadAllVersionIndexes s.catalog index).mpr
        ((s.catalog.indexes.objectId_eq loaded).symm ▸ loaded)
      have provisional := fresh stale version_id named index member old found
      rw [confirmed] at provisional
      cases provisional

end Imports

section Monotone

def ExchangeAllowed (s : Store) : Call → Prop
  | .put _ _ _ => True
  | .commit _ _ => True
  | .importMetadata _ => True
  | .importReplication bundle => ReplicaNotStale s bundle
  | _ => False

theorem call_confirmedKept (codec : Codec) (s : Store) (call : Call)
    (allowed : ExchangeAllowed s call) :
    ConfirmedKept s.catalog ((call.program codec).run s).2.catalog := by
  cases call with
  | put key payload options =>
    rw [Call.program, ignoreResult_end]
    rcases put_written codec s key payload options with same | ⟨_, _, written⟩
    · rw [same.catalog]
      exact confirmedKept_refl _
    · exact written_confirmedKept written
  | commit key version_id =>
    rw [Call.program, ignoreResult_end]
    rcases commit_confirmed s key version_id with same | confirmed
    · rw [same.catalog]
      exact confirmedKept_refl _
    · exact confirmed_confirmedKept confirmed
  | importMetadata bundle =>
    rw [Call.program, ignoreResult_end]
    exact importMetadata_confirmedKept codec s bundle
  | importReplication bundle =>
    rw [Call.program, ignoreResult_end]
    exact importReplication_confirmedKept codec allowed
  | _ => exact allowed.elim

/-- In every run of imports, puts and commits that keeps a version stored, and in which no
    provisional replica of a confirmed version arrives, a confirmed version stays confirmed. -/
theorem confirmed_in_every_run (codec : Codec) (s : Store) (steps : List Step)
    (object_id version_id : String) (record : FileVersionRecord)
    (stored : recordAt s.catalog object_id version_id = some record)
    (confirmed : record.state = .confirmed)
    (allowed : AllSteps (exec codec) (fun t step => ExchangeAllowed (step.start t) step.call ∧
      ((recordAt t.catalog object_id version_id).isSome = true →
        (recordAt (exec codec step t).catalog object_id version_id).isSome = true)) s steps) :
    ∃ last, recordAt (runAll (exec codec) s steps).catalog object_id version_id = some last ∧
      last.state = .confirmed := by
  apply run_invariant (fun t => ∃ found, recordAt t.catalog object_id version_id = some found ∧
    found.state = .confirmed) _ steps s allowed ⟨record, stored, confirmed⟩
  intro t step met before
  obtain ⟨old, stored, confirmed⟩ := before
  have still := met.2 (by rw [stored]; rfl)
  obtain ⟨new, after⟩ := Option.isSome_iff_exists.mp still
  obtain ⟨index, loaded, found⟩ := Option.bind_eq_some_iff.mp after
  have kept := call_confirmedKept codec (step.start t) step.call met.1
  exact ⟨new, after, kept object_id index loaded version_id old new stored confirmed found⟩

def committedNode : Store :=
  runAll (exec emptyManifestsCodec) emptyNode
    [receive 10 100 (replicaOf "obj-1" "v1" [] .provisional true), stepAt 11 200 "c" (.commit "a" "v1")]

/-- The bundle that brought the version arrives once more after the commit. -/
theorem older_replica_revokes_confirmation :
    let again := exec emptyManifestsCodec (receive 12 300 (replicaOf "obj-1" "v1" [] .provisional true))
      committedNode
    (recordAt committedNode.catalog "obj-1" "v1").map (fun record => record.state) =
        some .confirmed ∧
      (recordAt again.catalog "obj-1" "v1").map (fun record => record.state) =
        some .provisional := by
  decide +kernel

theorem committedNode_shown :
    ((recordAt committedNode.catalog "obj-1" "v1").map (fun record => record.state) =
        some .confirmed ∧
      ∀ index ∈ committedNode.catalog.loadAllVersionIndexes,
        ∀ record ∈ index.versions.get "v2", record.state = .provisional) ∧
      (recordAt (exec emptyManifestsCodec (receive 12 300 (replicaOf "obj-1" "v2" [] .provisional false))
        committedNode).catalog "obj-1" "v1").isSome = true := by
  decide +kernel

theorem confirmed_after_other_replica :
    ∃ last, recordAt (runAll (exec emptyManifestsCodec) committedNode
      [receive 12 300 (replicaOf "obj-1" "v2" [] .provisional false)]).catalog "obj-1" "v1" = some last ∧
        last.state = .confirmed := by
  obtain ⟨⟨state, unconfirmed⟩, still⟩ := committedNode_shown
  obtain ⟨record, stored, confirmed⟩ := Option.map_eq_some_iff.mp state
  apply confirmed_in_every_run emptyManifestsCodec committedNode _ "obj-1" "v1" record stored
    confirmed
  refine ⟨⟨?_, fun _ => still⟩, trivial⟩
  intro _ version_id named
  rw [← Except.ok.inj named, start_catalog]
  exact unconfirmed

end Monotone

section Propagation
variable {s : Store} {object_id version_id : String} {old : FileVersionRecord}

theorem merge_agrees {key : String} {versions : List MetadataVersionRecord} :
    ∀ {start merged : FileVersionIndex} {before after : Bool},
      versions.foldlM (mergeMetadataVersion key object_id) (start, before) = .ok (merged, after) →
      start.versions.get version_id = some old →
      ∀ version ∈ versions, version.versionId = version_id → metadataVersion old = version := by
  induction versions with
  | nil =>
    intro start merged before after _ _ version member
    cases member
  | cons head versions ih =>
    intro start merged before after merge stored version member named
    have first : ∃ next, mergeMetadataVersion key object_id (start, before) head = .ok next ∧
        versions.foldlM (mergeMetadataVersion key object_id) next = .ok (merged, after) := by
      rw [List.foldlM_cons] at merge
      cases result : mergeMetadataVersion key object_id (start, before) head with
      | error error => rw [result] at merge; cases merge
      | ok next => rw [result] at merge; exact ⟨next, rfl, merge⟩
    obtain ⟨next, one, rest⟩ := first
    have single : [head].foldlM (mergeMetadataVersion key object_id) (start, before) =
        .ok (next.1, next.2) := by
      rw [List.foldlM_cons, one]
      rfl
    rcases List.mem_cons.mp member with rfl | later
    · unfold mergeMetadataVersion at one
      dsimp only at one
      rw [named, stored] at one
      dsimp only at one
      split at one
      · assumption
      · cases one
    · exact ih rest (merge_stored single version_id old stored) version later named

theorem importMetadata_keeps (codec : Codec) (s : Store) (bundle : MetadataExportBundle)
    (stored : recordAt s.catalog object_id version_id = some old) :
    recordAt ((importMetadataBundle codec bundle).run s).2.catalog object_id version_id =
      some old := by
  rcases importMetadata_imported codec s bundle with same | imported
  · rw [same.catalog]
    exact stored
  · cases imported with
    | versions r _ merged changed merge catalog =>
      have inv : WriteInvariant (fun c => recordAt c object_id version_id = some old)
          fun id index => id = object_id → index.versions.get version_id = some old := by
        apply rowsInvariant
        · intro c d same holds
          unfold recordAt at holds ⊢
          rw [same]
          exact holds
        · intro c d id index new written holds
          unfold recordAt at holds ⊢
          rw [written, get_put]
          split
          · next here => exact new here.symm
          · exact holds
      rw [catalog]
      apply publishMetadata_preserves inv r _ _ _ changed ?_ s.catalog stored
      intro wanted here
      rw [if_pos wanted]
      rw [recordAt_eq, ← here] at stored
      exact merge_stored merge version_id old stored
    | binding r _ _ _ _ catalog =>
      unfold recordAt at stored ⊢
      rw [catalog, (bindManifest_bound r s.catalog _ _).1]
      exact stored

theorem importMetadata_refused (codec : Codec) (s : Store) (bundle : MetadataExportBundle)
    (stored : recordAt s.catalog object_id version_id = some old)
    (named : nonemptyObjectId bundle.objectId = some object_id) {version : MetadataVersionRecord}
    (carried : version ∈ bundle.versions) (same : version.versionId = version_id)
    (differs : metadataVersion old ≠ version) :
    Ensures (importMetadataBundle codec bundle) s fun result _ =>
      ∃ error, result = .error error := by
  rw [recordAt_eq] at stored
  unfold importMetadataBundle
  apply ensures_after (contentOnly_foldEach (importManifest_contentOnly codec) bundle.manifests false)
  · intro _ u kept
    apply ensures_ite
    · intro _
      have stops : Ensures (importMetadataVersions bundle) u fun result _ =>
          ∃ error, result = .error error := by
        unfold importMetadataVersions bundleObjectId
        rw [named]
        apply ensures_bind_ok (a := object_id) rfl
        apply ensures_get
        rw [kept.catalog]
        apply ensures_lift
        · intro error _
          exact ⟨error, rfl⟩
        · intro merged merge
          exact absurd (merge_agrees merge stored version carried same) differs
      apply ensures_bind stops
      · intro changed t stopped
        obtain ⟨error, failed⟩ := stopped
        cases failed
      · intro error t _
        exact ⟨error, rfl⟩
    · intro bare
      rw [not_not.mp bare] at carried
      cases carried
  · intro error u _
    exact ⟨error, rfl⟩

/-- A node holds a version as provisional because it imported what another node exported;
    the other node commits the version and exports it once more. -/
structure CommitScenario (codec : Codec) where
  key : String
  objectId : String
  versionId : String
  readMode : ObjectReadMode
  source : Store
  target : Store
  before : MetadataExportBundle
  changed : Bool
  held : FileVersionRecord
  committing : Store
  after : MetadataExportBundle
  later : World
  exported : exportMetadataBundle codec source key (some versionId) readMode = .ok (some before)
  received : ((importMetadataBundle codec before).run target).1 = .ok changed
  holds : recordAt ((importMetadataBundle codec before).run target).2.catalog objectId versionId =
    some held
  provisional : held.state = .provisional
  committed : ((commitVersion key versionId).run committing).1 = .ok true
  exportedAgain : exportMetadataBundle codec ((commitVersion key versionId).run committing).2 key
    (some versionId) readMode = .ok (some after)

def CommitScenario.holder {codec : Codec} (x : CommitScenario codec) : Store :=
  { ((importMetadataBundle codec x.before).run x.target).2 with world := x.later }

def CommitScenario.arrival {codec : Codec} (x : CommitScenario codec) :
    Except StoreError Bool × Store :=
  (importMetadataBundle codec x.after).run x.holder

/-- The commit never arrives: the version stays provisional, and a bundle that carries it
    as confirmed under the same object is refused. -/
theorem commit_never_arrives {codec : Codec} (x : CommitScenario codec) :
    recordAt x.arrival.2.catalog x.objectId x.versionId = some x.held ∧
      x.held.state = .provisional ∧
      (nonemptyObjectId x.after.objectId = some x.objectId →
        (∃ version ∈ x.after.versions, version.versionId = x.versionId ∧
          version.state = .confirmed) → ∃ error, x.arrival.1 = .error error) := by
  have held : recordAt x.holder.catalog x.objectId x.versionId = some x.held := x.holds
  refine ⟨importMetadata_keeps codec x.holder x.after held, x.provisional, ?_⟩
  rintro named ⟨version, carried, same, confirmed⟩
  have differs : metadataVersion x.held ≠ version := by
    intro equal
    have state : x.held.state = version.state := by rw [← equal]; rfl
    rw [x.provisional, confirmed] at state
    cases state
  exact importMetadata_refused codec x.holder x.after held named carried same differs

def exportOf (state : VersionConsistencyState) : MetadataExportBundle :=
  ⟨"a", some "obj-1", some "8b66d6e5a59ceaa78f396aa95b106a8f88f3f0af23b30cb58ec2d96dfacb449a",
    [⟨"v1", "8b66d6e5a59ceaa78f396aa95b106a8f88f3f0af23b30cb58ec2d96dfacb449a", some "a", [], state,
      7, none, none, none⟩],
    [⟨"8b66d6e5a59ceaa78f396aa95b106a8f88f3f0af23b30cb58ec2d96dfacb449a",
      textBytes (prettyManifest ⟨"a", 0, []⟩)⟩]⟩

def receivingNode : Store :=
  exec emptyManifestsCodec (receive 10 100 (replicaOf "obj-1" "v1" [] .provisional true)) emptyNode

def receivedVersion : FileVersionRecord :=
  ⟨"v1", "obj-1", "8b66d6e5a59ceaa78f396aa95b106a8f88f3f0af23b30cb58ec2d96dfacb449a", some "a", [],
    .provisional, 7, none, none, none⟩

theorem lostCommit_runs :
    exportMetadataBundle emptyManifestsCodec receivingNode "a" (some "v1") .preferred =
        .ok (some (exportOf .provisional)) ∧
      ((importMetadataBundle emptyManifestsCodec (exportOf .provisional)).run emptyNode).1 =
        .ok true ∧
      recordAt ((importMetadataBundle emptyManifestsCodec (exportOf .provisional)).run
        emptyNode).2.catalog "obj-1" "v1" = some receivedVersion ∧
      ((commitVersion "a" "v1").run receivingNode).1 = .ok true ∧
      exportMetadataBundle emptyManifestsCodec ((commitVersion "a" "v1").run receivingNode).2 "a"
        (some "v1") .preferred = .ok (some (exportOf .confirmed)) := by
  decide +kernel

def lostCommit : CommitScenario emptyManifestsCodec where
  key := "a"
  objectId := "obj-1"
  versionId := "v1"
  readMode := .preferred
  source := receivingNode
  target := emptyNode
  before := exportOf .provisional
  changed := true
  held := receivedVersion
  committing := receivingNode
  after := exportOf .confirmed
  later := emptyNode.world
  exported := lostCommit_runs.1
  received := lostCommit_runs.2.1
  holds := lostCommit_runs.2.2.1
  provisional := rfl
  committed := lostCommit_runs.2.2.2.1
  exportedAgain := lostCommit_runs.2.2.2.2

theorem commit_collides_at_peer :
    lostCommit.arrival.1 = .error (metadataCollision "a" "v1") ∧
      (recordAt lostCommit.arrival.2.catalog "obj-1" "v1").map (fun record => record.state) =
        some .provisional := by
  decide +kernel

theorem commit_lost_at_peer :
    recordAt lostCommit.arrival.2.catalog "obj-1" "v1" = some lostCommit.held ∧
      lostCommit.held.state = .provisional ∧ ∃ error, lostCommit.arrival.1 = .error error := by
  obtain ⟨kept, provisional, refused⟩ := commit_never_arrives lostCommit
  exact ⟨kept, provisional, refused (by decide) (by decide +kernel)⟩

end Propagation

end BerryKeepConfirmationMonotone
