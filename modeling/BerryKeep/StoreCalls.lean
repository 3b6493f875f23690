import BerryKeep.BundleExchange

/-!
The calls that a store receives, and runs of them. Every call comes with what
the outside answers while it lasts. Rename and copy are followed by the moves
of their sidecars; a condition on one of them is a condition on each move.
-/
namespace BerryKeepStoreCalls
open FiniteTable StatefulProgram BerryKeepContentCodec BerryKeepStoragePool BerryKeepCatalog
  BerryKeepVersionGraph BerryKeepCurrentNamespace BerryKeepNodeStore BerryKeepStoreOperations
  BerryKeepPathMutations BerryKeepBundleExchange

inductive Call where
  | put (key : String) (payload : Bytes) (options : PutOptions)
  | commit (key version_id : String)
  | tombstone (key : String) (options : PutOptions)
  | rename (from_path to_path : String) (overwrite : Bool)
  | copy (from_path to_path : String) (overwrite : Bool)
  | persistCopied (source_path target_path manifest_hash : String)
      (copied_from_object_id copied_from_version_id : Option String)
      (state : VersionConsistencyState) ( version_prefix : String) (create_snapshot : Bool)
  | restoreVersion (source_path version_id target_path : String) (overwrite : Bool)
  | restoreSnapshot (snapshot_id from_path to_path : String) (isRecursive overwrite : Bool)
  | restoreBatch (requests : List RestoreRequest) (sources : List (Option SnapshotRestoreSource))
  | importMetadata (bundle : MetadataExportBundle)
  | importReplication (bundle : ReplicationExportBundle)
  | drop (key : String) (version_id : Option String)

def ignoreResult {α : Type} (m : StoreM α) : StoreM Unit := do let _ ← m

def Call.program (codec : Codec) : Call → StoreM Unit
  | .put key payload options => ignoreResult (putObjectVersioned codec key payload options)
  | .commit key version_id => ignoreResult (commitVersion key version_id)
  | .tombstone key options => ignoreResult (tombstoneObjectSingle key options)
  | .rename from_path to_path overwrite =>
    ignoreResult (renameObjectPath codec from_path to_path overwrite)
  | .copy from_path to_path overwrite => ignoreResult (copyObjectPath codec from_path to_path overwrite)
  | .persistCopied source_path target_path manifest_hash object_id version_id state version_prefix
      create_snapshot =>
    ignoreResult (persistCopiedVersionToTarget source_path target_path manifest_hash object_id version_id
      state version_prefix create_snapshot)
  | .restoreVersion source_path version_id target_path overwrite =>
    ignoreResult (restoreVersionPath codec source_path version_id target_path overwrite)
  | .restoreSnapshot snapshot_id from_path to_path isRecursive overwrite =>
    ignoreResult (restoreSnapshotPath codec snapshot_id from_path to_path isRecursive overwrite)
  | .restoreBatch requests sources =>
    ignoreResult (restoreResolvedVersionPathsBatch codec requests sources)
  | .importMetadata bundle => ignoreResult (importMetadataBundle codec bundle)
  | .importReplication bundle => ignoreResult (importReplicationBundle codec bundle)
  | .drop key version_id => ignoreResult (dropReplicaSubject key version_id)

structure Step where
  call : Call
  world : World

def Step.start (step : Step) (s : Store) : Store := { s with world := step.world }

@[simp] theorem start_catalog (step : Step) (s : Store) : (step.start s).catalog = s.catalog := rfl

def exec (codec : Codec) (step : Step) (s : Store) : Store :=
  ((step.call.program codec).run (step.start s)).2

section Ends
variable {α : Type} {s : Store}

theorem ignoreResult_end (m : StoreM α) (s : Store) : ((ignoreResult m).run s).2 = (m.run s).2 :=
  ensures_map (Q := fun t => t = (m.run s).2) rfl

theorem withContext_end (message : String) (m : StoreM α) (s : Store) :
    ((withContext message m).run s).2 = (m.run s).2 := by
  unfold withContext
  dsimp only
  rcases m.run s with ⟨result, t⟩
  cases result with
  | ok a => rfl
  | error error => cases error <;> rfl

theorem caught_end (m : StoreM α) (s : Store) : ((caught m).run s).2 = (m.run s).2 := by
  unfold caught
  dsimp only
  rcases m.run s with ⟨result, t⟩
  cases result with
  | ok a => rfl
  | error error => cases error <;> rfl

end Ends

section Sidecars
variable {media : String → String → StoreM (PathMutationResult × SidecarPathMutation)}
  {moving : Store → String → String → Prop} {clearing : Store → String → Prop}

/-- A condition on the move of a path holds for it and for every sidecar that follows. -/
def FollowsSidecars (media : String → String → StoreM (PathMutationResult × SidecarPathMutation))
    (moving : Store → String → String → Prop) (clearing : Store → String → Prop) :
    Nat → Store → String → String → Prop
  | 0, _, _, _ => True
  | fuel + 1, s, from_path, to_path => moving s from_path to_path ∧
    match (media from_path to_path).run s with
    | (.ok (.applied, .ready source target), next) =>
      FollowsSidecars media moving clearing fuel next source target
    | (.ok (.applied, .clearTarget target), next) => clearing next target
    | _ => True

theorem followsSidecars_of_absent {fuel : Nat} {s : Store} {from_path to_path : String}
    {result : PathMutationResult} (first : moving s from_path to_path)
    (alone : ((media from_path to_path).run s).1 = .ok (result, .absent)) :
    FollowsSidecars media moving clearing (fuel + 1) s from_path to_path := by
  refine ⟨first, ?_⟩
  rcases run : (media from_path to_path).run s with ⟨outcome, next⟩
  rw [run] at alone
  subst alone
  cases result <;> trivial

theorem withSidecar_invariant {I : Store → Prop} (verb done gerund : String)
    (move : ∀ s from_path to_path, moving s from_path to_path → I s →
      I ((media from_path to_path).run s).2)
    (clear : ∀ s target, clearing s target → I s →
      I ((tombstoneObjectSingle target PutOptions.default).run s).2) :
    ∀ (fuel : Nat) (s : Store) (from_path to_path : String),
      FollowsSidecars media moving clearing fuel s from_path to_path → I s →
        I ((withSidecar verb done gerund media fuel from_path to_path).run s).2 := by
  intro fuel
  induction fuel with
  | zero => intro s _ _ _ holds; exact holds
  | succ fuel ih =>
    intro s from_path to_path follows holds
    obtain ⟨first, rest⟩ := follows
    have moved := move s from_path to_path first holds
    unfold withSidecar
    rcases run : (media from_path to_path).run s with ⟨result, t⟩
    rw [run] at moved rest
    cases result with
    | error error => rw [bind_run_error run]; exact moved
    | ok both =>
      obtain ⟨result, sidecar⟩ := both
      rw [bind_run_ok run]
      cases result with
      | sourceMissing => exact moved
      | targetExists => exact moved
      | applied =>
        cases sidecar with
        | absent => exact moved
        | targetExists => exact moved
        | clearTarget target =>
          have cleared := clear t target rest moved
          rw [← withContext_end] at cleared
          exact ensures_map cleared
        | ready source target =>
          have followed := ih t source target rest moved
          rcases inner : (withSidecar verb done gerund media fuel source target).run t with ⟨last, u⟩
          rw [inner] at followed
          cases last with
          | error error =>
            exact ensures_of_run (Q := fun _ u => I u) (bind_run_error inner) followed
          | ok last =>
            exact ensures_bind_ok (Q := fun _ u => I u) inner
              (ensures_refuseIf (fun _ => followed) fun _ => followed)

end Sidecars

section Restores
variable {I : Store → Prop} {P : String → Prop}

variable (codec : Codec)

theorem restoreResolved_transferred (s : Store)
    (results : List (Except StoreError PathMutationResult))
    (item : RestoreRequest × Option SnapshotRestoreSource) :
    Ensures (restoreResolved codec results item) s fun _ t =>
      Transferred s t item.1.targetPath false false := by
  obtain ⟨request, source⟩ := item
  have unchanged : Transferred s s request.targetPath false false := .refused (unpublished_refl s)
  unfold restoreResolved
  refine ensures_get (ensures_ite (fun _ => unchanged) fun _ => ?_)
  cases source with
  | none => exact unchanged
  | some source =>
    apply ensures_map
    rw [caught_end]
    exact restoreFromSource_transferred codec s source _ _ false false

theorem restoreBatch_invariant
    (step : ∀ s t target, P target → Transferred s t target false false → I s → I t)
    (items : List (RestoreRequest × Option SnapshotRestoreSource))
    (targets : ∀ item ∈ items, P item.1.targetPath) :
    ∀ (results : List (Except StoreError PathMutationResult)) (s : Store), I s →
      I ((foldEach items results (restoreResolved codec)).run s).2 := by
  induction items with
  | nil => intro results s holds; exact holds
  | cons item items ih =>
    intro results s holds
    have first := step s _ _ (targets item List.mem_cons_self)
      (restoreResolved_transferred codec s results item) holds
    unfold foldEach
    rcases run : (restoreResolved codec results item).run s with ⟨result, t⟩
    rw [run] at first
    cases result with
    | error error => rw [bind_run_error run]; exact first
    | ok results =>
      rw [bind_run_ok run]
      exact ih (fun item member => targets item (List.mem_cons_of_mem _ member)) results t first

theorem restoreEach_invariant (snapshot : SnapshotManifest)
    (from_path to_path : String) (overwrite : Bool)
    (step : ∀ s t target, P target → Transferred s t target false false → I s → I t)
    (sources : List String) (targets : ∀ path ∈ sources, P (targetCandidate from_path to_path path)) :
    ∀ s : Store, I s →
      I ((restoreEach codec snapshot from_path to_path overwrite sources).run s).2 := by
  induction sources with
  | nil => intro s holds; exact holds
  | cons path sources ih =>
    intro s holds
    have first := step s _ _ (targets path List.mem_cons_self)
      (restoreSnapshotInner_transferred codec s snapshot path
        (targetCandidate from_path to_path path) false overwrite) holds
    unfold restoreEach
    rcases run : (restoreSnapshotObjectPathInner codec snapshot path
      (targetCandidate from_path to_path path) false overwrite).run s with ⟨result, t⟩
    rw [run] at first
    cases result with
    | error error => rw [bind_run_error run]; exact first
    | ok result =>
      rw [bind_run_ok run]
      cases result with
      | applied => exact ih (fun path member => targets path (List.mem_cons_of_mem _ member)) t first
      | sourceMissing => exact first
      | targetExists => exact first

end Restores

section Framed
variable {J : Store → Prop} {s t : Store}

/-- The namespace and the stored indexes are the same; snapshots and readings may differ. -/
structure SameCore (s t : Store) : Prop where
  current : t.catalog.current = s.catalog.current
  rows : t.catalog.indexes.rows = s.catalog.indexes.rows
  later : ∃ k, t.world.uuids = fun n => s.world.uuids (n + k)

/-- An invariant of the namespace and the indexes that a copied version keeps. -/
structure FramedInvariant (J : Store → Prop) : Prop where
  framed : ∀ s t, SameCore s t → J s → J t
  copied : ∀ s t target create, Copied s t target create → J s → J t

theorem unpublished_sameCore (same : Unpublished s t) : SameCore s t :=
  ⟨by rw [same.catalog], by rw [same.catalog], same.later⟩

theorem rotatedFor_sameCore (s : Store) (rotate : Bool) (paths : Finset String) :
    SameCore s (rotatedFor s rotate paths) :=
  ⟨opening_current _ _ _, by
    change (s.catalog.opening _ _ _).indexes.rows = _
    rw [opening_indexes], 0, rfl⟩

variable (inv : FramedInvariant J)
include inv

theorem transferred_framed {target : String} {rotate create : Bool}
    (done : Transferred s t target rotate create) (holds : J s) : J t := by
  have opened := inv.framed _ _ (rotatedFor_sameCore s rotate {target}) holds
  cases done with
  | refused same => exact inv.framed _ _ (unpublished_sameCore same) holds
  | stopped same => exact inv.framed _ _ (unpublished_sameCore same) opened
  | copied done => exact inv.copied _ _ _ _ done opened

theorem recordChangedPaths_framed (paths : Finset String) (before : Bindings) (holds : J s) :
    J ((recordChangedPaths paths before).run s).2 := by
  obtain ⟨r, ⟨k, _, _, _, later⟩, ended⟩ := recordChangedPaths_recorded s paths before
  apply inv.framed s _ ⟨?_, ?_, k, later⟩ holds
  · rw [ended, recordedIf_current]
  · rw [ended, recordedIf_indexes]

theorem persistCopied_framed (source_path target_path manifest_hash : String)
    (copied_from_object_id copied_from_version_id : Option String)
    (state : VersionConsistencyState) ( version_prefix : String) (create : Bool) (holds : J s) :
    J ((persistCopiedVersionToTarget source_path target_path manifest_hash copied_from_object_id
      copied_from_version_id state version_prefix create).run s).2 := by
  rcases persistCopied_copied s source_path target_path manifest_hash copied_from_object_id
    copied_from_version_id state version_prefix create with same | copied
  · exact inv.framed _ _ (unpublished_sameCore same) holds
  · exact inv.copied _ _ _ _ copied holds

variable (codec : Codec)

theorem restoreBatch_framed (requests : List RestoreRequest)
    (sources : List (Option SnapshotRestoreSource)) (holds : J s) :
    Ensures (restoreResolvedVersionPathsBatch codec requests sources) s fun _ t => J t := by
  have step : ∀ a b target, True → Transferred a b target false false → J a → J b :=
    fun _ _ _ _ done start => transferred_framed inv done start
  unfold restoreResolvedVersionPathsBatch
  refine ensures_refuseIf (fun _ => holds) fun _ => ensures_get ?_
  refine ensures_bind_ok (a := s.world.seconds 0) rfl (ensures_bind_ok (a := ()) rfl ?_)
  apply ensures_bind (P := fun _ t => J t)
  · exact restoreBatch_invariant codec step _ (fun _ _ => trivial) [] _
      (inv.framed s _ ⟨rfl, rfl, 0, rfl⟩ holds)
  · intro results t kept
    exact ensures_map (recordChangedPaths_framed inv _ _ kept)
  · intro error t kept
    exact kept

theorem restoreSnapshotTree_framed (snapshot : SnapshotManifest)
    (snapshot_id from_path to_path : String) (overwrite : Bool) (holds : J s) :
    Ensures (restoreSnapshotTree codec snapshot snapshot_id from_path to_path overwrite) s
      fun _ t => J t := by
  have step : ∀ a b target, True → Transferred a b target false false → J a → J b :=
    fun _ _ _ _ done start => transferred_framed inv done start
  unfold restoreSnapshotTree
  refine ensures_get (ensures_ite (fun _ => holds) fun _ => ?_)
  split
  · exact holds
  · refine ensures_bind_ok (a := s.world.seconds 0) rfl (ensures_bind_ok (a := ()) rfl ?_)
    apply ensures_bind (P := fun _ t => J t)
    · exact restoreEach_invariant codec snapshot from_path to_path overwrite step _
        (fun _ _ => trivial) _ (inv.framed s _ ⟨rfl, rfl, 0, rfl⟩ holds)
    · intro stopped t kept
      cases stopped with
      | some result => exact kept
      | none => exact ensures_map (recordChangedPaths_framed inv _ _ kept)
    · intro error t kept
      exact kept

theorem restoreSnapshot_framed (snapshot_id from_path to_path : String)
    (isRecursive overwrite : Bool) (holds : J s) :
    Ensures (restoreSnapshotPath codec snapshot_id from_path to_path isRecursive overwrite) s
      fun _ t => J t := by
  unfold restoreSnapshotPath
  apply ensures_get
  cases loadSnapshotManifest s.catalog snapshot_id with
  | none => exact holds
  | some snapshot =>
    refine ensures_ite (fun _ => restoreSnapshotTree_framed inv codec snapshot _ _ _ _ holds)
      fun _ => ?_
    apply ensures_bind (P := fun _ t => J t)
      (transferred_framed inv (restoreSnapshotInner_transferred codec s snapshot from_path to_path
        true overwrite) holds)
    · intro result t kept
      cases result <;> exact kept
    · intro error t kept
      exact kept

end Framed

section Imports
variable {I : Catalog → Prop} {P : String → FileVersionIndex → Prop} {α : Type}

/-- An invariant that every single catalog write of a metadata import keeps, provided the
    indexes it stores satisfy `P` for their objects. -/
structure WriteInvariant (I : Catalog → Prop) (P : String → FileVersionIndex → Prop) : Prop where
  framed : ∀ c d : Catalog, d.current = c.current → d.indexes.rows = c.indexes.rows → I c → I d
  persist : ∀ object_id index, P object_id index →
    Preserves I (persistVersionIndexByObjectId object_id index)
  sync : ∀ key index, Preserves I (syncCurrentState key index)
  promote : ∀ key index, Preserves I (promoteCurrentState key index)
  unbind : ∀ object_id preserved, Preserves I (removeBindingsExcept object_id preserved)
  remove : ∀ key, Preserves I (removeCurrentObject key)

/-- An invariant of the stored indexes alone only has to be kept by writing one of them. -/
theorem rowsInvariant (rows : ∀ c d : Catalog, d.indexes.rows = c.indexes.rows → I c → I d)
    (written : ∀ (c d : Catalog) object_id index, P object_id index →
      d.indexes.rows = c.indexes.rows.put object_id index → I c → I d) : WriteInvariant I P where
  framed := fun c d _ same holds => rows c d same holds
  persist := by
    intro object_id index new c holds
    rcases persist_run c object_id index with ⟨error, _, run⟩ | ⟨valid, run⟩
    · rw [run]
      exact holds
    · rw [run]
      exact written c _ object_id index new rfl holds
  sync := fun _ _ c holds => rows c _ (rebind_keepsRows _ c) holds
  promote := fun _ _ c holds => rows c _ (rebind_keepsRows _ c) holds
  unbind := fun _ _ c holds => rows c _ (rebind_keepsRows _ c) holds
  remove := fun _ c holds => rows c _ rfl holds

variable (inv : WriteInvariant I P)
include inv

theorem preserves_framed {m : CatalogM α} (current : KeepsCurrent m) (rows : KeepsRows m) :
    Preserves I m := fun c holds => inv.framed c _ (current c) (rows c) holds

theorem rotate_preserves (paths : Finset String) (now : Nat) :
    Preserves I (maybeRotateSnapshotBatch paths now) :=
  preserves_framed inv (rotate_keepsCurrent paths now) (rotate_keepsRows paths now)

theorem record_preserves (paths : Finset String) (now : Nat) (uuid : String) :
    Preserves I (persistCurrentStateWithSnapshotBatch paths true now uuid) :=
  preserves_framed inv (record_keepsCurrent paths true now uuid)
    (record_keepsRows paths true now uuid)

theorem publishMetadata_preserves (r : Readings) (key object_id : String)
    (index : FileVersionIndex) (changed : Bool) (new : changed = true → P object_id index) :
    Preserves I (publishMetadata r key object_id index changed) := by
  unfold publishMetadata
  refine preserves_bind (preserves_onlyIf fun wanted => inv.persist _ _ (new wanted)) fun _ => ?_
  refine preserves_bind preserves_get fun before => ?_
  refine preserves_bind (rotate_preserves inv _ _) fun _ => ?_
  refine preserves_bind (inv.sync _ _) fun synced => ?_
  refine preserves_bind (inv.unbind _ _) fun removed => ?_
  refine preserves_bind preserves_get fun after => ?_
  apply preserves_ite
  · intro _
    exact preserves_bind (record_preserves inv _ _ _) fun _ => preserves_pure _
  · intro _
    exact preserves_pure _

variable (delete : ∀ object_id, Preserves I (deleteVersionIndexByObjectId object_id))
include delete

theorem pruneIndex_preserves (key : String) (keep : FileVersionRecord) (index : FileVersionIndex)
    (pruned : P index.objectId (index.removeVersion keep.versionId).recomputed)
    (paths : Finset String) : Preserves I (pruneIndex key keep paths index) := by
  unfold pruneIndex
  cases index.versions.get keep.versionId with
  | none => exact preserves_pure _
  | some existing =>
    refine preserves_ite (fun _ => preserves_pure _) fun _ => ?_
    refine preserves_ite (fun _ => preserves_pure _) fun _ => ?_
    dsimp only
    apply preserves_ite
    · intro _
      refine preserves_bind (delete _) fun _ => ?_
      exact preserves_bind (inv.unbind _ _) fun _ => preserves_pure _
    · intro _
      refine preserves_bind (inv.persist _ _ pruned) fun _ => ?_
      exact preserves_bind (inv.sync _ _) fun _ => preserves_pure _

omit delete in
theorem selectReplica_preserves (key : String) (bundle : ReplicationExportBundle)
    (index : FileVersionIndex) : Preserves I (selectReplica key bundle index) := by
  unfold selectReplica
  refine preserves_ite (fun _ => preserves_pure _) fun _ => ?_
  apply preserves_ite
  · intro _
    refine preserves_bind ?_ fun _ => preserves_pure _
    unfold applySelectedReplicaTombstoneCurrentState
    refine preserves_bind preserves_get fun c => ?_
    cases objectIdForKey c.current key with
    | none => exact preserves_pure _
    | some current_object_id => exact preserves_onlyIf fun _ => inv.remove _
  · intro _
    exact inv.promote _ _

theorem publishReplica_preserves {c : Catalog} (r : Readings) (key : String)
    (bundle : ReplicationExportBundle) {index : FileVersionIndex} {record : FileVersionRecord}
    (pruned : ∀ stored ∈ c.loadAllVersionIndexes,
      P stored.objectId (stored.removeVersion record.versionId).recomputed)
    (replaced : index.versions.get record.versionId ≠ some record →
      P record.objectId (withReplica index record)) (holds : I c) :
    I ((publishReplica r key bundle index record).run c).2 := by
  have pruning : Preserves I (foldEach c.loadAllVersionIndexes ∅ (pruneIndex key record)) :=
    preserves_foldEach
      (fun stored member => pruneIndex_preserves inv delete key record stored (pruned stored member)) ∅
  have rest : ∀ paths, Preserves I (storeReplica r key bundle index record paths) := by
    intro paths
    refine preserves_bind preserves_get fun before => ?_
    refine preserves_bind (rotate_preserves inv _ _) fun _ => ?_
    refine preserves_bind (preserves_onlyIf fun wanted =>
      inv.persist _ _ (replaced (of_decide_eq_true wanted))) fun _ => ?_
    refine preserves_bind (inv.sync _ _) fun synced => ?_
    refine preserves_bind (selectReplica_preserves inv _ _ _) fun selected => ?_
    refine preserves_bind preserves_get fun after => ?_
    exact preserves_bind (record_preserves inv _ _ _) fun _ => preserves_pure _
  exact preserves_bind pruning rest c holds

theorem importReplication_preserves
    (recomputed : ∀ object_id (index : FileVersionIndex), P object_id index.recomputed)
    (codec : Codec) (s : Store) (bundle : ReplicationExportBundle) (holds : I s.catalog) :
    I ((importReplicationBundle codec bundle).run s).2.catalog := by
  rcases importReplication_imported codec s bundle with
    ⟨same, _⟩ | ⟨r, _, version_id, _, _, _, lineage, _, catalog, _⟩
  · rw [same.catalog]
    exact holds
  · rw [catalog]
    apply publishReplica_preserves inv delete r _ bundle (fun _ _ => recomputed _ _) ?_ holds
    intro missing
    unfold withReplica
    rw [if_neg missing]
    exact recomputed _ _

end Imports

section Calls
variable {J : Store → Prop} {codec : Codec}

structure Conditions where
  putting : Store → String → Bytes → PutOptions → Prop
  clearing : Store → String → PutOptions → Prop
  moving : Store → String → String → Prop
  importing : Store → MetadataExportBundle → Prop
  replicating : Store → ReplicationExportBundle → Prop
  dropping : Store → String → Option String → Prop

/-- A call meets the conditions, with all the moves and deletions of sidecars in it. -/
def Conditions.Allow (codec : Codec) (cond : Conditions) (s : Store) : Call → Prop
  | .put key payload options => cond.putting s key payload options
  | .tombstone key options => cond.clearing s key options
  | .rename from_path to_path overwrite =>
    FollowsSidecars (renameMedia codec overwrite) cond.moving
      (fun t target => cond.clearing t target PutOptions.default) (s.catalog.current.size + 1) s
      from_path to_path
  | .copy from_path to_path overwrite =>
    FollowsSidecars (copyMedia codec overwrite) (fun _ _ _ => True)
      (fun t target => cond.clearing t target PutOptions.default) (s.catalog.current.size + 1) s
      from_path to_path
  | .importMetadata bundle => cond.importing s bundle
  | .importReplication bundle => cond.replicating s bundle
  | .drop key version_id => cond.dropping s key version_id
  | _ => True

theorem rename_allowed {cond : Conditions} {s : Store} {from_path to_path : String}
    {overwrite : Bool} (first : cond.moving s from_path to_path)
    (alone : ((renameMedia codec overwrite from_path to_path).run s).1 = .ok (.applied, .absent)) :
    cond.Allow codec s (.rename from_path to_path overwrite) :=
  followsSidecars_of_absent first alone

structure StoreInvariant (codec : Codec) (cond : Conditions) (J : Store → Prop) : Prop
    extends FramedInvariant J where
  put : ∀ s key payload options, cond.putting s key payload options → J s →
    J ((putObjectVersioned codec key payload options).run s).2
  commit : ∀ s key version_id, J s → J ((commitVersion key version_id).run s).2
  tombstone : ∀ s key options, cond.clearing s key options → J s →
    J ((tombstoneObjectSingle key options).run s).2
  rename : ∀ s overwrite from_path to_path, cond.moving s from_path to_path → J s →
    J ((renameMedia codec overwrite from_path to_path).run s).2
  importMetadata : ∀ s bundle, cond.importing s bundle → J s →
    J ((importMetadataBundle codec bundle).run s).2
  importReplication : ∀ s bundle, cond.replicating s bundle → J s →
    J ((importReplicationBundle codec bundle).run s).2
  drop : ∀ s key version_id, cond.dropping s key version_id → J s →
    J ((dropReplicaSubject key version_id).run s).2

theorem call_invariant {cond : Conditions} (inv : StoreInvariant codec cond J) (s : Store)
    (call : Call) (allowed : cond.Allow codec s call) (holds : J s) :
    J ((call.program codec).run s).2 := by
  have framed := inv.toFramedInvariant
  have clear : ∀ s target, cond.clearing s target PutOptions.default → J s →
      J ((tombstoneObjectSingle target PutOptions.default).run s).2 :=
    fun s target met holds => inv.tombstone s target _ met holds
  cases call
  -- every call is a program whose result is dropped
  all_goals rw [Call.program, ignoreResult_end]
  case put key payload options =>
    exact inv.put s key payload options allowed holds
  case commit key version_id =>
    exact inv.commit s key version_id holds
  case tombstone key options =>
    exact inv.tombstone s key options allowed holds
  case rename from_path to_path overwrite =>
    exact withSidecar_invariant "rename" "moved" "renaming"
      (fun s from_path to_path => inv.rename s overwrite from_path to_path) clear _ s _ _ allowed
      holds
  case copy from_path to_path overwrite =>
    exact withSidecar_invariant "copy" "copied" "copying"
      (fun s from_path to_path _ holds => transferred_framed framed
        (copyMedia_transferred codec overwrite s from_path to_path) holds) clear _ s _ _ allowed
      holds
  case persistCopied source_path target_path manifest_hash object_id version_id state version_prefix
      create =>
    exact persistCopied_framed framed _ _ _ _ _ _ _ _ holds
  case restoreVersion source_path version_id target_path overwrite =>
    exact transferred_framed framed (restoreVersionPath_transferred codec s _ _ _ _) holds
  case restoreSnapshot snapshot_id from_path to_path isRecursive overwrite =>
    exact restoreSnapshot_framed framed codec _ _ _ _ _ holds
  case restoreBatch requests sources =>
    exact restoreBatch_framed framed codec _ _ holds
  case importMetadata bundle =>
    exact inv.importMetadata s bundle allowed holds
  case importReplication bundle =>
    exact inv.importReplication s bundle allowed holds
  case drop key version_id =>
    exact inv.drop s key version_id allowed holds

end Calls

section Freshness

structure GeneratedFresh (s : Store) : Prop where
  distinct : Function.Injective s.world.uuids
  unbound : ∀ n path entry, s.catalog.current.get path = some entry →
    entry.objectId ≠ "obj-" ++ s.world.uuids n

end Freshness

section Samples

/-- The stored form of a manifest whose key needs no escapes. -/
def prettyManifest (manifest : ObjectManifest) : String :=
  let chunk (ref : ChunkRef) := "    \x7b\n      \"hash\": \"" ++ ref.hash ++
    "\",\n      \"size_bytes\": " ++ toString ref.sizeBytes ++ "\n    \x7d"
  let chunks := if manifest.chunks = [] then "[]"
    else "[\n" ++ String.intercalate ",\n" (manifest.chunks.map chunk) ++ "\n  ]"
  "\x7b\n  \"key\": \"" ++ manifest.key ++ "\",\n  \"total_size_bytes\": " ++
    toString manifest.totalSizeBytes ++ ",\n  \"chunks\": " ++ chunks ++ "\n\x7d"

def sampleCodec (digests : List (Bytes × String)) (manifests : List ObjectManifest) : Codec where
  digest payload :=
    (((digests.find? fun row => row.1 = payload).map fun row => ofHex row.2).filter fun digest =>
      digest.length = 32).getD (List.replicate 32 0)
  digest_length payload := by
    cases found : ((digests.find? fun row => row.1 = payload).map fun row => ofHex row.2).filter
        fun digest => digest.length = 32 with
    | none => exact List.length_replicate
    | some digest => simpa using (Option.filter_eq_some_iff.mp found).2
  encodeManifest manifest := textBytes (prettyManifest manifest)
  decodeManifest bytes := manifests.find? fun manifest => textBytes (prettyManifest manifest) = bytes

/-- The digests of the empty manifests of two paths, and of their scores on the one
    storage path. -/
def emptyManifestsCodec : Codec :=
  sampleCodec [
    (textBytes (prettyManifest ⟨"a", 0, []⟩),
      "8b66d6e5a59ceaa78f396aa95b106a8f88f3f0af23b30cb58ec2d96dfacb449a"),
    (textBytes (prettyManifest ⟨"b", 0, []⟩),
      "33cfc8a6a82de667e15d557860cc661a9fe28300ad51b70707fbec32ea891408"),
    (textBytes "8b66d6e5a59ceaa78f396aa95b106a8f88f3f0af23b30cb58ec2d96dfacb449a" ++ [0] ++
      textBytes "legacy-primary",
      "f460d670b6fc27d6658620c146ef5bbfb8d6312f4d7fb05cd36bd179b63a76ed"),
    (textBytes "33cfc8a6a82de667e15d557860cc661a9fe28300ad51b70707fbec32ea891408" ++ [0] ++
      textBytes "legacy-primary",
      "6dffec6d9247b65abc2ae1718c4c988621d515b989032a266aff5ab815e2fd0f")]
    [⟨"a", 0, []⟩, ⟨"b", 0, []⟩]

def emptyNode : Store where
  content :=
    { pool := ⟨[⟨⟨"legacy-primary", .active, 1, 0⟩, true⟩], legacyPrimary_nodup, Table.empty⟩
      disk := Table.empty
      mounted := fun _ => true
      records := Table.empty }
  ownedManifests := IterSet.empty
  cachedChunks := IterSet.empty
  repairTasks := []
  mediaFingerprints := IterSet.empty
  catalog := Catalog.empty
  world := ⟨fun _ => 0, fun n => n, fun n => toString n, fun _ _ => some 1000000, fun _ => 0⟩

def stepAt (second nano : Nat) (uuid : String) (call : Call) : Step :=
  ⟨call, ⟨fun _ => second, fun n => nano + n, fun n => uuid ++ String.ofList (List.replicate n '.'),
    fun _ _ => some 1000000, fun _ => second⟩⟩

def replicaOf (object_id version_id : String) (parents : List String)
    (state : VersionConsistencyState) (selected : Bool) : ReplicationExportBundle :=
  ⟨"a", some object_id, some version_id, some "a", parents, state, some 7, none, none, none, selected,
    "8b66d6e5a59ceaa78f396aa95b106a8f88f3f0af23b30cb58ec2d96dfacb449a",
    textBytes (prettyManifest ⟨"a", 0, []⟩)⟩

def receive (second nano : Nat) (bundle : ReplicationExportBundle) : Step :=
  stepAt second nano "i" (.importReplication bundle)

theorem stepAt_fresh (t : Store) (second nano : Nat) (uuid : String) (call : Call)
    (apart : ∀ entry ∈ t.catalog.current.values,
      ("obj-" ++ uuid).toList.isPrefixOf entry.objectId.toList = false) :
    GeneratedFresh ((stepAt second nano uuid call).start t) where
  distinct := by
    intro m n same
    have lengths := congrArg (fun text => text.toList.length) same
    simpa [stepAt, Step.start] using lengths
  unbound := by
    intro n path entry found same
    have differs := apart entry ((mem_values _ _).mpr ⟨path, found⟩)
    have starts : ("obj-" ++ uuid).toList <+: entry.objectId.toList :=
      ⟨List.replicate n '.', by rw [same]; simp [stepAt, Step.start]⟩
    rw [← List.isPrefixOf_iff_prefix, differs] at starts
    cases starts

end Samples

end BerryKeepStoreCalls
