import BerryKeep.StoreCalls

/-!
Heads over whole runs. Every stored index lists exactly the versions that no
stored record names as a parent, and prefers the best of them. The operations
that recompute the heads establish this; those that patch the head list keep it
when the version they add is named by no record yet, which an import of a child
before its parent can violate.
-/
namespace BerryKeepHeadInvariant
open FiniteTable TextOperations StatefulProgram BerryKeepContentCodec BerryKeepStoragePool
  BerryKeepCatalog BerryKeepVersionGraph BerryKeepCurrentNamespace BerryKeepNodeStore
  BerryKeepStoreOperations BerryKeepPathMutations BerryKeepBundleExchange BerryKeepStoreCalls

def CatalogExact (c : Catalog) : Prop :=
  ∀ id index, c.indexes.rows.get id = some index → HeadsExact index

section Steps
variable {c d : Catalog} {s t : Store} {key object_id manifest_hash version_id : String}
  {index : FileVersionIndex} {create : Bool}

theorem indexOrEmpty_exact (holds : CatalogExact c) (object_id : String) :
    HeadsExact (c.indexOrEmpty object_id) := by
  unfold Catalog.indexOrEmpty Catalog.loadVersionIndex
  cases stored : c.indexes.rows.get object_id with
  | none => exact empty_exact object_id
  | some index => exact holds object_id index stored

theorem rows_exact (same : d.indexes.rows = c.indexes.rows) (holds : CatalogExact c) :
    CatalogExact d := by
  intro id index stored
  rw [same] at stored
  exact holds id index stored

theorem rebound_exact {persist : Bool} (result : Rebound c d key object_id index persist)
    (new : persist = true → HeadsExact index) (holds : CatalogExact c) : CatalogExact d := by
  intro id found stored
  rcases result.row id with same | ⟨wanted, _, written⟩
  · rw [same] at stored
    exact holds id found stored
  · rw [written] at stored
    cases stored
    exact new wanted

def IdUnnamed (index : FileVersionIndex) (version_id : String) : Prop :=
  index.versions.get version_id = none → index.isParent version_id = false

instance (index : FileVersionIndex) (version_id : String) : Decidable (IdUnnamed index version_id) :=
  inferInstanceAs (Decidable (index.versions.get version_id = none → _))

theorem written_exact (written : Written s t key object_id manifest_hash version_id create)
    (unnamed : IdUnnamed (s.catalog.indexOrEmpty object_id) version_id)
    (holds : CatalogExact s.catalog) : CatalogExact t.catalog := by
  cases written with
  | again r _ existing _ tail =>
    exact rebound_exact tail.rebound (fun wanted => by cases wanted) holds
  | added r _ record new tail =>
    have before := indexOrEmpty_exact holds object_id
    have fresh := new.id.symm ▸ new.unstored
    have not_own : record.versionId ∉ record.parentVersionIds := by
      intro member
      have stored := new.parents _ member
      rw [has_iff] at stored
      obtain ⟨found, stored⟩ := stored
      rw [fresh] at stored
      cases stored
    have extended := extended_exact record before fresh
      (new.id.symm ▸ unnamed new.unstored) not_own
    exact rebound_exact tail.rebound (fun _ => extended) holds

theorem confirmedIndex_exact {version : FileVersionRecord} (before : HeadsExact index)
    (stored : index.versions.get version_id = some version) :
    HeadsExact (confirmedIndex index version) := by
  have id := index.keyed _ _ stored
  refine ⟨?_, rfl⟩
  have heads := recompute_insertRecord index version { version with state := .confirmed }
    (by rw [id]; exact stored) rfl
  exact before.heads.trans heads.symm

theorem confirmed_exact (confirmed : Confirmed s t key version_id)
    (holds : CatalogExact s.catalog) : CatalogExact t.catalog := by
  obtain ⟨r, _, object_id, index, version, _, loaded, stored, _, tail⟩ := confirmed
  have new := confirmedIndex_exact (holds object_id index loaded) stored
  exact rebound_exact tail.rebound (fun _ => new) holds

theorem copied_exact {target : String} (copied : Copied s t target create)
    (holds : CatalogExact s.catalog) : CatalogExact t.catalog := by
  obtain ⟨r, _, record, _, tail⟩ := copied
  exact rebound_exact tail.rebound (fun _ => recomputed_exact _) holds

/-- The ids a rename generates are new: the one it adds to the renamed object is neither
    stored nor named there, and the tombstone it leaves is not its own parent. -/
def RenameNew (codec : Codec) (s : Store) (from_path to_path : String) : Prop :=
  ∀ entry index source_head manifest short, s.catalog.current.get from_path = some entry →
    liveHead s.catalog entry.objectId = some (index, source_head) →
    loadManifestByHash codec s.content source_head.manifestHash = .ok (some manifest) →
    shortHash (clonedManifestHash codec manifest to_path) = .ok short →
    let id := (plannedRename codec s to_path entry.objectId source_head manifest short).versionId
    index.versions.get id = none ∧ index.isParent id = false ∧
      "rename-tomb-" ++ toString (s.world.nanos 1) ≠ source_head.versionId

theorem plannedTombstone_exact (from_path : String) (source_head : FileVersionRecord)
    (new : "rename-tomb-" ++ toString (s.world.nanos 1) ≠ source_head.versionId) :
    HeadsExact (plannedTombstone s from_path object_id source_head) := by
  -- The index is the empty one with the tombstone patched in.
  have not_own : "rename-tomb-" ++ toString (s.world.nanos 1) ∉ [source_head.versionId] := by
    simpa using new
  have start : HeadsExact (emptyVersionIndex ("obj-" ++ s.world.uuids 0)) := empty_exact _
  exact extended_exact
    ⟨"rename-tomb-" ++ toString (s.world.nanos 1), "obj-" ++ s.world.uuids 0, tombstoneManifestHash,
      some from_path, [source_head.versionId], source_head.state, s.world.seconds 2, some object_id,
      some source_head.versionId, some from_path⟩ start rfl rfl not_own

theorem renameMedia_exact (codec : Codec) (overwrite : Bool) {from_path to_path : String}
    (new : RenameNew codec s from_path to_path) (holds : CatalogExact s.catalog) :
    CatalogExact ((renameMedia codec overwrite from_path to_path).run s).2.catalog := by
  rcases renameMedia_moved codec overwrite s from_path to_path with
    same | ⟨entry, index, source_head, _, shown, _, alive, moved⟩
  · rw [same.catalog]
    exact holds
  · cases moved with
    | stopped _ catalog =>
      rw [catalog]
      exact holds
    | moved r _ manifest short loaded named mid _ rows _ _ catalog =>
      obtain ⟨unstored, unnamed, tombstone⟩ := new entry index source_head manifest short shown
        alive loaded named
      obtain ⟨stored, _, head, _⟩ := liveHead_some alive
      have not_own : (plannedRename codec s to_path entry.objectId source_head manifest
          short).versionId ∉ [source_head.versionId] := by
        rw [List.mem_singleton]
        intro same
        rw [same, head] at unstored
        cases unstored
      have extended := extended_exact _ (holds _ _ stored) unstored unnamed not_own
      intro id found loaded
      rw [catalog, recordedIf_indexes, rows, get_put, get_put] at loaded
      split at loaded
      · cases loaded
        exact plannedTombstone_exact from_path source_head tombstone
      · split at loaded
        · cases loaded
          exact extended
        · exact holds id found loaded

end Steps

section Imports

theorem exact_writeInvariant : WriteInvariant CatalogExact fun _ index => HeadsExact index := by
  apply rowsInvariant
  · intro c d same holds
    exact rows_exact same holds
  · intro c d object_id index new written holds id found stored
    rw [written, get_put] at stored
    split at stored
    · cases stored
      exact new
    · exact holds id found stored

theorem delete_exact (object_id : String) :
    Preserves CatalogExact (deleteVersionIndexByObjectId object_id) := by
  intro c holds id found stored
  change (c.indexes.rows.del object_id).get id = some found at stored
  exact holds id found (get_del_some stored).2

theorem importMetadata_exact (codec : Codec) (s : Store) (bundle : MetadataExportBundle)
    (holds : CatalogExact s.catalog) :
    CatalogExact ((importMetadataBundle codec bundle).run s).2.catalog := by
  rcases importMetadata_imported codec s bundle with same | imported
  · rw [same.catalog]
    exact holds
  · cases imported with
    | versions r _ merged changed _ catalog =>
      rw [catalog]
      apply publishMetadata_preserves exact_writeInvariant r _ _ _ changed ?_ s.catalog holds
      intro wanted
      rw [if_pos wanted]
      exact recomputed_exact merged
    | binding r _ manifest_hash _ _ catalog =>
      rw [catalog]
      exact rows_exact (bindManifest_bound r s.catalog _ _).1 holds

theorem drop_exact (s : Store) (key : String) (version_id : Option String)
    (holds : CatalogExact s.catalog) :
    CatalogExact ((dropReplicaSubject key version_id).run s).2.catalog := by
  rcases drop_dropped s key version_id with same | ⟨id, _, r, _, object_id, index, _, _, tail⟩
  · rw [same.catalog]
    exact holds
  · exact rebound_exact tail.rebound (fun _ => recomputed_exact _) holds

end Imports

section Runs

def PutNew (codec : Codec) (s : Store) (key : String) (payload : Bytes) (options : PutOptions) :
    Prop :=
  ∀ version_id, putVersionId options.explicitVersionId (s.world.nanos 0)
      (putManifestHash codec key payload) = .ok version_id →
    IdUnnamed (s.catalog.indexOrEmpty (targetObject s key)) version_id

def TombstoneNew (s : Store) (key : String) (options : PutOptions) : Prop :=
  IdUnnamed (s.catalog.indexOrEmpty (targetObject s key))
    (tombstoneVersionId options.explicitVersionId (s.world.nanos 0))

/-- No version that a call patches into an index is named there as a parent already. -/
def versionIdsNew (codec : Codec) : Conditions where
  putting := PutNew codec
  clearing := TombstoneNew
  moving := RenameNew codec
  importing _ _ := True
  replicating _ _ := True
  dropping _ _ _ := True

theorem put_exact {codec : Codec} {s : Store} {key : String} {payload : Bytes}
    {options : PutOptions} (new : PutNew codec s key payload options)
    (holds : CatalogExact s.catalog) :
    CatalogExact ((putObjectVersioned codec key payload options).run s).2.catalog := by
  rcases put_written codec s key payload options with same | ⟨version_id, named, written⟩
  · rw [same.catalog]
    exact holds
  · exact written_exact written (new version_id named) holds

theorem tombstone_exact {s : Store} {key : String} {options : PutOptions}
    (new : TombstoneNew s key options) (holds : CatalogExact s.catalog) :
    CatalogExact ((tombstoneObjectSingle key options).run s).2.catalog := by
  rcases tombstone_written s key options with same | written
  · rw [same.catalog]
    exact holds
  · exact written_exact written new holds

theorem commit_exact (s : Store) (key version_id : String) (holds : CatalogExact s.catalog) :
    CatalogExact ((commitVersion key version_id).run s).2.catalog := by
  rcases commit_confirmed s key version_id with same | confirmed
  · rw [same.catalog]
    exact holds
  · exact confirmed_exact confirmed holds

theorem exact_invariant (codec : Codec) :
    StoreInvariant codec (versionIdsNew codec) fun s => CatalogExact s.catalog where
  framed := fun _ _ same holds => rows_exact same.rows holds
  copied := fun _ _ _ _ copied holds => copied_exact copied holds
  put := fun _ _ _ _ new holds => put_exact new holds
  commit := commit_exact
  tombstone := fun _ _ _ new holds => tombstone_exact new holds
  rename := fun _ overwrite _ _ new holds => renameMedia_exact codec overwrite new holds
  importMetadata := fun s bundle _ holds => importMetadata_exact codec s bundle holds
  importReplication := fun s bundle _ holds =>
    importReplication_preserves exact_writeInvariant delete_exact (fun _ => recomputed_exact) codec s
      bundle holds
  drop := fun s key version_id _ holds => drop_exact s key version_id holds

end Runs

section Result

/-- In every run from an empty store whose calls patch in only versions that no stored
    record names yet, the heads and the preferred head of every stored index are those
    of its whole graph. -/
theorem heads_exact_in_every_run (codec : Codec) (s : Store) (steps : List Step)
    (start : s.catalog = Catalog.empty)
    (new : AllSteps (exec codec) (fun t step => (versionIdsNew codec).Allow codec (step.start t) step.call) s
      steps) :
    ∀ id index, (runAll (exec codec) s steps).catalog.indexes.rows.get id = some index →
      index.headVersionIds = recomputeHeadVersionIds index ∧
        index.preferredHeadVersionId = choosePreferredHead index := by
  have first : CatalogExact s.catalog := by
    intro id index stored
    rw [start] at stored
    cases stored
  have last := run_invariant (fun t => CatalogExact t.catalog)
    (fun t step new holds => call_invariant (exact_invariant codec) (step.start t) step.call new holds) steps s new first
  intro id index stored
  exact ⟨(last id index stored).heads, (last id index stored).preferred⟩

def metadataOf (version_id manifest_hash : String) (parents : List String) : MetadataVersionRecord :=
  ⟨version_id, manifest_hash, some "a", parents, .confirmed, 7, none, none, none⟩

def importOf (versions : List MetadataVersionRecord) : Step :=
  stepAt 10 100 "m" (.importMetadata ⟨"a", some "obj-1", none, versions, []⟩)

theorem heads_exact_after_import_and_tombstone :
    let steps := [importOf [metadataOf "P" "aa" []],
      stepAt 11 200 "t" (.tombstone "a" PutOptions.default)]
    ((runAll (exec (sampleCodec [] [])) emptyNode steps).catalog.indexes.rows.get "obj-1").map
        (fun index => index.headVersionIds) = some ["tomb-200"] ∧
      ∀ id index, (runAll (exec (sampleCodec [] [])) emptyNode steps).catalog.indexes.rows.get id =
        some index → index.headVersionIds = recomputeHeadVersionIds index ∧
          index.preferredHeadVersionId = choosePreferredHead index := by
  intro steps
  have unnamed : TombstoneNew ((stepAt 11 200 "t" (.tombstone "a" PutOptions.default)).start
      (exec (sampleCodec [] []) (importOf [metadataOf "P" "aa" []]) emptyNode)) "a"
      PutOptions.default := by
    unfold TombstoneNew
    decide +kernel
  exact ⟨by decide +kernel, heads_exact_in_every_run (sampleCodec [] []) emptyNode steps rfl
    ⟨trivial, unnamed, trivial⟩⟩

/-- A child is imported before its parent, which is then written under an explicit id.
    The patched head list keeps the parent, although its child is stored. -/
theorem late_parent_listed_as_head :
    let tombstone : PutOptions := ⟨[], .confirmed, false, true, some "P"⟩
    let steps := [importOf [metadataOf "C" "aa" ["P"]], stepAt 11 200 "t" (.tombstone "a" tombstone)]
    ((runAll (exec (sampleCodec [] [])) emptyNode steps).catalog.indexes.rows.get "obj-1").map
        (fun index => (index.headVersionIds, recomputeHeadVersionIds index)) =
      some (["C", "P"], ["C"]) := by
  decide +kernel

end Result

end BerryKeepHeadInvariant
