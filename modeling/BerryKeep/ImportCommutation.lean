import BerryKeep.NamespaceAgreement
import BerryKeep.PinnedContent

/-!
The order of two replication imports into one lineage. As long as an import
lands in the lineage of its bundle, what it leaves is a function of the stored
index and of the bundle, and two such functions commute. Where a bundle lands is
chosen at import time, so the order matters as soon as the first import can take
the path away from the lineage and another lineage claims the path.
-/
namespace BerryKeepImportCommutation
open FiniteTable TextOperations StatefulProgram BerryKeepContentCodec BerryKeepStoragePool
  BerryKeepCatalog BerryKeepVersionGraph BerryKeepCurrentNamespace BerryKeepNodeStore
  BerryKeepLineageResolution BerryKeepStoreOperations BerryKeepPathMutations
  BerryKeepBundleExchange BerryKeepStoreCalls BerryKeepObjectIdentity
open BerryKeepStorageRelocation (Readable selectWritePath_ok)
open BerryKeepContentCleanup (SameReads sameReads_readable)
open BerryKeepUploadAssembly (KeepsRead persistStorageContent_keepsRead)
open BerryKeepPinnedContent (Stored persist_stored markOwned_quiet)
open BerryKeepNamespaceAgreement (preferred_found chosen_stored)

section Replicas
variable {index : FileVersionIndex} {a b : FileVersionRecord}

theorem withReplica_get (id : String) : (withReplica index a).versions.get id =
    if id = a.versionId then some a else index.versions.get id := by
  unfold withReplica
  split
  · next stored =>
    split
    · next here => rw [here, stored]
    · rfl
  · exact insertRecord_get id

theorem withReplica_objectId : (withReplica index a).objectId = index.objectId := by
  unfold withReplica
  split
  · rfl
  · rfl

theorem withReplica_exact
    (either : index.versions.get a.versionId ≠ some a ∨ HeadsExact index) :
    HeadsExact (withReplica index a) := by
  unfold withReplica
  split
  · next stored =>
    rcases either with missing | exact_before
    · exact absurd stored missing
    · exact exact_before
  · exact recomputed_exact _

theorem withReplica_stored (stored : index.versions.get a.versionId = some a) :
    withReplica index a = index := if_pos stored

theorem withReplica_comm (distinct : a.versionId ≠ b.versionId) :
    SameIndex (withReplica (withReplica index a) b) (withReplica (withReplica index b) a) := by
  have versions : ∀ id, (withReplica (withReplica index a) b).versions.get id =
      (withReplica (withReplica index b) a).versions.get id := by
    intro id
    simp only [withReplica_get]
    by_cases at_a : id = a.versionId
    · simp [at_a, distinct]
    · simp [at_a]
  have kept_a : (withReplica index b).versions.get a.versionId = index.versions.get a.versionId := by
    rw [withReplica_get, if_neg distinct]
  have kept_b : (withReplica index a).versions.get b.versionId = index.versions.get b.versionId := by
    rw [withReplica_get, if_neg (Ne.symm distinct)]
  by_cases has_a : index.versions.get a.versionId = some a
  · by_cases has_b : index.versions.get b.versionId = some b
    · rw [withReplica_stored has_a, withReplica_stored has_b, withReplica_stored has_a]
      exact sameIndex_refl index
    · apply exact_sameIndex versions
      · exact withReplica_exact (.inl (kept_b ▸ has_b))
      · exact withReplica_exact (.inr (withReplica_exact (.inl has_b)))
  · apply exact_sameIndex versions
    · exact withReplica_exact (.inr (withReplica_exact (.inl has_a)))
    · exact withReplica_exact (.inl (kept_a ▸ has_a))

end Replicas

section Lineages
variable {codec : Codec} {c d : Catalog} {s : Store} {key object_id : String}

def OnlyAt (cur : Bindings) (key object_id : String) : Prop :=
  ∀ path entry, cur.get path = some entry → entry.objectId = object_id → path = key

def VersionsAt (index : FileVersionIndex) (key : String) : Prop :=
  ∀ version_id record, index.versions.get version_id = some record →
    record.logicalPath.getD key = key

/-- The path shows the object or nothing, the object is shown at no other path or was never at one,
    its preferred head is a version of it, and no other object has versions with these ids. -/
structure OwnLineage (c : Catalog) (key object_id : String) (ids : List String) : Prop where
  here : ∀ entry, c.current.get key = some entry → entry.objectId = object_id
  single : OnlyAt c.current key object_id ∨ VersionsAt (c.indexOrEmpty object_id) key
  preferred : ∀ index, c.indexes.rows.get object_id = some index →
    ∀ head, index.preferredHeadVersionId = some head →
      ∃ record, index.versions.get head = some record
  apart : ∀ id index, c.indexes.rows.get id = some index → id ≠ object_id →
    ∀ version_id ∈ ids, index.versions.get version_id = none

/-- Every other object is known by a path, and none of its versions was at this one. -/
def Unclaimed (c : Catalog) (key object_id : String) : Prop :=
  ∀ id index, c.indexes.rows.get id = some index → id ≠ object_id →
    ∀ version_id record, index.versions.get version_id = some record →
      record.logicalPath ≠ some key ∧
        ∃ known other, index.versions.get known = some other ∧ other.logicalPath.isSome = true

variable {ids : List String}

theorem objectIdForKey_own (own : OwnLineage c key object_id ids) :
    objectIdForKey c.current key = none ∨ objectIdForKey c.current key = some object_id := by
  unfold objectIdForKey
  cases bound : c.current.get key with
  | none => exact .inl rfl
  | some entry => exact .inr (congrArg some (own.here entry bound))

theorem resolveKey_other (codec : Codec) (st : ContentStore) {index : FileVersionIndex}
    (paths : ∀ id record, index.versions.get id = some record → record.logicalPath ≠ some key ∧
      ∃ known other, index.versions.get known = some other ∧ other.logicalPath.isSome = true) :
    resolveKeyForVersionIndex codec st index ≠ some key := by
  intro resolved
  unfold resolveKeyForVersionIndex at resolved
  split at resolved
  · next preferred shown =>
    cases resolved
    rw [Option.bind_eq_some_iff] at shown
    obtain ⟨head, found, shown⟩ := shown
    obtain ⟨id, _, stored⟩ := Option.bind_eq_some_iff.mp found
    exact (paths id head stored).1 shown
  · split at resolved
    · next any found =>
      cases resolved
      obtain ⟨record, member, shown⟩ := List.exists_of_findSome?_eq_some found
      obtain ⟨id, stored⟩ := (mem_values _ _).mp member
      exact (paths id record stored).1 shown
    · next nothing =>
      -- A version has a path, so the manifests are not asked.
      obtain ⟨record, member, _⟩ := List.exists_of_findSome?_eq_some resolved
      obtain ⟨id, stored⟩ := (mem_values _ _).mp member
      obtain ⟨known, other, held, shown⟩ := (paths id record stored).2
      have hidden := List.findSome?_eq_none_iff.mp nothing other ((mem_values _ _).mpr ⟨known, held⟩)
      rw [hidden] at shown
      cases shown

theorem history_own (own : OwnLineage s.catalog key object_id ids)
    (unclaimed : Unclaimed s.catalog key object_id) :
    resolveObjectIdForKeyHistory codec s key = none ∨
      resolveObjectIdForKeyHistory codec s key = some object_id := by
  unfold resolveObjectIdForKeyHistory
  rcases objectIdForKey_own own with unbound | bound
  · rw [unbound]
    dsimp only
    cases found : s.catalog.loadAllVersionIndexes.find? fun index =>
        resolveKeyForVersionIndex codec s.content index = some key with
    | none => exact .inl rfl
    | some index =>
      right
      have resolved : resolveKeyForVersionIndex codec s.content index = some key := by
        simpa using List.find?_some found
      have stored := (mem_loadAllVersionIndexes s.catalog index).mp (List.mem_of_find?_eq_some found)
      by_contra other
      have foreign : index.objectId ≠ object_id := fun same => other (congrArg some same)
      exact resolveKey_other codec s.content (unclaimed _ index stored foreign) resolved
  · rw [bound]
    exact .inr rfl

theorem version_own (own : OwnLineage s.catalog key object_id ids)
    {version_id : String} (listed : version_id ∈ ids) :
    resolveObjectIdForKeyVersion codec s key version_id = none ∨
      resolveObjectIdForKeyVersion codec s key version_id = some object_id := by
  unfold resolveObjectIdForKeyVersion
  cases held : boundObjectWithVersion s.catalog key version_id with
  | some bound =>
    right
    have shown := (Option.filter_eq_some_iff.mp held).1
    rcases objectIdForKey_own own with unbound | own_bound
    · rw [unbound] at shown
      cases shown
    · rw [← shown, own_bound]
  | none =>
    dsimp only
    cases found : s.catalog.loadAllVersionIndexes.find? fun index =>
        versionBelongsTo codec s.content key version_id index with
    | none => exact .inl rfl
    | some index =>
      right
      have belongs := List.find?_some found
      have stored := (mem_loadAllVersionIndexes s.catalog index).mp (List.mem_of_find?_eq_some found)
      unfold versionBelongsTo at belongs
      cases holds : index.versions.get version_id with
      | none =>
        rw [holds] at belongs
        cases belongs
      | some record =>
        by_contra other
        have foreign : index.objectId ≠ object_id := fun same => other (congrArg some same)
        rw [own.apart _ index stored foreign version_id listed] at holds
        cases holds

/-- A live version that a bundle carries without being the preferred head at its source. -/
structure LiveReplica (bundle : ReplicationExportBundle) (key object_id version_id : String) :
    Prop where
  object : nonemptyObjectId bundle.objectId = some object_id
  path : replicaKey bundle = key
  version : bundle.versionId = some version_id
  live : bundle.manifestHash ≠ tombstoneManifestHash
  unselected : bundle.selectedIsPreferredHead = false
  dated : bundle.createdAtUnix.isSome = true

theorem LiveReplica.solid {bundle : ReplicationExportBundle} {version_id : String}
    (replica : LiveReplica bundle key object_id version_id) : isBlank object_id = false := by
  have named := (Option.filter_eq_some_iff.mp replica.object).2
  simpa using named

theorem lineageOr_own {found : Option String} (own : found = none ∨ found = some object_id) :
    lineageOr found (.known object_id) = .known object_id := by
  rcases own with rfl | rfl
  · rfl
  · rfl

theorem choose_own {bundle : ReplicationExportBundle} {version_id : String}
    (replica : LiveReplica bundle key object_id version_id)
    (own : OwnLineage s.catalog key object_id ids)
    (lands : (s.catalog.current.get key).isSome = true ∨ Unclaimed s.catalog key object_id)
    (listed : version_id ∈ ids) (created : Nat) :
    chooseReplicationBundleObjectId codec s bundle key version_id created = .known object_id := by
  have by_version : resolvedByVersion codec s bundle key = none ∨
      resolvedByVersion codec s bundle key = some object_id := by
    unfold resolvedByVersion
    rw [replica.version]
    exact version_own own listed
  unfold chooseReplicationBundleObjectId
  simp only [replica.object, replica.live, replica.unselected, if_false, Bool.false_eq_true]
  rcases lands with bound | unclaimed
  · obtain ⟨entry, shown⟩ := Option.isSome_iff_exists.mp bound
    have named : objectIdForKey s.catalog.current key = some object_id := by
      rw [objectIdForKey, shown, Option.map_some, own.here entry shown]
    rw [named]
    exact lineageOr_own by_version
  · rw [lineageOr_own (history_own own unclaimed), lineageOr_own (objectIdForKey_own own),
      lineageOr_own by_version]

end Lineages

section Publishing
variable {c d : Catalog} {key object_id : String} {cur next base : Bindings}

/-- The namespace keeps to one path of the object: it shows the object or nothing there, and the
    object nowhere else if that was so before. -/
structure OwnBindings (before : Bindings) (key object_id : String) (cur : Bindings) : Prop where
  here : ∀ entry, cur.get key = some entry → entry.objectId = object_id
  only : OnlyAt before key object_id → OnlyAt cur key object_id

/-- The catalog differs from an earlier one only in the row of one object and in its bindings; the
    row is the same as well if `same` holds. -/
structure OwnChange (key object_id : String) (same : Prop) (c d : Catalog) : Prop where
  others : ∀ id, id ≠ object_id → d.indexes.rows.get id = c.indexes.rows.get id
  bindings : OwnBindings c.current key object_id d.current
  kept : same → d.indexes.rows.get object_id = c.indexes.rows.get object_id

variable {ids : List String} {index : FileVersionIndex}

theorem cleared_own (kept : OwnBindings base key object_id cur)
    (all : ∀ path, next.get path = unbound object_id (cur.get path)) :
    OwnBindings base key object_id next := by
  constructor
  · intro entry found
    rw [all key] at found
    exact kept.here entry (unbound_some found).1
  · intro _ path entry found same
    rw [all path] at found
    exact absurd same (unbound_some found).2

theorem rebinding_own (kept : OwnBindings base key object_id cur)
    (change : Rebinding cur key index next) (object : index.objectId = object_id) :
    OwnBindings base key object_id next := by
  subst object
  cases change with
  | cleared _ all => exact cleared_own kept all
  | kept _ _ _ => exact kept
  | bound record _ here elsewhere =>
    constructor
    · intro entry found
      rw [here] at found
      cases found
      rfl
    · intro _ path entry found same
      by_contra other
      rw [elsewhere path other] at found
      exact (unbound_some found).2 same

variable {same : Prop}

theorem sync_own (object : index.objectId = object_id) :
    Preserves (OwnChange key object_id same c) (syncCurrentState key index) := by
  intro a holds
  rcases rebind_run (fun current => syncCurrentStateForKeyFromIndex current key index) a with
    ⟨error, _, run⟩ | ⟨changed, current, done, run⟩
  · rw [syncCurrentState, run]
    exact holds
  · rw [syncCurrentState, run]
    exact ⟨holds.others, rebinding_own holds.bindings (sync_cases done) object, holds.kept⟩

theorem unbind_own :
    Preserves (OwnChange key object_id same c) (removeBindingsExcept object_id none) := by
  intro a holds
  refine ⟨holds.others, cleared_own holds.bindings fun path => ?_, holds.kept⟩
  exact (removeBindings_get none path).trans (if_neg (by simp))

theorem persist_own (differs : ¬same) (index : FileVersionIndex) :
    Preserves (OwnChange key object_id same c) (persistVersionIndexByObjectId object_id index) := by
  intro a holds
  have current := persist_keepsCurrent object_id index a
  refine ⟨?_, ?_, fun stays => absurd stays differs⟩
  · intro id other
    rcases persist_row object_id index a id with kept | ⟨here, _⟩
    · rw [kept]
      exact holds.others id other
    · exact absurd here other
  · rw [current]
    exact holds.bindings

theorem delete_own (differs : ¬same) :
    Preserves (OwnChange key object_id same c) (deleteVersionIndexByObjectId object_id) := by
  intro a holds
  refine ⟨?_, holds.bindings, fun stays => absurd stays differs⟩
  intro id other
  exact (get_del_other _ other).trans (holds.others id other)

theorem pruneIndex_own {record : FileVersionRecord}
    (own : OwnLineage c key object_id ids) (object : record.objectId = object_id)
    (listed : record.versionId ∈ ids) (loaded : index ∈ c.loadAllVersionIndexes)
    (paths : Finset String) :
    Preserves (OwnChange key object_id (recordAt c object_id record.versionId = some record) c)
      (pruneIndex key record paths index) := by
  have stored := (mem_loadAllVersionIndexes c index).mp loaded
  unfold pruneIndex
  cases held : index.versions.get record.versionId with
  | none => exact preserves_pure _
  | some existing =>
    refine preserves_ite (fun _ => preserves_pure _) fun _ => ?_
    refine preserves_ite (fun _ => preserves_pure _) fun conflict => ?_
    have mine : index.objectId = object_id := by
      by_contra foreign
      rw [own.apart _ index stored foreign _ listed] at held
      cases held
    have differs : ¬recordAt c object_id record.versionId = some record := by
      intro stays
      rw [mine] at stored
      rw [recordAt_of_row stored, held] at stays
      exact conflict ⟨mine.trans object.symm, Option.some.inj stays⟩
    dsimp only
    rw [mine]
    apply preserves_ite
    · intro _
      refine preserves_bind (delete_own differs) fun _ => ?_
      exact preserves_bind unbind_own fun _ => preserves_pure _
    · intro _
      refine preserves_bind (persist_own differs _) fun _ => ?_
      exact preserves_bind (sync_own mine) fun _ => preserves_pure _

def Shows (key : String) (index : FileVersionIndex) (binding : Option CurrentObjectEntry) : Prop :=
  ∃ live, livePreferredRecord key index = .ok live ∧
    binding = live.map fun record => ⟨record.manifestHash, index.objectId⟩

theorem own_free (kept : OwnBindings base key object_id cur) (only : OnlyAt base key object_id) :
    ¬BusyElsewhere cur key object_id := by
  rintro (⟨path, listed, other⟩ | ⟨entry, bound, differs⟩)
  · obtain ⟨entry, bound, same⟩ := mem_listKeys.mp listed
    exact other (kept.only only path entry bound same)
  · exact differs (kept.here entry bound)

/-- The version of a path takes the object there, whatever other paths it has. -/
theorem sync_moves {record : FileVersionRecord} {changed : Finset String}
    (here : ∀ entry, cur.get key = some entry → entry.objectId = index.objectId)
    (live : livePreferredRecord key index = .ok (some record))
    (at_key : record.logicalPath.getD key = key)
    (done : syncCurrentStateForKeyFromIndex cur key index = .ok (changed, next)) :
    next.get key = some ⟨record.manifestHash, index.objectId⟩ := by
  have bound : bindToPreferredIndexRecord cur key index record = (changed, next) := by
    unfold syncCurrentStateForKeyFromIndex objectIdForKey at done
    rw [live] at done
    cases shown : cur.get key with
    | none => simpa [shown] using done
    | some entry => simpa [shown, here entry shown] using done
  unfold bindToPreferredIndexRecord at bound
  simp only [at_key, ne_eq, not_true_eq_false, and_false, if_false] at bound
  split at bound
  · cases bound
    exact get_put_self _ _ _
  · next same =>
    cases bound
    exact not_not.mp same

theorem sync_shows {changed : Finset String} (kept : OwnBindings base key object_id cur)
    (object : index.objectId = object_id)
    (single : OnlyAt base key object_id ∨ VersionsAt index key)
    (done : syncCurrentStateForKeyFromIndex cur key index = .ok (changed, next)) :
    Shows key index (next.get key) := by
  subst object
  cases sync_cases done with
  | cleared dead all =>
    refine ⟨none, dead, ?_⟩
    rw [all key]
    cases bound : cur.get key with
    | none => rfl
    | some entry => simp [unbound, kept.here entry bound]
  | kept record live busy =>
    rcases single with only | at_key
    · exact absurd busy (own_free kept only)
    · obtain ⟨head, _, stored, _⟩ := livePreferredRecord_some live
      exact ⟨some record, live, sync_moves kept.here live (at_key head record stored) done⟩
  | bound record live here _ => exact ⟨some record, live, here⟩

structure Settled (key object_id : String) (index : FileVersionIndex) (c d : Catalog) : Prop where
  others : ∀ id, id ≠ object_id → d.indexes.rows.get id = c.indexes.rows.get id
  only : OnlyAt c.current key object_id → OnlyAt d.current key object_id
  row : d.indexes.rows.get object_id = some index
  shows : Shows key index (d.current.get key)

theorem withReplica_preferred (record : FileVersionRecord)
    (own : OwnLineage c key object_id ids) (head : String)
    (preferred : (withReplica (c.indexOrEmpty object_id) record).preferredHeadVersionId =
      some head) :
    ∃ found, (withReplica (c.indexOrEmpty object_id) record).versions.get head = some found := by
  unfold withReplica at preferred ⊢
  split
  · next stored =>
    rw [if_pos stored] at preferred
    exact own.preferred _ (indexOrEmpty_stored stored) head preferred
  · next missing =>
    rw [if_neg missing] at preferred
    exact chosen_stored (recomputed_exact _).preferred head preferred

theorem withReplica_single {record : FileVersionRecord}
    (own : OwnLineage c key object_id ids) (path : record.logicalPath = some key) :
    OnlyAt c.current key object_id ∨
      VersionsAt (withReplica (c.indexOrEmpty object_id) record) key := by
  refine own.single.imp_right fun at_key => ?_
  intro id found stored
  rw [withReplica_get] at stored
  split at stored
  · cases stored
    rw [path, Option.getD_some]
  · exact at_key id found stored

theorem withReplica_valid {record : FileVersionRecord} (solid : isBlank object_id = false)
    (object : record.objectId = object_id) :
    validateVersionIndexIdentity object_id (withReplica (c.indexOrEmpty object_id) record) = .ok () := by
  rw [validate_ok_iff]
  refine ⟨solid, withReplica_objectId.trans (indexOrEmpty_objectId c object_id), ?_⟩
  intro id found stored
  rw [withReplica_get] at stored
  split at stored
  · cases stored
    exact object
  · have row := indexOrEmpty_stored stored
    exact (validate_ok_iff.mp (c.indexes.identity object_id _ row)).2.2 id found stored

theorem sync_returns (key : String)
    (stored : ∀ head, index.preferredHeadVersionId = some head →
      ∃ record, index.versions.get head = some record) (d : Catalog) : ∃ changed next,
      syncCurrentStateForKeyFromIndex d.current key index = .ok (changed, next) ∧
      (syncCurrentState key index).run d = (.ok changed, { d with current := next }) := by
  rcases rebind_run (fun current => syncCurrentStateForKeyFromIndex current key index) d with
    ⟨error, lost, _⟩ | ⟨changed, next, done, run⟩
  · exact absurd lost (preferred_found stored error)
  · exact ⟨changed, next, done, run⟩

theorem pruneIndex_returns (key : String) (loaded : index ∈ c.loadAllVersionIndexes) (record : FileVersionRecord)
    (paths : Finset String) (d : Catalog) :
    ∃ changed e, (pruneIndex key record paths index).run d = (.ok changed, e) := by
  have stored := (mem_loadAllVersionIndexes c index).mp loaded
  obtain ⟨solid, _, same⟩ := validate_ok_iff.mp (c.indexes.identity _ index stored)
  unfold pruneIndex
  cases index.versions.get record.versionId with
  | none => exact ⟨_, _, rfl⟩
  | some existing =>
    dsimp only
    split
    · exact ⟨_, _, rfl⟩
    split
    · exact ⟨_, _, rfl⟩
    split
    · exact ⟨_, _, rfl⟩
    have valid : validateVersionIndexIdentity index.objectId
        (index.removeVersion record.versionId).recomputed = .ok () := by
      rw [validate_ok_iff]
      refine ⟨solid, rfl, fun id found kept => same id found ?_⟩
      exact (get_del_some kept).2
    rcases persist_run d index.objectId (index.removeVersion record.versionId).recomputed with
      ⟨error, invalid, _⟩ | ⟨_, run⟩
    · rw [valid] at invalid
      cases invalid
    · obtain ⟨changed, next, _, synced⟩ := sync_returns key
        (chosen_stored (recomputed_exact (index.removeVersion record.versionId)).preferred)
        { d with indexes := d.indexes.put index.objectId _ ‹_› }
      rw [bind_run_ok run, bind_run_ok synced]
      exact ⟨_, _, rfl⟩

theorem storing_completes (valid : validateVersionIndexIdentity object_id index = .ok ())
    (d : Catalog) (persist : Bool) :
    Completes (onlyIf persist (persistVersionIndexByObjectId object_id index)) d fun _ e =>
      e.indexes.rows = storedRows d persist object_id index ∧ e.current = d.current := by
  rcases storing_run d persist with ⟨_, error, invalid, _⟩ | ⟨e, run, rows, current, _⟩
  · rw [valid] at invalid
    cases invalid
  · exact ⟨(), e, run, rows, current⟩

theorem recording_completes (paths : Finset String) (now : Nat) (uuid : String) (d : Catalog) :
    Completes (persistCurrentStateWithSnapshotBatch paths true now uuid) d fun _ e =>
      e.indexes = d.indexes ∧ e.current = d.current := by
  obtain ⟨id, run⟩ := persistCurrentState_run d paths true now uuid
  exact ⟨id, _, run, recordedIf_indexes .., recordedIf_current ..⟩

theorem storeReplica_settled {bundle : ReplicationExportBundle}
    {record : FileVersionRecord} (own : OwnLineage c key object_id ids)
    (solid : isBlank object_id = false) (object : record.objectId = object_id)
    (path : record.logicalPath = some key) (unselected : bundle.selectedIsPreferredHead = false)
    (before : OwnChange key object_id (recordAt c object_id record.versionId = some record) c d)
    (r : Readings) (paths : Finset String) :
    Completes (storeReplica r key bundle (c.indexOrEmpty object_id) record paths) d
      fun _ e => Settled key object_id (withReplica (c.indexOrEmpty object_id) record) c e := by
  have owned : (withReplica (c.indexOrEmpty object_id) record).objectId = object_id :=
    withReplica_objectId.trans (indexOrEmpty_objectId c object_id)
  unfold storeReplica
  refine completes_get (completes_bind_ok (a := ()) rfl ?_)
  rw [object]
  refine completes_bind (storing_completes (withReplica_valid solid object) _ _)
    fun _ stored ⟨rows, current⟩ => ?_
  obtain ⟨changed, next, done, synced⟩ :=
    sync_returns key (withReplica_preferred record own) stored
  refine completes_bind_ok synced ?_
  rw [selectReplica, if_pos unselected]
  refine completes_bind_ok (a := ∅) rfl (completes_get ?_)
  refine completes_bind (recording_completes _ _ _ _) fun _ e ⟨indexes, bindings⟩ =>
    completes_pure ?_
  have kept : OwnBindings c.current key object_id stored.current := by
    rw [current]
    exact before.bindings
  have moved := rebinding_own kept (sync_cases done) owned
  refine ⟨?_, ?_, ?_, ?_⟩
  · intro id other
    rw [indexes, rows, storedRows_other other]
    exact before.others id other
  · rw [bindings]
    exact moved.only
  · rw [indexes, rows]
    apply storedRows_self
    intro skipped
    have held : (c.indexOrEmpty object_id).versions.get record.versionId = some record := by
      simpa using skipped
    rw [withReplica_stored held, ← indexOrEmpty_stored held]
    exact before.kept ((recordAt_eq c object_id record.versionId).trans held)
  · rw [bindings]
    exact sync_shows kept owned (withReplica_single own path) done

theorem publishReplica_settled (bundle : ReplicationExportBundle)
    (record : FileVersionRecord) (own : OwnLineage c key object_id ids)
    (solid : isBlank object_id = false) (object : record.objectId = object_id)
    (path : record.logicalPath = some key) (listed : record.versionId ∈ ids)
    (unselected : bundle.selectedIsPreferredHead = false) (r : Readings) :
    Completes (publishReplica r key bundle (c.indexOrEmpty object_id) record) c
      fun _ e => Settled key object_id (withReplica (c.indexOrEmpty object_id) record) c e := by
  have start : OwnChange key object_id (recordAt c object_id record.versionId = some record) c c :=
    ⟨fun _ _ => rfl, ⟨own.here, fun only => only⟩, fun _ => rfl⟩
  have pruning := completes_foldEach (f := pruneIndex key record)
    (fun _ _ d => OwnChange key object_id (recordAt c object_id record.versionId = some record) c d)
    c.loadAllVersionIndexes [] ∅ c (fun before index after paths d shape holds => by
      have loaded : index ∈ c.loadAllVersionIndexes := by
        rw [← List.nil_append c.loadAllVersionIndexes, shape]
        simp
      obtain ⟨changed, e, run⟩ := pruneIndex_returns key loaded record paths d
      have kept := pruneIndex_own own object listed loaded paths d holds
      rw [run] at kept
      exact ⟨changed, e, run, kept⟩) start
  unfold publishReplica pruneConflictingReplicationBundleVersions
  refine completes_bind (completes_get pruning) fun paths d before => ?_
  exact storeReplica_settled own solid object path unselected before r paths

end Publishing

section Receiving
variable {codec : Codec} {st : ContentStore} {s : Store} {free : String → Option Nat} {key : String}
  {bundle other : ReplicationExportBundle}

/-- What an import of a live replica asks of the content: a manifest of the key, all of its chunks,
    and a place for the manifest, unless it is there; what has its digest there is a manifest. -/
structure Receivable (codec : Codec) (st : ContentStore) (free : String → Option Nat)
    (key : String) (bundle : ReplicationExportBundle) : Prop where
  digest : hashHex codec bundle.manifestBytes = bundle.manifestHash
  manifest : ∃ manifest, codec.decodeManifest bundle.manifestBytes = some manifest ∧
    manifest.key = key ∧ ∀ chunk ∈ manifest.chunks, ∃ bytes,
      Stored st .chunk chunk.hash bytes ∧ bytes.length = chunk.sizeBytes
  parses : ∀ bytes, Stored st .manifest bundle.manifestHash bytes →
    hashHex codec bytes = bundle.manifestHash → (codec.decodeManifest bytes).isSome = true
  room : Readable codec st .manifest bundle.manifestHash ∨ ∃ target, selectWritePath codec st.pool
    (st.freeSpace free) bundle.manifestHash bundle.manifestBytes.length = .ok target

theorem checkReplicatedChunk_ok {chunk : ChunkRef} {bytes : Bytes}
    (stored : Stored st .chunk chunk.hash bytes) (size : bytes.length = chunk.sizeBytes) :
    checkReplicatedChunk st chunk = .ok () := by
  obtain ⟨path, entry, placed, found, rfl⟩ := stored
  unfold checkReplicatedChunk
  simp [placed, found, size, bind, Except.bind, pure, Except.pure]

theorem contentPath_returns {pool : StoragePool} {p : StoragePathRuntime} {hash : String}
    (member : p ∈ pool.paths) (available : p.available = true)
    (safe : manifestHashLooksSafeFilename hash = true) :
    ∃ path, pool.contentPath .manifest hash = .ok path := by
  have legacy : ∃ q, pool.legacyReadPath = some q := by
    unfold StoragePool.legacyReadPath
    split
    · exact ⟨_, rfl⟩
    · exact Option.isSome_iff_exists.mp (List.find?_isSome.mpr ⟨p, member, available⟩)
  have readable : ∃ q, pool.readPath .manifest hash = some q := by
    unfold StoragePool.readPath
    split
    · exact ⟨_, rfl⟩
    · exact legacy
  obtain ⟨q, shown⟩ := readable
  refine ⟨manifestFile q.config.id hash, ?_⟩
  rw [StoragePool.contentPath, shown]
  exact if_pos safe

theorem persist_returns (received : Receivable codec s.content (s.world.free 0) key bundle) :
    Ensures (persistStorageContent codec .manifest bundle.manifestHash bundle.manifestBytes) s
      fun result _ => ∃ outcome, result = .ok outcome := by
  have safe : manifestHashLooksSafeFilename bundle.manifestHash = true := by
    rw [← received.digest]
    exact hashHex_isHex codec _
  unfold persistStorageContent
  rcases received.room with ⟨path, entry, placed, found, whole⟩ | ⟨target, chosen⟩
  · refine ensures_get (ensures_lift (fun error failed => ?_) fun existing here => ?_)
    · rw [placed] at failed
      cases failed
    · rw [placed] at here
      cases here
      refine ensures_ite (fun _ => ⟨_, rfl⟩) fun absent => absurd ?_ absent
      rw [found, Option.any_some, beq_iff_eq]
      exact whole
  · obtain ⟨member, available, _, _⟩ := selectWritePath_ok chosen
    refine ensures_get (ensures_lift (fun error failed => ?_) fun existing _ => ?_)
    · obtain ⟨path, placed⟩ := contentPath_returns member available safe
      rw [placed] at failed
      cases failed
    refine ensures_ite (fun _ => ⟨_, rfl⟩) fun _ => ?_
    refine ensures_bind_ok rfl (ensures_lift (fun error failed => ?_) fun found _ => ?_)
    · have same := chosen.symm.trans failed
      cases same
    refine ensures_bind_ok (a := ()) rfl (ensures_lift (fun error failed => ?_) fun _ _ => ⟨_, rfl⟩)
    unfold contentPathInRuntime at failed
    simp [safe] at failed

theorem load_returns {hash : String} {bytes : Bytes} (stored : Stored st .manifest hash bytes)
    (parsed : (codec.decodeManifest bytes).isSome = true) :
    ∃ found, loadManifestByHash codec st hash = .ok found := by
  obtain ⟨path, entry, placed, found, rfl⟩ := stored
  obtain ⟨manifest, decoded⟩ := Option.isSome_iff_exists.mp parsed
  unfold loadManifestByHash
  split
  · exact ⟨none, rfl⟩
  · exact ⟨some manifest, by simp [placed, found, decoded]⟩

theorem mark_returns {hash : String} {bytes : Bytes}
    (stored : Stored s.content .manifest hash bytes)
    (parsed : (codec.decodeManifest bytes).isSome = true) :
    Ensures (markManifestLocallyOwned codec hash) s fun result t =>
      result = .ok () ∧ t.content = s.content := by
  have quiet : Ensures (markManifestLocallyOwned codec hash) s fun _ t => t.content = s.content :=
    (markOwned_quiet codec hash s).1
  refine ensures_and ?_ quiet
  unfold markManifestLocallyOwned
  refine ensures_ite (fun _ => rfl) fun _ => ?_
  refine ensures_bind_ok (a := ()) rfl (ensures_get ?_)
  obtain ⟨found, loaded⟩ := load_returns stored parsed
  refine ensures_lift (fun error failed => ?_) fun manifest _ => ?_
  · have same := loaded.symm.trans failed
    cases same
  · obtain ⟨t, run⟩ := forEach_modify_ok (f := fun (chunk : ChunkRef) (s : Store) =>
      { s with cachedChunks := s.cachedChunks.erase chunk.hash })
      (manifest.elim [] fun manifest => manifest.chunks)
      { s with ownedManifests := s.ownedManifests.insert hash }
    exact ensures_of_run run rfl

theorem stored_unique {kind : StorageContentKind} {hash : String} {bytes bytes' : Bytes}
    (one : Stored st kind hash bytes) (two : Stored st kind hash bytes') : bytes = bytes' := by
  obtain ⟨path, entry, placed, found, rfl⟩ := one
  obtain ⟨path', entry', placed', found', rfl⟩ := two
  rw [placed] at placed'
  cases placed'
  rw [found] at found'
  cases found'
  rfl

/-- What a stored manifest leaves of the content: the bundle's own bytes or earlier ones with the
    same digest under its hash, and everything else as it was. -/
structure Received (codec : Codec) (bundle : ReplicationExportBundle) (a b : ContentStore) :
    Prop where
  own : ∃ bytes, Stored b .manifest bundle.manifestHash bytes ∧
    hashHex codec bytes = bundle.manifestHash ∧ (codec.decodeManifest bytes).isSome = true
  others : ∀ kind hash, (kind, hash) ≠ (StorageContentKind.manifest, bundle.manifestHash) →
    SameReads kind hash a b

theorem Receivable.after {a b : ContentStore} (received : Received codec bundle a b)
    (next : Receivable codec a free key other) : Receivable codec b free key other where
  digest := next.digest
  manifest := by
    obtain ⟨manifest, decoded, same, chunks⟩ := next.manifest
    refine ⟨manifest, decoded, same, fun chunk listed => ?_⟩
    obtain ⟨bytes, stored, size⟩ := chunks chunk listed
    exact ⟨bytes, stored.same (received.others .chunk chunk.hash (by simp)), size⟩
  parses := by
    intro bytes stored whole
    by_cases here : other.manifestHash = bundle.manifestHash
    · obtain ⟨kept, own, _, parsed⟩ := received.own
      rw [here] at stored
      rw [stored_unique stored own]
      exact parsed
    · have same := received.others .manifest other.manifestHash (by simpa using here)
      exact next.parses bytes (stored.same same.symm) whole
  room := by
    by_cases here : other.manifestHash = bundle.manifestHash
    · obtain ⟨bytes, ⟨path, entry, placed, found, rfl⟩, whole, _⟩ := received.own
      rw [here]
      exact .inl ⟨path, entry, placed, found, whole⟩
    · have same := received.others .manifest other.manifestHash (by simpa using here)
      refine next.room.imp (sameReads_readable codec same) fun ⟨target, chosen⟩ => ⟨target, ?_⟩
      unfold selectWritePath ContentStore.freeSpace at chosen ⊢
      rw [same.paths, same.mounted]
      exact chosen

theorem accept_returns (live : bundle.manifestHash ≠ tombstoneManifestHash)
    (received : Receivable codec s.content (s.world.free 0) key bundle) :
    Ensures (acceptReplicationManifest codec key bundle) s fun result t =>
      (result = .ok () ∧ Received codec bundle s.content t.content) ∧ t.catalog = s.catalog := by
  refine ensures_and ?_ (acceptReplicationManifest_contentOnly codec key bundle s).catalog
  obtain ⟨manifest, decoded, same, chunks⟩ := received.manifest
  unfold acceptReplicationManifest
  rw [if_neg live]
  refine ensures_refuseIf (fun differs => absurd received.digest differs) fun _ => ?_
  rw [decoded]
  refine ensures_refuseIf (fun differs => absurd same differs) fun _ => ensures_get ?_
  refine ensures_bind_ok (forEach_lift_ok _ (fun chunk listed => ?_) s) ?_
  · obtain ⟨bytes, stored, size⟩ := chunks chunk listed
    exact checkReplicatedChunk_ok stored size
  have others : Ensures (persistStorageContent codec .manifest bundle.manifestHash
      bundle.manifestBytes) s fun _ t => ∀ kind hash,
        (kind, hash) ≠ (StorageContentKind.manifest, bundle.manifestHash) →
          SameReads kind hash s.content t.content :=
    fun kind hash differs => persistStorageContent_keepsRead differs bundle.manifestBytes s
  refine ensures_bind (ensures_and (persist_returns received)
    (ensures_and (persist_stored codec .manifest _ _ s) others)) ?_ ?_
  · intro outcome t ⟨_, stored, kept⟩
    have there : Received codec bundle s.content t.content := by
      refine ⟨?_, kept⟩
      rcases stored outcome rfl with written | ⟨bytes, now, before, whole⟩
      · exact ⟨_, written, received.digest, by rw [decoded]; rfl⟩
      · exact ⟨bytes, now, whole, received.parses bytes before whole⟩
    obtain ⟨bytes, now, _, parsed⟩ := there.own
    refine ensures_mono (mark_returns now parsed) fun result u ⟨returned, quiet⟩ => ⟨returned, ?_⟩
    rw [quiet]
    exact there
  · intro error t ⟨⟨outcome, returned⟩, _⟩
    cases returned

end Receiving

section Order
variable {codec : Codec} {s : Store} {key object_id version_id : String}
  {bundle : ReplicationExportBundle}

def arrival (codec : Codec) (world : World) (bundle : ReplicationExportBundle) (s : Store) :
    Except StoreError String × Store :=
  (importReplicationBundle codec bundle).run { s with world := world }

def ownRecord (bundle : ReplicationExportBundle) (key object_id version_id : String) :
    FileVersionRecord :=
  replicaRecord bundle object_id key version_id (bundle.createdAtUnix.getD 0)

structure Arrived (codec : Codec) (bundle : ReplicationExportBundle)
    (key object_id version_id : String) (st : ContentStore) (c : Catalog)
    (ended : Except StoreError String × Store) : Prop where
  returned : ended.1 = .ok version_id
  received : Received codec bundle st ended.2.content
  settled : Settled key object_id
    (withReplica (c.indexOrEmpty object_id) (ownRecord bundle key object_id version_id)) c
    ended.2.catalog

variable {ids : List String}

theorem import_arrives (replica : LiveReplica bundle key object_id version_id)
    (own : OwnLineage s.catalog key object_id ids) (listed : version_id ∈ ids)
    (lands : (s.catalog.current.get key).isSome = true ∨ Unclaimed s.catalog key object_id)
    (received : Receivable codec s.content (s.world.free 0) key bundle) :
    Arrived codec bundle key object_id version_id s.content s.catalog
      ((importReplicationBundle codec bundle).run s) := by
  obtain ⟨time, dated⟩ := Option.isSome_iff_exists.mp replica.dated
  have named : replicationVersionId bundle (s.world.nanos 0) = .ok version_id := by
    unfold replicationVersionId
    rw [replica.version]
  have path : bundle.logicalPath.getD bundle.key = key := replica.path
  suffices ended : Ensures (importReplicationBundle codec bundle) s fun result t =>
      Arrived codec bundle key object_id version_id s.content s.catalog (result, t) from ended
  unfold importReplicationBundle
  refine ensures_bind_ok (a := s.world.nanos 0) rfl ?_
  rw [named]
  refine ensures_bind_ok (a := version_id) rfl (ensures_bind_ok (a := s.world.seconds 0) rfl ?_)
  rw [path, dated]
  refine ensures_bind (accept_returns replica.live received) ?_ ?_
  · intro _ u ⟨⟨_, stored⟩, catalog⟩
    refine ensures_get ?_
    rw [choose_own replica (catalog ▸ own) (catalog ▸ lands) listed]
    refine ensures_bind_ok (a := object_id) rfl (ensures_bind_ok (a := u.world.seconds 0) rfl ?_)
    refine ensures_get (ensures_bind_ok (a := (unixTs.run u).2.nextReadings) rfl ?_)
    have record : ownRecord bundle key object_id version_id =
        replicaRecord bundle object_id key version_id time := by
      rw [ownRecord, dated, Option.getD_some]
    obtain ⟨_, c, run, settled⟩ := publishReplica_settled bundle
      (ownRecord bundle key object_id version_id) own replica.solid rfl rfl listed
      replica.unselected ⟨u.world.seconds 1, time, u.world.uuids 0⟩
    rw [record, ← catalog] at run
    refine ensures_bind_ok (onCatalog_run run) ?_
    exact ensures_of_run (pure_run _ _) ⟨rfl, stored, settled⟩
  · intro error u ⟨⟨returned, _⟩, _⟩
    cases returned

theorem settled_own {c d : Catalog} {record : FileVersionRecord}
    (own : OwnLineage c key object_id ids) (path : record.logicalPath = some key)
    (settled : Settled key object_id (withReplica (c.indexOrEmpty object_id) record) c d) :
    OwnLineage d key object_id ids where
  here := by
    intro entry bound
    obtain ⟨live, _, shown⟩ := settled.shows
    rw [bound] at shown
    cases live with
    | none => cases shown
    | some found =>
      cases shown
      exact withReplica_objectId.trans (indexOrEmpty_objectId c object_id)
  single := by
    rw [indexOrEmpty_of_row settled.row]
    exact (withReplica_single own path).imp_left settled.only
  preferred := by
    intro index stored
    rw [settled.row] at stored
    cases stored
    exact withReplica_preferred record own
  apart := by
    intro id index stored foreign
    rw [settled.others id foreign] at stored
    exact own.apart id index stored foreign

theorem shows_unique {a b : FileVersionIndex} {left right : Option CurrentObjectEntry}
    (same : SameIndex a b) (object : a.objectId = b.objectId) (shows_a : Shows key a left)
    (shows_b : Shows key b right) : left = right := by
  have live : livePreferredRecord key a = livePreferredRecord key b := by
    unfold livePreferredRecord
    rw [same.preferred, funext same.versions]
  obtain ⟨found_a, live_a, rfl⟩ := shows_a
  obtain ⟨found_b, live_b, rfl⟩ := shows_b
  rw [live, live_b] at live_a
  cases live_a
  rw [object]

theorem both_arrive {first second : World} {a b : ReplicationExportBundle} {id_a id_b : String}
    (replica_a : LiveReplica a key object_id id_a) (replica_b : LiveReplica b key object_id id_b)
    (own : OwnLineage s.catalog key object_id ids) (listed_a : id_a ∈ ids) (listed_b : id_b ∈ ids)
    (lands : Unclaimed s.catalog key object_id ∨ (s.catalog.current.get key).isSome = true ∧
      ((arrival codec first a s).2.catalog.current.get key).isSome = true)
    (received_a : Receivable codec s.content (first.free 0) key a)
    (received_b : Receivable codec s.content (second.free 0) key b) :
    let ended := arrival codec second b (arrival codec first a s).2
    ((arrival codec first a s).1 = .ok id_a ∧ ended.1 = .ok id_b) ∧
      Settled key object_id (withReplica (withReplica (s.catalog.indexOrEmpty object_id)
        (ownRecord a key object_id id_a)) (ownRecord b key object_id id_b))
      s.catalog ended.2.catalog := by
  intro ended
  have one : Arrived codec a key object_id id_a s.content s.catalog (arrival codec first a s) :=
    import_arrives (s := { s with world := first }) replica_a own listed_a
      (lands.symm.imp_left fun bound => bound.1) received_a
  have lands_b : ((arrival codec first a s).2.catalog.current.get key).isSome = true ∨
      Unclaimed (arrival codec first a s).2.catalog key object_id := by
    refine lands.symm.imp (fun bound => bound.2) fun unclaimed id index stored foreign => ?_
    rw [one.settled.others id foreign] at stored
    exact unclaimed id index stored foreign
  have two : Arrived codec b key object_id id_b (arrival codec first a s).2.content
      (arrival codec first a s).2.catalog ended :=
    import_arrives (s := { (arrival codec first a s).2 with world := second }) replica_b
      (settled_own own rfl one.settled) listed_b lands_b (received_b.after one.received)
  have settled := two.settled
  rw [indexOrEmpty_of_row one.settled.row] at settled
  exact ⟨⟨one.returned, two.returned⟩,
    fun id other => (settled.others id other).trans (one.settled.others id other),
    fun only => settled.only (one.settled.only only), settled.row, settled.shows⟩

structure SameEnd (key : String) (c d : Catalog) : Prop where
  versions : ∀ id version_id, recordAt c id version_id = recordAt d id version_id
  heads : ∀ id, (c.indexes.rows.get id).map
      (fun index => (index.headVersionIds, index.preferredHeadVersionId)) =
    (d.indexes.rows.get id).map fun index => (index.headVersionIds, index.preferredHeadVersionId)
  binding : c.current.get key = d.current.get key

theorem settled_same {base c d : Catalog} {index other : FileVersionIndex}
    (same : SameIndex index other) (object : index.objectId = other.objectId)
    (one : Settled key object_id index base c) (two : Settled key object_id other base d) :
    SameEnd key c d where
  versions := by
    intro id version_id
    by_cases here : id = object_id
    · subst here
      rw [recordAt_of_row one.row, recordAt_of_row two.row]
      exact same.versions version_id
    · unfold recordAt
      rw [one.others id here, two.others id here]
  heads := by
    intro id
    by_cases here : id = object_id
    · subst here
      rw [one.row, two.row, Option.map_some, Option.map_some, same.heads, same.preferred]
    · rw [one.others id here, two.others id here]
  binding := shows_unique same object one.shows two.shows

/-- Two live replicas of one object and path that a store can receive are imported in either order
    with the same result, unless the first import takes the path from the lineage and another
    object has been at the path. -/
theorem version_imports_commute (codec : Codec) (s : Store) (a b : ReplicationExportBundle)
    (key object_id id_a id_b : String) (w x y z : World) (distinct : id_a ≠ id_b)
    (replica_a : LiveReplica a key object_id id_a) (replica_b : LiveReplica b key object_id id_b)
    (own : OwnLineage s.catalog key object_id [id_a, id_b])
    (lands : Unclaimed s.catalog key object_id ∨ (s.catalog.current.get key).isSome = true ∧
      ((arrival codec w a s).2.catalog.current.get key).isSome = true ∧
      ((arrival codec y b s).2.catalog.current.get key).isSome = true)
    (received_a : ∀ world ∈ [w, z], Receivable codec s.content (world.free 0) key a)
    (received_b : ∀ world ∈ [x, y], Receivable codec s.content (world.free 0) key b) :
    let ab := arrival codec x b (arrival codec w a s).2
    let ba := arrival codec z a (arrival codec y b s).2
    ((arrival codec w a s).1 = .ok id_a ∧ ab.1 = .ok id_b) ∧
      ((arrival codec y b s).1 = .ok id_b ∧ ba.1 = .ok id_a) ∧
      SameEnd key ab.2.catalog ba.2.catalog := by
  intro ab ba
  obtain ⟨passed_ab, one⟩ := both_arrive replica_a replica_b own (by simp) (by simp)
    (lands.imp_right fun bound => ⟨bound.1, bound.2.1⟩) (received_a w (by simp))
    (received_b x (by simp))
  obtain ⟨passed_ba, two⟩ := both_arrive replica_b replica_a own (by simp) (by simp)
    (lands.imp_right fun bound => ⟨bound.1, bound.2.2⟩) (received_b y (by simp))
    (received_a z (by simp))
  refine ⟨passed_ab, passed_ba, settled_same (withReplica_comm distinct) ?_ one two⟩
  rw [withReplica_objectId, withReplica_objectId, withReplica_objectId, withReplica_objectId]

/-- A deleted object at `a`, and at the same path a living one with a tombstone beside its
    preferred version. -/
def reusedPath : Store :=
  runAll (exec emptyManifestsCodec) emptyNode
    [stepAt 10 100 "m" (.importMetadata ⟨"a", some "obj-1", none,
      [⟨"x", tombstoneManifestHash, some "a", [], .confirmed, 3, none, none, none⟩], []⟩),
     stepAt 11 200 "n" (.importMetadata ⟨"a", some "obj-2", none,
      [⟨"t", tombstoneManifestHash, some "a", [], .confirmed, 4, none, none, none⟩,
       ⟨"p", "aa", some "a", [], .confirmed, 5, none, none, none⟩], []⟩)]

/-- The child of the preferred version leaves the tombstone as the best head, so the path
    is unbound and the next version lands in the deleted object that had the path before. -/
theorem second_replica_lands_in_other_lineage :
    let child := replicaOf "obj-2" "v1" ["p"] .provisional false
    let root := replicaOf "obj-2" "v2" [] .provisional false
    let world := emptyNode.world
    let child_first := arrival emptyManifestsCodec world child reusedPath
    let then_root := arrival emptyManifestsCodec world root child_first.2
    let root_first := arrival emptyManifestsCodec world root reusedPath
    let then_child := arrival emptyManifestsCodec world child root_first.2
    (objectIdForKey reusedPath.catalog.current "a" = some "obj-2" ∧
      ∀ index ∈ reusedPath.catalog.loadAllVersionIndexes,
        index.versions.get "v1" = none ∧ index.versions.get "v2" = none) ∧
      (child_first.1 = .ok "v1" ∧ then_root.1 = .ok "v2" ∧ root_first.1 = .ok "v2" ∧
        then_child.1 = .ok "v1") ∧
      (recordAt then_root.2.catalog "obj-1" "v2").isSome = true ∧
      recordAt then_root.2.catalog "obj-2" "v2" = none ∧
      (recordAt then_child.2.catalog "obj-2" "v2").isSome = true := by
  decide +kernel

def recreatedPath : Store :=
  runAll (exec emptyManifestsCodec) emptyNode
    [stepAt 10 100 "m" (.importMetadata ⟨"a", some "obj-1", none,
      [⟨"x", tombstoneManifestHash, some "a", [], .confirmed, 3, none, none, none⟩], []⟩),
     stepAt 11 200 "n" (.importMetadata ⟨"a", some "obj-2", none,
      [⟨"p", "aa", some "a", [], .confirmed, 5, none, none, none⟩], []⟩)]

theorem recreatedPath_own : OwnLineage recreatedPath.catalog "a" "obj-2" ["v1", "v2"] := by
  have rows : ∀ index ∈ recreatedPath.catalog.loadAllVersionIndexes,
      index.preferredHeadVersionId = choosePreferredHead index ∧
        ∀ version_id ∈ ["v1", "v2"], index.versions.get version_id = none := by
    decide +kernel
  have listed : ∀ {id index}, recreatedPath.catalog.indexes.rows.get id = some index →
      index ∈ recreatedPath.catalog.loadAllVersionIndexes := by
    intro id index stored
    rw [mem_loadAllVersionIndexes, recreatedPath.catalog.indexes.objectId_eq stored]
    exact stored
  refine ⟨?_, .inr ?_, fun index stored => chosen_stored (rows index (listed stored)).1,
    fun id index stored _ => (rows index (listed stored)).2⟩
  · have bound : objectIdForKey recreatedPath.catalog.current "a" = some "obj-2" := by decide +kernel
    intro entry shown
    rw [objectIdForKey, shown] at bound
    exact Option.some.inj bound
  · have paths : ∀ record ∈ (recreatedPath.catalog.indexOrEmpty "obj-2").versions.values,
        record.logicalPath.getD "a" = "a" := by
      decide +kernel
    intro version_id record stored
    exact paths record ((mem_values _ _).mpr ⟨version_id, stored⟩)

theorem emptyNode_own (key object_id : String) (ids : List String) :
    OwnLineage emptyNode.catalog key object_id ids where
  here := by
    intro entry bound
    cases bound
  single := by
    left
    intro path entry bound
    cases bound
  preferred := by
    intro index stored
    cases stored
  apart := by
    intro id index stored
    cases stored

theorem replicaOf_live (object_id version_id : String) (parents : List String)
    (state : VersionConsistencyState) (solid : isBlank object_id = false) :
    LiveReplica (replicaOf object_id version_id parents state false) "a" object_id version_id where
  object := by simp [nonemptyObjectId, replicaOf, solid]
  path := rfl
  version := rfl
  live := by
    change "8b66d6e5a59ceaa78f396aa95b106a8f88f3f0af23b30cb58ec2d96dfacb449a" ≠ tombstoneManifestHash
    decide
  unselected := rfl
  dated := rfl

theorem replicaOf_receivable (object_id version_id : String) (parents : List String)
    (state : VersionConsistencyState) :
    Receivable emptyManifestsCodec emptyNode.content (emptyNode.world.free 0) "a"
      (replicaOf object_id version_id parents state false) where
  digest := by
    change hashHex emptyManifestsCodec (textBytes (prettyManifest ⟨"a", 0, []⟩)) =
      "8b66d6e5a59ceaa78f396aa95b106a8f88f3f0af23b30cb58ec2d96dfacb449a"
    decide +kernel
  manifest := by
    refine ⟨⟨"a", 0, []⟩, ?_, rfl, by simp⟩
    change emptyManifestsCodec.decodeManifest (textBytes (prettyManifest ⟨"a", 0, []⟩)) = _
    decide +kernel
  parses := by
    intro bytes stored
    obtain ⟨path, entry, found, _⟩ := stored.file
    cases found
  room := by
    refine .inr ⟨⟨⟨"legacy-primary", .active, 1, 0⟩, true⟩, ?_⟩
    rfl

def arrivedInTurn (first second : ReplicationExportBundle) (s : Store) : Catalog :=
  (arrival emptyManifestsCodec emptyNode.world second
    (arrival emptyManifestsCodec emptyNode.world first s).2).2.catalog

/-- On the empty node the path is free, on the reused one it stays with its second object. -/
theorem version_imports_commute_on_reused_path :
    let child := replicaOf "obj-2" "v1" ["p"] .provisional false
    let root := replicaOf "obj-2" "v2" [] .confirmed false
    SameEnd "a" (arrivedInTurn child root emptyNode) (arrivedInTurn root child emptyNode) ∧
      (recordAt recreatedPath.catalog "obj-1" "x").map (fun record => record.logicalPath) =
        some (some "a") ∧
      SameEnd "a" (arrivedInTurn child root recreatedPath)
        (arrivedInTurn root child recreatedPath) := by
  intro child root
  have received : ∀ world ∈ [emptyNode.world, emptyNode.world],
      Receivable emptyManifestsCodec emptyNode.content (world.free 0) "a" child ∧
        Receivable emptyManifestsCodec emptyNode.content (world.free 0) "a" root := by
    intro world listed
    have here : world = emptyNode.world := by simpa using listed
    rw [here]
    exact ⟨replicaOf_receivable _ _ _ _, replicaOf_receivable _ _ _ _⟩
  have stays : (recreatedPath.catalog.current.get "a").isSome = true ∧
      ((arrival emptyManifestsCodec emptyNode.world child recreatedPath).2.catalog.current.get
        "a").isSome = true ∧
      ((arrival emptyManifestsCodec emptyNode.world root recreatedPath).2.catalog.current.get
        "a").isSome = true := by
    decide +kernel
  have live_child := replicaOf_live "obj-2" "v1" ["p"] .provisional (by decide)
  have live_root := replicaOf_live "obj-2" "v2" [] .confirmed (by decide)
  have on_empty := version_imports_commute emptyManifestsCodec emptyNode child root "a" "obj-2"
    "v1" "v2" emptyNode.world emptyNode.world emptyNode.world emptyNode.world (by decide)
    live_child live_root (emptyNode_own _ _ _)
    (.inl fun id index stored => by cases stored)
    (fun world listed => (received world listed).1) (fun world listed => (received world listed).2)
  have on_reused := version_imports_commute emptyManifestsCodec recreatedPath child root "a" "obj-2"
    "v1" "v2" emptyNode.world emptyNode.world emptyNode.world emptyNode.world (by decide)
    live_child live_root recreatedPath_own (.inr stays)
    (fun world listed => (received world listed).1) (fun world listed => (received world listed).2)
  exact ⟨on_empty.2.2, by decide +kernel, on_reused.2.2⟩

end Order

end BerryKeepImportCommutation
