import BerryKeep.ObjectIdentity

/-!
The current namespace and the version graph. Every operation that binds a path
through the index of an object shows the live preferred head of that index. A
rename binds the renamed manifest itself, and the renamed version need not be
the preferred one: another head may have the better state, the same second with
the higher version id, or be a tombstone.
-/
namespace BerryKeepNamespaceAgreement
open FiniteTable TextOperations StatefulProgram BerryKeepContentCodec BerryKeepCatalog
  BerryKeepVersionGraph BerryKeepCurrentNamespace BerryKeepNodeStore BerryKeepStoreOperations
  BerryKeepPathMutations BerryKeepBundleExchange BerryKeepStoreCalls BerryKeepObjectIdentity

def PrefersManifest (index : FileVersionIndex) (manifest_hash : String) : Prop :=
  ∃ head record, index.preferredHeadVersionId = some head ∧
    index.versions.get head = some record ∧ record.manifestHash ≠ tombstoneManifestHash ∧
    record.manifestHash = manifest_hash

def NamespaceAgrees (c : Catalog) : Prop :=
  ∀ path entry, c.current.get path = some entry →
    ∃ index, c.indexes.rows.get entry.objectId = some index ∧
      PrefersManifest index entry.manifestHash

section Syncs
variable {c d : Catalog} {s t : Store} {key object_id : String} {index : FileVersionIndex}
  {persist : Bool}

theorem preferred_found
    (stored : ∀ head, index.preferredHeadVersionId = some head →
      ∃ record, index.versions.get head = some record)
    (error : StoreError) : syncCurrentStateForKeyFromIndex c.current key index ≠ .error error := by
  have found : ∃ live, livePreferredRecord key index = .ok live := by
    unfold livePreferredRecord
    cases preferred : index.preferredHeadVersionId with
    | none => exact ⟨none, rfl⟩
    | some head =>
      obtain ⟨record, held⟩ := stored head preferred
      dsimp only
      rw [held]
      dsimp only
      split
      · exact ⟨none, rfl⟩
      · exact ⟨some record, rfl⟩
  obtain ⟨live, found⟩ := found
  intro lost
  unfold syncCurrentStateForKeyFromIndex at lost
  rw [found] at lost
  cases live with
  | none => cases lost
  | some record =>
    dsimp only at lost
    split at lost
    · cases lost
    · split at lost <;> cases lost

theorem chosen_stored (chosen : index.preferredHeadVersionId = choosePreferredHead index)
    (head : String) (preferred : index.preferredHeadVersionId = some head) :
    ∃ record, index.versions.get head = some record := by
  obtain ⟨record, stored, _⟩ := choosePreferredHead_some (chosen.symm.trans preferred)
  exact ⟨record, stored⟩

theorem live_prefers {record : FileVersionRecord}
    (live : livePreferredRecord key index = .ok (some record)) :
    PrefersManifest index record.manifestHash := by
  obtain ⟨head, preferred, stored, alive⟩ := livePreferredRecord_some live
  exact ⟨head, record, preferred, stored, alive, rfl⟩

theorem rebound_agrees (result : Rebound c d key object_id index persist)
    (object : index.objectId = object_id)
    (stored : persist = false → c.indexes.rows.get object_id = some index)
    (chosen : persist = true → index.preferredHeadVersionId = choosePreferredHead index)
    (free : ¬BusyElsewhere c.current key object_id) (agrees : NamespaceAgrees c) :
    NamespaceAgrees d := by
  -- A path that keeps its binding is bound to another object, whose row is kept as well.
  have others : ∀ rows, rows = storedRows c persist object_id index → ∀ path entry,
      unbound object_id (c.current.get path) = some entry →
      ∃ found, rows.get entry.objectId = some found ∧ PrefersManifest found entry.manifestHash := by
    intro rows written path entry left
    obtain ⟨bound, other⟩ := unbound_some left
    rw [written, storedRows_other other]
    exact agrees path entry bound
  cases result with
  | refused current rows =>
    intro path entry bound
    rw [current] at bound
    rw [rows]
    exact agrees path entry bound
  | broken error lost current rows =>
    cases persist with
    | true => exact absurd lost (preferred_found (chosen_stored (chosen rfl)) error)
    | false =>
      intro path entry bound
      rw [current] at bound
      rw [rows]
      exact agrees path entry bound
  | done changed synced rows =>
    intro path entry bound
    have change := sync_cases synced
    generalize d.current = next at change bound
    cases change with
    | cleared _ all =>
      rw [all path, object] at bound
      exact others _ rows path entry bound
    | kept _ _ busy => exact absurd (object ▸ busy) free
    | bound record live here elsewhere =>
      by_cases at_key : path = key
      · rw [at_key, here] at bound
        cases bound
        rw [rows, object, storedRows_self stored]
        exact ⟨index, rfl, live_prefers live⟩
      · rw [elsewhere path at_key, object] at bound
        exact others _ rows path entry bound

end Syncs

section Stores
variable {s t : Store} {key object_id : String} {index : FileVersionIndex}

structure Sound (s : Store) : Prop where
  agrees : NamespaceAgrees s.catalog
  unique : UniqueObjects s.catalog.current
  fresh : GeneratedFresh s

theorem sound_framed (same : SameCore s t) (sound : Sound s) : Sound t where
  agrees := by
    intro path entry bound
    rw [same.current] at bound
    rw [same.rows]
    exact sound.agrees path entry bound
  unique := same.current ▸ sound.unique
  fresh := by
    obtain ⟨k, later⟩ := same.later
    apply fresh_later sound.fresh later
    intro path entry bound
    exact .inl ⟨path, entry, same.current ▸ bound, rfl⟩

theorem target_sound {uuid : String} {persist : Bool} (drawn : Draws s t uuid)
    (result : Rebound s.catalog t.catalog key (targetObject s key) index persist)
    (object : index.objectId = targetObject s key)
    (stored : persist = false → s.catalog.indexes.rows.get (targetObject s key) = some index)
    (chosen : persist = true → index.preferredHeadVersionId = choosePreferredHead index)
    (sound : Sound s) : Sound t where
  agrees := rebound_agrees result object stored chosen
    (target_free sound.unique sound.fresh key) sound.agrees
  unique := rebound_unique result sound.unique
  fresh := target_fresh sound.fresh drawn result object

theorem written_sound {manifest_hash version_id : String} {create : Bool}
    (written : Written s t key (targetObject s key) manifest_hash version_id create)
    (sound : Sound s) : Sound t := by
  have object := indexOrEmpty_objectId s.catalog (targetObject s key)
  cases written with
  | again r drawn existing stored tail =>
    have loaded := indexOrEmpty_stored stored
    exact target_sound drawn tail.rebound object (fun _ => loaded) (fun wanted => by cases wanted)
      sound
  | added r drawn record new tail =>
    exact target_sound drawn tail.rebound object (fun skipped => by cases skipped) (fun _ => rfl)
      sound

theorem copied_sound {target : String} {create : Bool} (copied : Copied s t target create)
    (sound : Sound s) : Sound t := by
  obtain ⟨r, drawn, record, _, tail⟩ := copied
  exact target_sound drawn tail.rebound (indexOrEmpty_objectId s.catalog (targetObject s target))
    (fun skipped => by cases skipped) (fun _ => rfl) sound

theorem targetObject_bound (bound : objectIdForKey s.catalog.current key = some object_id) :
    targetObject s key = object_id := by
  unfold targetObject
  rw [bound]
  rfl

theorem confirmed_sound {version_id : String} (confirmed : Confirmed s t key version_id)
    (sound : Sound s) : Sound t := by
  obtain ⟨r, drawn, object_id, index, version, bound, loaded, _, _, tail⟩ := confirmed
  have target := targetObject_bound bound
  subst target
  have object : index.objectId = targetObject s key := s.catalog.indexes.objectId_eq loaded
  exact target_sound drawn tail.rebound object (fun skipped => by cases skipped) (fun _ => rfl) sound

end Stores

section Renames
variable {s t : Store} {index : FileVersionIndex} {record : FileVersionRecord}

/-- No head that stays outranks the renamed version, unless it has the same manifest. -/
def RenamedPreferred (codec : Codec) (s : Store) (from_path to_path : String) : Prop :=
  ∀ entry index source_head manifest short, s.catalog.current.get from_path = some entry →
    liveHead s.catalog entry.objectId = some (index, source_head) →
    loadManifestByHash codec s.content source_head.manifestHash = .ok (some manifest) →
    shortHash (clonedManifestHash codec manifest to_path) = .ok short →
    let renamed := plannedRename codec s to_path entry.objectId source_head manifest short
    ∀ other ∈ index.headRecords, other.versionId ≠ source_head.versionId →
      other.versionId ≠ renamed.versionId →
        PrecedesAsHead renamed other ∨ other.manifestHash = renamed.manifestHash

theorem extended_headRecords {found : FileVersionRecord}
    (listed : found ∈ (index.extended record).headRecords) :
    found = record ∨ (found ∈ index.headRecords ∧ found.versionId ∉ record.parentVersionIds ∧
      found.versionId ≠ record.versionId) := by
  obtain ⟨head, stored⟩ := mem_headRecords.mp listed
  change (index.versions.put record.versionId record).get found.versionId = some found at stored
  change found.versionId ∈ index.patchedHeads record.parentVersionIds record.versionId at head
  rw [get_put] at stored
  split at stored
  · cases stored
    exact .inl rfl
  · next other =>
    right
    unfold FileVersionIndex.patchedHeads at head
    rw [List.mem_insertionSort, List.mem_insert_iff, List.mem_filter, List.mem_dedup] at head
    obtain same | ⟨before, kept⟩ := head
    · exact absurd same other
    · exact ⟨mem_headRecords.mpr ⟨before, stored⟩, by simpa using kept, other⟩

theorem record_mem_headRecords (index : FileVersionIndex) (record : FileVersionRecord) :
    record ∈ (index.extended record).headRecords := by
  apply mem_headRecords.mpr
  constructor
  · change record.versionId ∈ index.patchedHeads record.parentVersionIds record.versionId
    unfold FileVersionIndex.patchedHeads
    rw [List.mem_insertionSort, List.mem_insert_iff]
    exact .inl rfl
  · exact get_put_self _ _ _

theorem extended_prefers (alive : record.manifestHash ≠ tombstoneManifestHash)
    (best : ∀ other ∈ index.headRecords, other.versionId ∉ record.parentVersionIds →
      other.versionId ≠ record.versionId →
        PrecedesAsHead record other ∨ other.manifestHash = record.manifestHash) :
    PrefersManifest (index.extended record) record.manifestHash := by
  have added := record_mem_headRecords index record
  have chosen : (index.extended record).preferredHeadVersionId =
      choosePreferredHead (index.extended record) := rfl
  cases preferred : choosePreferredHead (index.extended record) with
  | none =>
    rw [choosePreferredHead_none.mp preferred] at added
    cases added
  | some head =>
    obtain ⟨top, stored, listed, first⟩ := choosePreferredHead_some preferred
    have id := (index.extended record).keyed head top stored
    subst id
    have same : top.manifestHash = record.manifestHash := by
      rcases extended_headRecords (mem_headRecords.mpr ⟨listed, stored⟩) with
        rfl | ⟨before, kept, other⟩
      · rfl
      · rcases best top before kept other with outranks | same
        · exact absurd (precedes_antisymm (first record added) outranks) other
        · exact same
    exact ⟨top.versionId, top, chosen.trans preferred, stored, same ▸ alive, same⟩

theorem move_agrees {c d : Catalog} {from_path to_path hash tombstone_id : String}
    {entry : CurrentObjectEntry} {tombstone : FileVersionIndex}
    (shown : c.current.get from_path = some entry)
    (current : d.current = (c.current.del from_path).put to_path ⟨hash, entry.objectId⟩)
    (rows : d.indexes.rows = (c.indexes.rows.put entry.objectId index).put tombstone_id tombstone)
    (renamed : PrefersManifest index hash) (unique : UniqueObjects c.current)
    (apart : ∀ path other, c.current.get path = some other → other.objectId ≠ tombstone_id)
    (agrees : NamespaceAgrees c) : NamespaceAgrees d := by
  intro path found bound
  rw [current, get_put] at bound
  split at bound
  · cases bound
    refine ⟨index, ?_, renamed⟩
    rw [rows, get_put_other _ _ (apart from_path entry shown), get_put_self]
  · obtain ⟨away, bound⟩ := get_del_some bound
    have other : found.objectId ≠ entry.objectId :=
      fun same => away (unique path from_path found entry bound shown same)
    rw [rows, get_put_other _ _ (apart path found bound), get_put_other _ _ other]
    exact agrees path found bound

theorem move_fresh {from_path to_path hash uuid : String} {entry : CurrentObjectEntry}
    (shown : s.catalog.current.get from_path = some entry) (drawn : Draws s t uuid)
    (current : t.catalog.current =
      (s.catalog.current.del from_path).put to_path ⟨hash, entry.objectId⟩)
    (fresh : GeneratedFresh s) : GeneratedFresh t := by
  obtain ⟨k, _, _, _, later⟩ := drawn
  apply fresh_later fresh later
  intro path found bound
  left
  rw [current, get_put] at bound
  split at bound
  · cases bound
    exact ⟨from_path, entry, shown, rfl⟩
  · exact ⟨path, found, (get_del_some bound).2, rfl⟩

theorem renameMedia_sound (codec : Codec) (s : Store) (overwrite : Bool)
    (from_path to_path : String) (best : RenamedPreferred codec s from_path to_path)
    (sound : Sound s) : Sound ((renameMedia codec overwrite from_path to_path).run s).2 := by
  have unique := renameMedia_unique codec s overwrite from_path to_path sound.unique
  rcases renameMedia_moved codec overwrite s from_path to_path with
    same | ⟨entry, index, source_head, _, shown, _, alive, moved⟩
  · exact sound_framed (unpublished_sameCore same) sound
  · cases moved with
    | stopped later catalog =>
      apply sound_framed ⟨?_, ?_, later⟩ sound
      · rw [catalog]
      · rw [catalog]
    | moved r drawn manifest short loaded named mid current rows _ _ catalog =>
      have now := congrArg Catalog.current catalog
      rw [recordedIf_current, current] at now
      have stored := congrArg (fun c : Catalog => c.indexes.rows) catalog
      rw [recordedIf_indexes, rows] at stored
      have renamed : PrefersManifest (index.extended (plannedRename codec s to_path entry.objectId
          source_head manifest short)) (clonedManifestHash codec manifest to_path) := by
        apply extended_prefers (hashHex_ne_tombstone codec _)
        intro other listed kept differs
        apply best entry index source_head manifest short shown alive loaded named other listed
          ?_ differs
        simpa [plannedRename, renamedRecord] using kept
      exact ⟨move_agrees shown now stored renamed sound.unique (sound.fresh.unbound 0) sound.agrees,
        unique, move_fresh shown drawn now sound.fresh⟩

end Renames

section Result

def renamesPreferred (codec : Codec) : Conditions where
  putting _ _ _ _ := True
  clearing _ _ _ := True
  moving := RenamedPreferred codec
  importing _ _ := False
  replicating _ _ := False
  dropping _ _ _ := False

theorem put_sound (codec : Codec) (s : Store) (key : String) (payload : Bytes)
    (options : PutOptions) (sound : Sound s) :
    Sound ((putObjectVersioned codec key payload options).run s).2 := by
  rcases put_written codec s key payload options with same | ⟨version_id, _, written⟩
  · exact sound_framed (unpublished_sameCore same) sound
  · exact written_sound written sound

theorem tombstone_sound (s : Store) (key : String) (options : PutOptions) (sound : Sound s) :
    Sound ((tombstoneObjectSingle key options).run s).2 := by
  rcases tombstone_written s key options with same | written
  · exact sound_framed (unpublished_sameCore same) sound
  · exact written_sound written sound

theorem commit_sound (s : Store) (key version_id : String) (sound : Sound s) :
    Sound ((commitVersion key version_id).run s).2 := by
  rcases commit_confirmed s key version_id with same | confirmed
  · exact sound_framed (unpublished_sameCore same) sound
  · exact confirmed_sound confirmed sound

theorem sound_invariant (codec : Codec) : StoreInvariant codec (renamesPreferred codec) Sound where
  framed := fun _ _ same sound => sound_framed same sound
  copied := fun _ _ _ _ copied sound => copied_sound copied sound
  put := fun s key payload options _ sound => put_sound codec s key payload options sound
  commit := commit_sound
  tombstone := fun s key options _ sound => tombstone_sound s key options sound
  rename := renameMedia_sound codec
  importMetadata := fun _ _ never _ => never.elim
  importReplication := fun _ _ never _ => never.elim
  drop := fun _ _ _ never _ => never.elim

/-- In every run of puts, commits, tombstones, renames, copies and restores from an empty
    store, with fresh ids in every call and renames whose version no other head outranks,
    every bound path shows the live preferred head of its object. -/
theorem namespace_agrees_in_every_run (codec : Codec) (s : Store) (steps : List Step)
    (start : s.catalog = Catalog.empty)
    (allowed : AllSteps (exec codec) (fun t step => GeneratedFresh (step.start t) ∧
      (renamesPreferred codec).Allow codec (step.start t) step.call) s steps) :
    ∀ path entry, (runAll (exec codec) s steps).catalog.current.get path = some entry →
      ∃ index head record,
        (runAll (exec codec) s steps).catalog.indexes.rows.get entry.objectId = some index ∧
        index.preferredHeadVersionId = some head ∧ index.versions.get head = some record ∧
        record.manifestHash ≠ tombstoneManifestHash ∧
        record.manifestHash = entry.manifestHash := by
  have first : NamespaceAgrees s.catalog ∧ UniqueObjects s.catalog.current := by
    rw [start]
    constructor
    · intro path entry bound
      cases bound
    · intro p q a b bound
      cases bound
  have last := run_invariant
    (fun t => NamespaceAgrees t.catalog ∧ UniqueObjects t.catalog.current)
    (fun t step met holds => by
      have sound := call_invariant (sound_invariant codec) (step.start t) step.call met.2
        ⟨holds.1, holds.2, met.1⟩
      exact ⟨sound.agrees, sound.unique⟩) steps s allowed first
  intro path entry bound
  obtain ⟨index, stored, head, record, preferred⟩ := last.1 path entry bound
  exact ⟨index, head, record, stored, preferred⟩

def putEmpty (second nano : Nat) : Step :=
  stepAt second nano "p" (.put "a" [] PutOptions.default)

def renameAway (second nano : Nat) : Step := stepAt second nano "r" (.rename "a" "b" false)

theorem putEmpty_shown :
    let c := (exec emptyManifestsCodec (putEmpty 10 100) emptyNode).catalog
    (c.current.get "a").map (fun entry => entry.objectId) = some "obj-p" ∧
      (liveHead c "obj-p").map (fun found =>
        (found.1.headRecords.map fun head => head.versionId, found.2.versionId)) =
          some (["ver-100-8b66d6e5a59c"], "ver-100-8b66d6e5a59c") ∧
      ∀ entry ∈ c.current.values,
        ("obj-" ++ "r").toList.isPrefixOf entry.objectId.toList = false := by
  decide +kernel

theorem renameAway_preferred :
    RenamedPreferred emptyManifestsCodec
      ((renameAway 11 300).start (exec emptyManifestsCodec (putEmpty 10 100) emptyNode)) "a" "b" := by
  intro entry index source_head manifest short bound alive _ _
  obtain ⟨shown, heads, _⟩ := putEmpty_shown
  rw [start_catalog] at bound alive
  rw [bound, Option.map_some, Option.some.injEq] at shown
  rw [shown] at alive
  rw [alive] at heads
  simp only [Option.map_some, Option.some.injEq, Prod.mk.injEq] at heads
  intro renamed other listed differs _
  have only : other.versionId ∈ index.headRecords.map fun head => head.versionId :=
    List.mem_map_of_mem listed
  rw [heads.1, List.mem_singleton] at only
  exact absurd (only.trans heads.2.symm) differs

theorem namespace_agrees_after_rename :
    let s := runAll (exec emptyManifestsCodec) emptyNode [putEmpty 10 100, renameAway 11 300]
    ∀ path entry, s.catalog.current.get path = some entry →
      ∃ index head record, s.catalog.indexes.rows.get entry.objectId = some index ∧
        index.preferredHeadVersionId = some head ∧ index.versions.get head = some record ∧
        record.manifestHash ≠ tombstoneManifestHash ∧
        record.manifestHash = entry.manifestHash := by
  have alone : ((renameMedia emptyManifestsCodec false "a" "b").run ((renameAway 11 300).start
      (exec emptyManifestsCodec (putEmpty 10 100) emptyNode))).1 = .ok (.applied, .absent) := by
    decide +kernel
  apply namespace_agrees_in_every_run emptyManifestsCodec emptyNode [putEmpty 10 100,
    renameAway 11 300] rfl
  refine ⟨⟨?_, trivial⟩, ⟨?_, rename_allowed renameAway_preferred alone⟩, trivial⟩
  · exact stepAt_fresh _ _ _ _ _ fun entry member => by cases member
  · exact stepAt_fresh _ _ _ _ _ putEmpty_shown.2.2

/-- Within one second a tombstone is written beside the only version and the path is
    renamed. The tombstone outranks the renamed version by its id, and the new path still
    shows the renamed manifest. -/
theorem renamed_path_shows_outranked_version :
    let rival := stepAt 10 200 "t" (.tombstone "a" ⟨[], .confirmed, false, true, none⟩)
    let s := runAll (exec emptyManifestsCodec) emptyNode [putEmpty 10 100, rival, renameAway 10 300]
    s.catalog.current.get "b" = some
        ⟨"33cfc8a6a82de667e15d557860cc661a9fe28300ad51b70707fbec32ea891408", "obj-p"⟩ ∧
      (s.catalog.indexes.rows.get "obj-p").map (fun index =>
        (index.headVersionIds, index.preferredHeadVersionId)) =
          some (["ren-300-33cfc8a6a82d", "tomb-200"], some "tomb-200") ∧
      ((s.catalog.indexes.rows.get "obj-p").bind fun index =>
        (index.versions.get "tomb-200").map fun record => record.manifestHash) =
          some tombstoneManifestHash := by
  decide +kernel

end Result

end BerryKeepNamespaceAgreement
