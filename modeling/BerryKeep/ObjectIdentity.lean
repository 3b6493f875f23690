import BerryKeep.StoreCalls

/-!
Object identity in the namespace. A sync, a promotion or a removal never gives
an object a second path, and a rename moves its only path. The one write that
can is the metadata import of a bundle without versions, which binds its path
directly and leaves the other paths of the object bound.
-/
namespace BerryKeepObjectIdentity
open FiniteTable TextOperations StatefulProgram BerryKeepContentCodec BerryKeepCatalog
  BerryKeepVersionGraph BerryKeepCurrentNamespace BerryKeepNodeStore BerryKeepStoreOperations
  BerryKeepPathMutations BerryKeepBundleExchange BerryKeepStoreCalls

def UniqueObjects (cur : Bindings) : Prop :=
  ∀ p q a b, cur.get p = some a → cur.get q = some b → a.objectId = b.objectId → p = q

section Bindings
variable {cur next : Bindings} {key object_id : String} {index : FileVersionIndex}

theorem unique_of_subset (unique : UniqueObjects cur)
    (subset : ∀ path entry, next.get path = some entry → cur.get path = some entry) :
    UniqueObjects next := by
  intro p q a b at_p at_q same
  exact unique p q a b (subset p a at_p) (subset q b at_q) same

variable {entry : CurrentObjectEntry}

theorem unbound_some {binding : Option CurrentObjectEntry}
    (left : unbound object_id binding = some entry) :
    binding = some entry ∧ entry.objectId ≠ object_id := by
  unfold unbound at left
  rw [Option.filter_eq_some_iff] at left
  exact ⟨left.1, of_decide_eq_true left.2⟩

theorem unique_of_bound (unique : UniqueObjects cur) (here : next.get key = some entry)
    (elsewhere : ∀ path, path ≠ key → ∀ other, next.get path = some other →
      cur.get path = some other ∧ other.objectId ≠ entry.objectId) : UniqueObjects next := by
  intro p q a b at_p at_q same
  by_cases p_here : p = key
  · by_cases q_here : q = key
    · exact p_here.trans q_here.symm
    · rw [p_here, here] at at_p
      cases at_p
      exact absurd same.symm (elsewhere q q_here b at_q).2
  · by_cases q_here : q = key
    · rw [q_here, here] at at_q
      cases at_q
      exact absurd same (elsewhere p p_here a at_p).2
    · exact unique p q a b (elsewhere p p_here a at_p).1 (elsewhere q q_here b at_q).1 same

theorem rebinding_unique (change : Rebinding cur key index next) (unique : UniqueObjects cur) :
    UniqueObjects next := by
  cases change with
  | cleared _ all =>
    apply unique_of_subset unique
    intro path entry found
    rw [all path] at found
    exact (unbound_some found).1
  | kept _ _ _ => exact unique
  | bound record _ here elsewhere =>
    apply unique_of_bound unique here
    intro path other entry found
    rw [elsewhere path other] at found
    exact unbound_some found

theorem removeBindings_unique (preserved : Option String) (unique : UniqueObjects cur) :
    UniqueObjects (removeBindingsForObjectIdExcept cur object_id preserved).2 := by
  apply unique_of_subset unique
  intro path entry found
  rw [removeBindings_get] at found
  split at found
  · exact found
  · exact (unbound_some found).1

theorem del_unique (path : String) (unique : UniqueObjects cur) : UniqueObjects (cur.del path) := by
  apply unique_of_subset unique
  intro other entry found
  exact (get_del_some found).2

theorem move_unique {from_path to_path hash : String}
    (shown : cur.get from_path = some entry) (unique : UniqueObjects cur) :
    UniqueObjects ((cur.del from_path).put to_path ⟨hash, entry.objectId⟩) := by
  apply unique_of_bound unique (get_put_self _ to_path _)
  intro path other found stored
  rw [get_put_other _ _ other, get_del] at stored
  split at stored
  · cases stored
  · next away =>
    exact ⟨stored, fun same => away (unique path from_path _ _ stored shown same)⟩

end Bindings

section Stores
variable {c d : Catalog} {s t : Store} {key object_id : String} {index : FileVersionIndex}

theorem rebound_unique {persist : Bool} (result : Rebound c d key object_id index persist)
    (unique : UniqueObjects c.current) : UniqueObjects d.current := by
  cases result with
  | refused current _ => rw [current]; exact unique
  | broken _ _ current _ => rw [current]; exact unique
  | done changed synced _ => exact rebinding_unique (sync_cases synced) unique

theorem rebind_unique {change : Bindings → Except StoreError (Finset String × Bindings)}
    (each : ∀ cur changed next, change cur = .ok (changed, next) → UniqueObjects cur →
      UniqueObjects next) :
    Preserves (fun c : Catalog => UniqueObjects c.current) (rebind change) := by
  intro c unique
  rcases rebind_run change c with ⟨error, _, run⟩ | ⟨changed, current, done, run⟩
  · rw [run]
    exact unique
  · rw [run]
    exact each _ _ _ done unique

theorem unique_writeInvariant :
    WriteInvariant (fun c => UniqueObjects c.current) fun _ _ => True where
  framed := fun _ _ current _ unique => current ▸ unique
  persist := by
    intro object_id index _ c unique
    rw [persist_keepsCurrent object_id index c]
    exact unique
  sync := fun _ _ => rebind_unique fun _ _ _ done unique => rebinding_unique (sync_cases done) unique
  promote := fun _ _ =>
    rebind_unique fun _ _ _ done unique => rebinding_unique (promote_cases done) unique
  unbind := by
    intro object_id preserved
    apply rebind_unique
    intro cur changed next done unique
    have removed : UniqueObjects (removeBindingsForObjectIdExcept cur object_id preserved).2 :=
      removeBindings_unique preserved unique
    rw [Except.ok.inj done] at removed
    exact removed
  remove := fun key _ unique => del_unique key unique

theorem renameMedia_unique (codec : Codec) (s : Store) (overwrite : Bool)
    (from_path to_path : String) (unique : UniqueObjects s.catalog.current) :
    UniqueObjects ((renameMedia codec overwrite from_path to_path).run s).2.catalog.current := by
  rcases renameMedia_moved codec overwrite s from_path to_path with
    same | ⟨entry, index, source_head, _, shown, _, _, moved⟩
  · rw [same.catalog]
    exact unique
  · cases moved with
    | stopped _ catalog =>
      rw [catalog]
      exact unique
    | moved r _ manifest short _ _ mid current _ _ _ catalog =>
      rw [catalog, recordedIf_current, current]
      exact move_unique shown unique

/-- A bundle without versions binds its path to an object that has no other path. -/
def BareImportAlone (s : Store) (bundle : MetadataExportBundle) : Prop :=
  bundle.versions = [] → bundle.currentManifestHash.isSome = true →
    ∀ object_id, nonemptyObjectId bundle.objectId = some object_id →
      ∀ path ∈ listKeysForObjectId s.catalog.current object_id, path = bundle.key

theorem bareImport_alone {bundle : MetadataExportBundle} (fresh : GeneratedFresh s)
    (alone : BareImportAlone s bundle) (bare : bundle.versions = []) {manifest_hash : String}
    (shown : bundle.currentManifestHash = some manifest_hash) :
    ∀ path entry, s.catalog.current.get path = some entry →
      entry.objectId = bundleObject s bundle.objectId → path = bundle.key := by
  intro path entry found same
  unfold bundleObject at same
  cases named : nonemptyObjectId bundle.objectId with
  | none =>
    rw [named] at same
    exact absurd same (fresh.unbound 0 path entry found)
  | some object_id =>
    rw [named] at same
    exact alone bare (by rw [shown]; rfl) object_id named path (mem_listKeys.mpr ⟨entry, found, same⟩)

theorem bindManifest_unique (r : Readings) (entry : CurrentObjectEntry)
    (alone : ∀ path other, c.current.get path = some other → other.objectId = entry.objectId →
      path = key) (unique : UniqueObjects c.current) :
    UniqueObjects ((bindManifest r key entry).run c).2.current := by
  have bound : UniqueObjects (c.current.put key entry) := by
    apply unique_of_bound unique (get_put_self _ key _)
    intro path other found stored
    rw [get_put_other _ _ other] at stored
    exact ⟨stored, fun same => other (alone path found stored same)⟩
  rcases (bindManifest_bound r c key entry).2 with same | changed
  · rw [same]
    exact unique
  · rw [changed]
    exact bound

theorem importMetadata_unique (codec : Codec) (s : Store) (bundle : MetadataExportBundle)
    (fresh : GeneratedFresh s) (alone : BareImportAlone s bundle)
    (unique : UniqueObjects s.catalog.current) :
    UniqueObjects ((importMetadataBundle codec bundle).run s).2.catalog.current := by
  rcases importMetadata_imported codec s bundle with same | imported
  · rw [same.catalog]
    exact unique
  · cases imported with
    | versions r _ merged changed _ catalog =>
      rw [catalog]
      exact publishMetadata_preserves unique_writeInvariant r _ _ _ changed (fun _ => trivial)
        s.catalog unique
    | binding r _ manifest_hash bare shown catalog =>
      rw [catalog]
      exact bindManifest_unique r _ (bareImport_alone fresh alone bare shown) unique

end Stores

section Freshness
variable {c d : Catalog} {s t : Store} {key object_id : String} {index : FileVersionIndex}

theorem fresh_later {k : Nat} (fresh : GeneratedFresh s)
    (later : t.world.uuids = fun n => s.world.uuids (n + k))
    (objects : ∀ path entry, t.catalog.current.get path = some entry →
      (∃ p e, s.catalog.current.get p = some e ∧ e.objectId = entry.objectId) ∨
        ∃ n, n < k ∧ entry.objectId = "obj-" ++ s.world.uuids n) : GeneratedFresh t where
  distinct := by
    intro m n same
    rw [later] at same
    have shifted := fresh.distinct same
    omega
  unbound := by
    intro n path entry found same
    rw [later] at same
    rcases objects path entry found with ⟨p, e, bound, object⟩ | ⟨m, before, object⟩
    · exact fresh.unbound (n + k) p e bound (object.trans same)
    · have equal := fresh.distinct ((String.append_right_inj _).mp (object.symm.trans same))
      omega

theorem rebound_objects {persist : Bool} (result : Rebound c d key object_id index persist)
    (object : index.objectId = object_id) :
    ∀ path entry, d.current.get path = some entry →
      (∃ p e, c.current.get p = some e ∧ e.objectId = entry.objectId) ∨
        entry.objectId = object_id := by
  intro path entry found
  cases result with
  | refused current _ => exact .inl ⟨path, entry, current ▸ found, rfl⟩
  | broken _ _ current _ => exact .inl ⟨path, entry, current ▸ found, rfl⟩
  | done changed synced _ =>
    have change := sync_cases synced
    generalize d.current = next at change found
    cases change with
    | cleared _ all =>
      rw [all path] at found
      exact .inl ⟨path, entry, (unbound_some found).1, rfl⟩
    | kept _ _ _ => exact .inl ⟨path, entry, found, rfl⟩
    | bound record _ here elsewhere =>
      by_cases at_key : path = key
      · rw [at_key, here] at found
        cases found
        exact .inr object
      · rw [elsewhere path at_key] at found
        exact .inl ⟨path, entry, (unbound_some found).1, rfl⟩

theorem targetObject_origin (s : Store) (key : String) :
    (∃ entry, s.catalog.current.get key = some entry ∧ entry.objectId = targetObject s key) ∨
      (s.catalog.current.get key = none ∧ targetObject s key = "obj-" ++ s.world.uuids 0) := by
  unfold targetObject objectIdForKey
  cases s.catalog.current.get key with
  | none => exact .inr ⟨rfl, rfl⟩
  | some entry => exact .inl ⟨entry, rfl, rfl⟩

theorem bound_free {entry : CurrentObjectEntry} (unique : UniqueObjects c.current)
    (bound : c.current.get key = some entry) : ¬BusyElsewhere c.current key entry.objectId := by
  rintro (⟨path, listed, other⟩ | ⟨found, shown, differs⟩)
  · obtain ⟨held, stored, same⟩ := mem_listKeys.mp listed
    exact other (unique path key held entry stored bound same)
  · rw [bound] at shown
    cases shown
    exact differs rfl

theorem target_free (unique : UniqueObjects s.catalog.current) (fresh : GeneratedFresh s)
    (key : String) : ¬BusyElsewhere s.catalog.current key (targetObject s key) := by
  rcases targetObject_origin s key with ⟨entry, bound, object⟩ | ⟨unbound, object⟩
  · rw [← object]
    exact bound_free unique bound
  · rintro (⟨path, listed, _⟩ | ⟨found, shown, _⟩)
    · obtain ⟨held, stored, same⟩ := mem_listKeys.mp listed
      exact fresh.unbound 0 path held stored (same.trans object)
    · rw [unbound] at shown
      cases shown

theorem target_fresh {uuid : String} {persist : Bool} (fresh : GeneratedFresh s)
    (drawn : Draws s t uuid)
    (result : Rebound s.catalog t.catalog key (targetObject s key) index persist)
    (object : index.objectId = targetObject s key) : GeneratedFresh t := by
  obtain ⟨k, n, inside, _, later⟩ := drawn
  apply fresh_later fresh later
  intro path entry found
  rcases rebound_objects result object path entry found with old | new
  · exact .inl old
  · rcases targetObject_origin s key with ⟨held, bound, same⟩ | ⟨_, same⟩
    · exact .inl ⟨key, held, bound, same.trans new.symm⟩
    · exact .inr ⟨0, by omega, new.trans same⟩

end Freshness

section Result
variable {s t : Store} {key object_id : String}

def bareImportsAlone : Conditions where
  putting _ _ _ _ := True
  clearing _ _ _ := True
  moving _ _ _ := True
  importing s bundle := GeneratedFresh s ∧ BareImportAlone s bundle
  replicating _ _ := True
  dropping _ _ _ := True

theorem written_unique {manifest_hash version_id : String} {create : Bool}
    (written : Written s t key object_id manifest_hash version_id create)
    (unique : UniqueObjects s.catalog.current) : UniqueObjects t.catalog.current := by
  cases written with
  | again _ _ _ _ tail => exact rebound_unique tail.rebound unique
  | added _ _ _ _ tail => exact rebound_unique tail.rebound unique

theorem put_unique (codec : Codec) (s : Store) (key : String) (payload : Bytes)
    (options : PutOptions) (unique : UniqueObjects s.catalog.current) :
    UniqueObjects ((putObjectVersioned codec key payload options).run s).2.catalog.current := by
  rcases put_written codec s key payload options with same | ⟨version_id, _, written⟩
  · rw [same.catalog]
    exact unique
  · exact written_unique written unique

theorem tombstone_unique (s : Store) (key : String) (options : PutOptions)
    (unique : UniqueObjects s.catalog.current) :
    UniqueObjects ((tombstoneObjectSingle key options).run s).2.catalog.current := by
  rcases tombstone_written s key options with same | written
  · rw [same.catalog]
    exact unique
  · exact written_unique written unique

theorem commit_unique (s : Store) (key version_id : String)
    (unique : UniqueObjects s.catalog.current) :
    UniqueObjects ((commitVersion key version_id).run s).2.catalog.current := by
  rcases commit_confirmed s key version_id with same | ⟨_, _, _, _, _, _, _, _, _, tail⟩
  · rw [same.catalog]
    exact unique
  · exact rebound_unique tail.rebound unique

theorem drop_unique (s : Store) (key : String) (version_id : Option String)
    (unique : UniqueObjects s.catalog.current) :
    UniqueObjects ((dropReplicaSubject key version_id).run s).2.catalog.current := by
  rcases drop_dropped s key version_id with same | ⟨_, _, _, _, _, _, _, _, tail⟩
  · rw [same.catalog]
    exact unique
  · exact rebound_unique tail.rebound unique

theorem copied_unique {target : String} {create : Bool} (copied : Copied s t target create)
    (unique : UniqueObjects s.catalog.current) : UniqueObjects t.catalog.current := by
  obtain ⟨_, _, _, _, tail⟩ := copied
  exact rebound_unique tail.rebound unique

theorem unique_invariant (codec : Codec) :
    StoreInvariant codec bareImportsAlone fun s => UniqueObjects s.catalog.current where
  framed := fun _ _ same unique => same.current ▸ unique
  copied := fun _ _ _ _ copied unique => copied_unique copied unique
  put := fun s key payload options _ unique => put_unique codec s key payload options unique
  commit := commit_unique
  tombstone := fun s key options _ unique => tombstone_unique s key options unique
  rename := fun s overwrite from_path to_path _ unique =>
    renameMedia_unique codec s overwrite from_path to_path unique
  importMetadata := fun s bundle met unique =>
    importMetadata_unique codec s bundle met.1 met.2 unique
  importReplication := fun s bundle _ unique =>
    importReplication_preserves unique_writeInvariant (fun _ _ unique => unique)
      (fun _ _ => trivial) codec s bundle unique
  drop := fun s key version_id _ unique => drop_unique s key version_id unique

/-- In every run from a store without a doubly bound object, with imports that bind a path
    directly only for an object without another path, no object is ever bound to two paths. -/
theorem object_ids_unique_in_every_run (codec : Codec) (s : Store) (steps : List Step)
    (start : UniqueObjects s.catalog.current)
    (alone : AllSteps (exec codec)
      (fun t step => bareImportsAlone.Allow codec (step.start t) step.call) s steps) :
    UniqueObjects (runAll (exec codec) s steps).catalog.current :=
  run_invariant (fun t => UniqueObjects t.catalog.current)
    (fun t step met unique => call_invariant (unique_invariant codec) (step.start t) step.call met
      unique) steps s alone start

def bareImport (key object_id : String) : Step :=
  stepAt 10 100 "m" (.importMetadata ⟨key, some object_id, some "aa", [], []⟩)

theorem object_ids_unique_after_bare_imports :
    let s := runAll (exec (sampleCodec [] [])) emptyNode [bareImport "a" "obj-1", bareImport "b" "obj-2"]
    (s.catalog.current.get "a" = some ⟨"aa", "obj-1"⟩ ∧
      s.catalog.current.get "b" = some ⟨"aa", "obj-2"⟩) ∧ UniqueObjects s.catalog.current := by
  intro s
  refine ⟨by decide +kernel, object_ids_unique_in_every_run (sampleCodec [] []) emptyNode
    [bareImport "a" "obj-1", bareImport "b" "obj-2"] ?_ ⟨⟨?_, ?_⟩, ⟨?_, ?_⟩, trivial⟩⟩
  · intro p q a b found
    cases found
  · exact stepAt_fresh _ _ _ _ _ (by decide +kernel)
  · intro _ _ object_id named path listed
    cases listed
  · exact stepAt_fresh _ _ _ _ _ (by decide +kernel)
  · intro _ _ object_id named path listed
    have second : nonemptyObjectId (some "obj-2") = some "obj-2" := by decide
    cases second.symm.trans named
    have free : listKeysForObjectId (exec (sampleCodec [] []) (bareImport "a" "obj-1")
      emptyNode).catalog.current "obj-2" = [] := by decide +kernel
    have none_listed := free ▸ listed
    cases none_listed

/-- The second binding of the same object does not end the first one. -/
theorem bare_import_binds_object_twice :
    let s := runAll (exec (sampleCodec [] [])) emptyNode [bareImport "a" "obj-1", bareImport "b" "obj-1"]
    s.catalog.current.get "a" = some ⟨"aa", "obj-1"⟩ ∧
      s.catalog.current.get "b" = some ⟨"aa", "obj-1"⟩ := by
  decide +kernel

end Result

end BerryKeepObjectIdentity
