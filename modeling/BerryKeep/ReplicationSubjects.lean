import BerryKeep.LineageResolution
import BerryKeep.ReplicationCleanup

/-!
The texts by which nodes name what they hold. The store advertises a key, or a
key and a version as `key@version`; repair and cleanup read the text back, and
placement and reconciliation recover the key by looking for the marker of one
family of version ids. A key may contain the separator as well, so the reading
is right exactly where the text can be told apart.
-/
namespace BerryKeepReplicationSubjects
open FiniteTable TextOperations BerryKeepContentCodec BerryKeepStoragePool BerryKeepCatalog
  BerryKeepVersionGraph BerryKeepNodeStore BerryKeepLineageResolution
  BerryKeepClusterPlacement BerryKeepReplicationPlanning BerryKeepReplicationCleanup

def replicationSubject : String × Option String → String
  | (key, none) => key
  | (key, some version_id) => key ++ "@" ++ version_id

def checkedChunks (hash : String) : List ChunkRef → Table String Nat → Nat → Except StoreError Nat
  | [], _, total => .ok total
  | chunk :: chunks, sizes, total =>
    if !manifestHashLooksSafeFilename chunk.hash then
      .error (.bail ("invalid chunk hash in manifest=" ++ hash))
    else if (sizes.get chunk.hash).any fun old => old ≠ chunk.sizeBytes then
      .error (.bail ("inconsistent sizes for chunk=" ++ chunk.hash))
    else if 2 ^ 64 ≤ total + chunk.sizeBytes then .error (.bail "manifest size overflow")
    else checkedChunks hash chunks (sizes.put chunk.hash chunk.sizeBytes) (total + chunk.sizeBytes)

def validateManifest (codec : Codec) (hash : String) (payload : Bytes) :
    Except StoreError ObjectManifest :=
  if hashHex codec payload ≠ hash then .error (.bail ("manifest hash mismatch: expected=" ++ hash))
  else match codec.decodeManifest payload with
    | none => .error (.bail "invalid recovery manifest")
    | some manifest =>
      match checkedChunks hash manifest.chunks Table.empty 0 with
      | .error error => .error error
      | .ok total =>
        if total ≠ manifest.totalSizeBytes then
          .error (.bail ("manifest size mismatch: hash=" ++ hash))
        else .ok manifest

def chunksPresent (st : ContentStore) : List ChunkRef → Except StoreError Bool
  | [] => .ok true
  | chunk :: chunks =>
    match st.pool.contentPath .chunk chunk.hash with
    | .error error => .error error
    | .ok path =>
      match st.fileAt path with
      | none => .ok false
      | some file =>
        if file.bytes.length ≠ chunk.sizeBytes then .ok false else chunksPresent st chunks

def manifestIsFullyLocal (codec : Codec) (st : ContentStore) (hash : String) :
    Except StoreError Bool :=
  if hash = tombstoneManifestHash then .ok true
  else match st.pool.contentPath .manifest hash with
    | .error error => .error error
    | .ok path =>
      match st.fileAt path with
      | none => .ok false
      | some file =>
        match validateManifest codec hash file.bytes with
        | .error _ => .ok false
        | .ok manifest => chunksPresent st manifest.chunks

-- An unreadable manifest is not available; it does not stop the other claims.
def availableHash (codec : Codec) (s : Store) (hash : String) : Bool :=
  if s.repairTasks.any fun task => task.manifestHash == hash then false
  else if s.ownedManifests.contains hash then
    match manifestIsFullyLocal codec s.content hash with
    | .ok available => available
    | .error _ => false
  else false

abbrev Candidate := (String × Option String) × String

def boundIndex (s : Store) (row : String × BerryKeepCurrentNamespace.CurrentObjectEntry) :
    Option FileVersionIndex :=
  s.catalog.loadVersionIndex row.2.objectId

def headCandidates (index : FileVersionIndex) (key_of : FileVersionRecord → Option String) :
    List Candidate :=
  index.headVersionIds.filterMap fun head_version_id =>
    (index.versions.get head_version_id).bind fun record =>
      (key_of record).map fun key => ((key, some head_version_id), record.manifestHash)

/-- What the store would advertise: the current keys, the heads of the bound objects under
    their path, and the heads of all the other objects under the key of their record. -/
def replicationCandidates (codec : Codec) (s : Store) : List Candidate :=
  let current := s.catalog.current.entries
  let indexed_object_ids := current.filterMap fun row => (boundIndex s row).map fun _ => row.2.objectId
  (current.map fun row => ((row.1, none), row.2.manifestHash)) ++
  (current.flatMap fun row =>
    (boundIndex s row).elim [] fun index => headCandidates index fun _ => some row.1) ++
  ((s.catalog.loadAllVersionIndexes.filter fun index => index.objectId ∉ indexed_object_ids).flatMap
    fun index => headCandidates index (resolveKeyForVersionRecord codec s.content index))

def listReplicationSubjects (codec : Codec) (s : Store) : List String :=
  let candidates := (replicationCandidates codec s).foldl
    (fun (table : Table String String) candidate =>
      table.put (replicationSubject candidate.1) candidate.2) Table.empty
  candidates.sortedKeys.filter fun subject => (candidates.get subject).any fun hash =>
    hash = tombstoneManifestHash || availableHash codec s hash

def Emitted (codec : Codec) (s : Store) (pair : String × Option String) : Prop :=
  (∃ hash, (pair, hash) ∈ replicationCandidates codec s) ∧
    replicationSubject pair ∈ listReplicationSubjects codec s

/-- No `@` with text on both of its sides is the last one. -/
def NoInnerAt (key : String) : Prop :=
  ∀ before after, key = before ++ "@" ++ after → '@' ∉ after.toList → before = "" ∨ after = ""

theorem parse_key_iff {key : String} (nonempty : key ≠ "") :
    parseReplicationSubject key = some (key, none) ↔ NoInnerAt key := by
  constructor
  · intro parsed before after split clean
    by_contra both
    rw [not_or] at both
    have found : rsplitOnce key '@' = some (before, after) := by
      rw [split]
      exact rsplitOnce_mk before clean
    simp [parseReplicationSubject, nonempty, found, both] at parsed
  · intro plain
    cases found : rsplitOnce key '@' with
    | none => simp [parseReplicationSubject, nonempty, found]
    | some parts =>
      obtain ⟨before, after⟩ := parts
      have sides := plain before after (rsplitOnce_append found).symm (rsplitOnce_clean found)
      have not_both : ¬(before ≠ "" ∧ after ≠ "") := by
        rintro ⟨first, second⟩
        rcases sides with empty | empty
        · exact first empty
        · exact second empty
      simp only [parseReplicationSubject, nonempty, if_false, found, not_both]

theorem parse_versioned_subject {key version_id : String} (nonempty : key ≠ "")
    (some_version : version_id ≠ "") (clean : '@' ∉ version_id.toList) :
    parseReplicationSubject (key ++ "@" ++ version_id) = some (key, some version_id) := by
  have found : rsplitOnce (key ++ "@" ++ version_id) '@' = some (key, version_id) :=
    rsplitOnce_mk key clean
  have filled : key ++ "@" ++ version_id ≠ "" := by
    intro empty
    have chars := congrArg String.toList empty
    simp at chars
  simp [parseReplicationSubject, filled, found, nonempty, some_version]

theorem versioned_subject_injective {key other version_id other_id : String}
    (clean : '@' ∉ version_id.toList) (other_clean : '@' ∉ other_id.toList)
    (same : key ++ "@" ++ version_id = other ++ "@" ++ other_id) :
    key = other ∧ version_id = other_id := by
  have first : rsplitOnce (key ++ "@" ++ version_id) '@' = some (key, version_id) :=
    rsplitOnce_mk key clean
  have second : rsplitOnce (other ++ "@" ++ other_id) '@' = some (other, other_id) :=
    rsplitOnce_mk other other_clean
  rw [same, second] at first
  cases first
  exact ⟨rfl, rfl⟩

/-- What the parser reads back, and when the advertised texts are unambiguous. -/
theorem replication_subjects_unambiguous_iff (codec : Codec) (s : Store) :
    (∀ key, key ≠ "" → (parseReplicationSubject key = some (key, none) ↔ NoInnerAt key)) ∧
    (∀ key version_id, key ≠ "" → version_id ≠ "" → '@' ∉ version_id.toList →
      parseReplicationSubject (key ++ "@" ++ version_id) = some (key, some version_id)) ∧
    ((∀ key version_id, Emitted codec s (key, some version_id) → '@' ∉ version_id.toList) →
      ((∀ p q, Emitted codec s p → Emitted codec s q →
          replicationSubject p = replicationSubject q → p = q) ↔
        ¬∃ key version_id, Emitted codec s (key, some version_id) ∧
          Emitted codec s (key ++ "@" ++ version_id, none))) := by
  refine ⟨fun key nonempty => parse_key_iff nonempty, fun key version_id nonempty some_version
    clean => parse_versioned_subject nonempty some_version clean, ?_⟩
  intro clean
  constructor
  · rintro apart ⟨key, version_id, versioned, bare⟩
    have same := apart _ _ bare versioned rfl
    simp at same
  · intro none_shared p q p_emitted q_emitted same
    obtain ⟨key, version⟩ := p
    obtain ⟨other, other_version⟩ := q
    cases version with
    | none =>
      cases other_version with
      | none => exact congrArg (·, none) same
      | some other_id =>
        simp only [replicationSubject] at same
        rw [same] at p_emitted
        exact absurd ⟨other, other_id, q_emitted, p_emitted⟩ none_shared
    | some version_id =>
      cases other_version with
      | none =>
        simp only [replicationSubject] at same
        rw [← same] at q_emitted
        exact absurd ⟨key, version_id, p_emitted, q_emitted⟩ none_shared
      | some other_id =>
        obtain ⟨rfl, rfl⟩ := versioned_subject_injective (clean _ _ p_emitted)
          (clean _ _ q_emitted) same
        rfl

theorem key_with_at_read_as_version :
    parseReplicationSubject "user@example" = some ("user", some "example") ∧
    replicationSubject ("notes@ver-1", none) = replicationSubject ("notes", some "ver-1") := by
  decide

structure PlacementDecision where
  key : String
  selectedNodes : List NodeId
  replicationFactor : Nat

def placementForKey (digest : Digest) (c : ClusterService) (key : String) : PlacementDecision where
  key := key
  selectedNodes := selectNodesByRendezvous digest (replicationPlacementKey key) c.nodes c.policy
  replicationFactor := c.policy.replicationFactor

def changeSubjects (change : SubjectMembership → String → NodeId → Bool × SubjectMembership)
    (node_id : NodeId) (subjects : List String) (m : SubjectMembership) :
    Bool × SubjectMembership :=
  subjects.foldl (fun acc subject =>
    ((acc.1 || (change acc.2 subject node_id).1), (change acc.2 subject node_id).2)) (false, m)

def replaceNodeAvailableView (c : ClusterService) (node_id : NodeId) (subjects : List String) :
    Bool × ClusterService :=
  let desired_subjects := IterSet.ofList subjects
  let current_subjects := (c.available.byNode.get node_id).getD IterSet.empty
  if current_subjects.items.toFinset = desired_subjects.items.toFinset then (false, c)
  else
    let (removed, available) := changeSubjects removeSubjectMembership node_id
      (current_subjects.items.filter fun subject => !desired_subjects.contains subject) c.available
    let (inserted, available) := changeSubjects insertSubjectMembership node_id
      (desired_subjects.items.filter fun subject => !current_subjects.contains subject) available
    (removed || inserted, { c with available })

def preservesHistoricalClaim (subjects : List String) (subject : String) : Bool :=
  isVersionedReplicationSubject subject &&
    decide (replicationPlacementKey subject ∈ subjects.map replicationPlacementKey)

def reconcileNodeSubjects (c : ClusterService) (node_id : NodeId) (subjects : List String) :
    Bool × ClusterService :=
  let desired_subjects := IterSet.ofList subjects
  let current_replica_subjects := (c.replicas.byNode.get node_id).getD IterSet.empty
  let (viewed, c) := replaceNodeAvailableView c node_id subjects
  let (removed, replicas) := changeSubjects removeSubjectMembership node_id
    (current_replica_subjects.items.filter fun subject =>
      !desired_subjects.contains subject && !preservesHistoricalClaim subjects subject) c.replicas
  let (inserted, replicas) := changeSubjects insertSubjectMembership node_id
    desired_subjects.items replicas
  (viewed || removed || inserted, { c with replicas })

def MarkedVersion (key version_id : String) : Prop :=
  "@ver-".toList <:+: key.toList ∨ "ver-".toList <+: version_id.toList

section Marker
variable {key version_id : String}

theorem marker_in_key (occurs : "@ver-".toList <:+: key.toList) :
    isVersionedReplicationSubject (key ++ "@" ++ version_id) = true ∧
      replicationPlacementKey (key ++ "@" ++ version_id) = replicationPlacementKey key := by
  cases found : splitFirst "@ver-".toList key.toList with
  | none => exact absurd occurs (splitFirst_eq_none.mp found)
  | some parts =>
    obtain ⟨base, rest⟩ := parts
    have longer := splitFirst_append_right ('@' :: version_id.toList) found
    have text : (key ++ "@" ++ version_id).toList = key.toList ++ '@' :: version_id.toList := by
      simp
    constructor
    · simp only [isVersionedReplicationSubject, splitOnce, text, longer, Option.map_some,
        Option.isSome_some]
    · simp only [replicationPlacementKey, splitOnce, text, longer, found, Option.map_some]

theorem placementKey_unmarked (absent : ¬"@ver-".toList <:+: key.toList) :
    replicationPlacementKey key = key := by
  have none_found : splitFirst "@ver-".toList key.toList = none := splitFirst_eq_none.mpr absent
  simp only [replicationPlacementKey, splitOnce, none_found, Option.map_none]

theorem splitOnce_versioned (absent : ¬"@ver-".toList <:+: key.toList) :
    splitFirst "@ver-".toList (key ++ "@" ++ version_id).toList =
      (splitFirst "@ver-".toList ('@' :: version_id.toList)).map fun parts =>
        (key.toList ++ parts.1, parts.2) := by
  have text : (key ++ "@" ++ version_id).toList = key.toList ++ '@' :: version_id.toList := by simp
  rw [text]
  exact splitFirst_append_sep (by decide) (splitFirst_eq_none.mpr absent) version_id.toList

theorem marker_begins_version (absent : ¬"@ver-".toList <:+: key.toList)
    (begins : "ver-".toList <+: version_id.toList) :
    isVersionedReplicationSubject (key ++ "@" ++ version_id) = true ∧
      replicationPlacementKey (key ++ "@" ++ version_id) = key := by
  have starts : "@ver-".toList.isPrefixOf ('@' :: version_id.toList) = true := by
    rw [List.isPrefixOf_iff_prefix]
    exact (List.prefix_cons_inj '@').mpr begins
  have split := @splitOnce_versioned _ version_id absent
  rw [splitFirst, if_pos starts, Option.map_some, List.append_nil] at split
  constructor
  · simp only [isVersionedReplicationSubject, splitOnce, split, Option.map_some,
      Option.isSome_some]
  · simp only [replicationPlacementKey, splitOnce, split, Option.map_some, String.ofList_toList]

theorem unmarked_version (unmarked : ¬MarkedVersion key version_id) :
    replicationPlacementKey (key ++ "@" ++ version_id) ≠ key := by
  simp only [MarkedVersion, not_or] at unmarked
  have starts : ¬"@ver-".toList.isPrefixOf ('@' :: version_id.toList) = true := by
    rw [List.isPrefixOf_iff_prefix]
    intro prefixed
    exact unmarked.2 ((List.prefix_cons_inj '@').mp prefixed)
  have split := @splitOnce_versioned _ version_id unmarked.1
  rw [splitFirst, if_neg starts, Option.map_map] at split
  intro same
  have chars := congrArg (fun text => text.toList.length) same
  cases rest : splitFirst "@ver-".toList version_id.toList with
  | none =>
    rw [rest, Option.map_none] at split
    simp only [replicationPlacementKey, splitOnce, split, Option.map_none] at chars
    simp at chars
  | some parts =>
    rw [rest, Option.map_some] at split
    simp only [replicationPlacementKey, splitOnce, split, Option.map_some] at chars
    simp at chars

theorem marked_version (marked : MarkedVersion key version_id) :
    isVersionedReplicationSubject (key ++ "@" ++ version_id) = true ∧
      replicationPlacementKey (key ++ "@" ++ version_id) = replicationPlacementKey key := by
  by_cases occurs : "@ver-".toList <:+: key.toList
  · exact marker_in_key occurs
  · rw [placementKey_unmarked occurs]
    exact marker_begins_version occurs (marked.resolve_left occurs)

theorem placementKey_versioned_iff : replicationPlacementKey (key ++ "@" ++ version_id) =
    replicationPlacementKey key ↔ MarkedVersion key version_id := by
  constructor
  · intro same
    by_contra unmarked
    have absent : ¬"@ver-".toList <:+: key.toList := fun occurs => unmarked (.inl occurs)
    rw [placementKey_unmarked absent] at same
    exact unmarked_version unmarked same
  · intro marked
    exact (marked_version marked).2

end Marker

def twoNodes : Table NodeId NodeDescriptor :=
  (Table.empty.put 0 ⟨0, Table.empty, 0, 0, .online⟩).put 1 ⟨1, Table.empty, 0, 0, .online⟩
def singleCopyPolicy : ReplicationPolicy := ⟨1, Table.empty, 0⟩
section Selection
variable {digest : Digest} {key : String}

theorem twoNodes_values : twoNodes.values =
    [⟨1, Table.empty, 0, 0, .online⟩, ⟨0, Table.empty, 0, 0, .online⟩] := rfl

theorem selects_one (ahead : rendezvousScore digest key 0 < rendezvousScore digest key 1) :
    selectNodesByRendezvous digest key twoNodes singleCopyPolicy = [1] := by
  have ranked : rankNodes digest key twoNodes (fun node => node.status == .online) =
      [(1, rendezvousScore digest key 1), (0, rendezvousScore digest key 0)] := by
    simp [rankNodes, twoNodes_values, List.insertionSort, ahead.le]
  rw [selectNodesByRendezvous, selectNodesByRendezvousMatching, ranked]
  rfl

theorem selects_zero (ahead : rendezvousScore digest key 1 < rendezvousScore digest key 0) :
    selectNodesByRendezvous digest key twoNodes singleCopyPolicy = [0] := by
  have ranked : rankNodes digest key twoNodes (fun node => node.status == .online) =
      [(0, rendezvousScore digest key 0), (1, rendezvousScore digest key 1)] := by
    simp [rankNodes, twoNodes_values, List.insertionSort, ahead]
  rw [selectNodesByRendezvous, selectNodesByRendezvousMatching, ranked]
  rfl

def splittingDigest (key other : String) : Digest := fun text =>
  if text = key ++ ":" ++ nodeIdText 0 ∨ text = other ++ ":" ++ nodeIdText 1 then [1] else []

theorem placement_tells_apart {key other : String} (differ : key ≠ other) :
    selectNodesByRendezvous (splittingDigest key other) key twoNodes singleCopyPolicy ≠
      selectNodesByRendezvous (splittingDigest key other) other twoNodes singleCopyPolicy := by
  have ids : nodeIdText 0 ≠ nodeIdText 1 := by decide
  have keys : ∀ id : String, key ++ ":" ++ id ≠ other ++ ":" ++ id := by
    intro id same
    exact differ (by simpa using same)
  have key_ids : key ++ ":" ++ nodeIdText 1 ≠ key ++ ":" ++ nodeIdText 0 := by
    intro same
    exact ids (by simpa using same.symm)
  have other_ids : other ++ ":" ++ nodeIdText 0 ≠ other ++ ":" ++ nodeIdText 1 := by
    intro same
    exact ids (by simpa using same)
  have here : selectNodesByRendezvous (splittingDigest key other) key twoNodes
      singleCopyPolicy = [0] := by
    apply selects_zero
    simp [rendezvousScore, splittingDigest, key_ids, keys]
  have there : selectNodesByRendezvous (splittingDigest key other) other twoNodes
      singleCopyPolicy = [1] := by
    apply selects_one
    simp [rendezvousScore, splittingDigest, other_ids, (keys _).symm]
  rw [here, there]
  decide
end Selection

section Reconcile
variable {c : ClusterService} {node_id : NodeId} {subject : String}

theorem mem_holders_insert (m : SubjectMembership) (subject other : String) (node_id n : NodeId) :
    n ∈ ((insertSubjectMembership m subject node_id).2.holders other).items ↔
      n ∈ (m.holders other).items ∨ other = subject ∧ n = node_id := by
  unfold insertSubjectMembership SubjectMembership.holders
  simp only [get_put]
  split
  · next same =>
    subst same
    simp [or_comm]
  · next differ => simp [differ]

theorem changeSubjects_cons
    (change : SubjectMembership → String → NodeId → Bool × SubjectMembership)
    (first : String) (subjects : List String) (m : SubjectMembership) :
    (changeSubjects change node_id (first :: subjects) m).2 =
      (changeSubjects change node_id subjects (change m first node_id).2).2 := by
  have ignores : ∀ (rest : List String) (news news' : Bool) (m : SubjectMembership),
      (rest.foldl (fun acc subject => ((acc.1 || (change acc.2 subject node_id).1),
        (change acc.2 subject node_id).2)) (news, m)).2 =
      (rest.foldl (fun acc subject => ((acc.1 || (change acc.2 subject node_id).1),
        (change acc.2 subject node_id).2)) (news', m)).2 := by
    intro rest
    induction rest with
    | nil => intro _ _ _; rfl
    | cons next rest ih => intro _ _ m; exact ih _ _ _
  unfold changeSubjects
  rw [List.foldl_cons]
  exact ignores subjects _ _ _

variable (subjects : List String)

theorem mem_holders_removed (m : SubjectMembership) :
    node_id ∈ ((changeSubjects removeSubjectMembership node_id subjects m).2.holders
        subject).items ↔ node_id ∈ (m.holders subject).items ∧ subject ∉ subjects := by
  induction subjects generalizing m with
  | nil => simp [changeSubjects]
  | cons first subjects ih =>
    rw [changeSubjects_cons, ih, holders_remove]
    by_cases same : subject = first
    · subst same
      simp [(m.holders subject).nodup.mem_erase_iff]
    · simp [same]

theorem mem_holders_inserted (m : SubjectMembership) :
    node_id ∈ ((changeSubjects insertSubjectMembership node_id subjects m).2.holders
        subject).items ↔ node_id ∈ (m.holders subject).items ∨ subject ∈ subjects := by
  induction subjects generalizing m with
  | nil => simp [changeSubjects]
  | cons first subjects ih =>
    rw [changeSubjects_cons, ih, mem_holders_insert]
    simp [or_assoc]

theorem replaceNodeAvailableView_replicas :
    (replaceNodeAvailableView c node_id subjects).2.replicas = c.replicas := by
  unfold replaceNodeAvailableView
  dsimp only
  split <;> rfl

theorem mem_holders_reconciled :
    node_id ∈ ((reconcileNodeSubjects c node_id subjects).2.replicas.holders subject).items ↔
      subject ∈ subjects ∨ node_id ∈ (c.replicas.holders subject).items ∧
        (subject ∈ ((c.replicas.byNode.get node_id).getD IterSet.empty).items →
          preservesHistoricalClaim subjects subject = true) := by
  simp only [reconcileNodeSubjects, mem_holders_inserted, mem_holders_removed,
    replaceNodeAvailableView_replicas, mem_ofList, List.mem_filter, Bool.and_eq_true,
    Bool.not_eq_true', ← Bool.not_eq_true, contains_iff]
  by_cases wanted : subject ∈ subjects
  · simp [wanted]
  · simp [wanted]

end Reconcile

def PlacedWithKey (key version_id : String) : Prop :=
  ∀ (digest : Digest) (c : ClusterService),
    (placementForKey digest c (key ++ "@" ++ version_id)).selectedNodes =
      (placementForKey digest c key).selectedNodes

def PlannedWithKey (key version_id : String) : Prop :=
  ∀ (digest : Digest) (s : ReplicationPlanSnapshot) (tolerated tolerated' : Nat),
    (s.planItem digest tolerated (key ++ "@" ++ version_id)).desiredNodes =
      (s.planItem digest tolerated' key).desiredNodes

def ClaimKeptWithKey (key version_id : String) : Prop :=
  ∀ (c : ClusterService) (node_id : NodeId) (subjects : List String), key ∈ subjects →
    node_id ∈ (c.replicas.holders (key ++ "@" ++ version_id)).items →
    node_id ∈ ((reconcileNodeSubjects c node_id subjects).2.replicas.holders
      (key ++ "@" ++ version_id)).items

section Together
variable {key version_id : String}

theorem placedWithKey_iff : PlacedWithKey key version_id ↔ MarkedVersion key version_id := by
  rw [← placementKey_versioned_iff]
  constructor
  · intro together
    by_contra differ
    have equal := together (splittingDigest (replicationPlacementKey (key ++ "@" ++ version_id))
      (replicationPlacementKey key))
      { ClusterService.new 0 singleCopyPolicy 0 with nodes := twoNodes }
    simp only [placementForKey, ClusterService.new] at equal
    exact placement_tells_apart differ equal
  · intro same digest c
    simp only [placementForKey, same]

theorem plannedWithKey_iff : PlannedWithKey key version_id ↔ MarkedVersion key version_id := by
  rw [← placementKey_versioned_iff]
  constructor
  · intro together
    by_contra differ
    have equal := together (splittingDigest (replicationPlacementKey (key ++ "@" ++ version_id))
      (replicationPlacementKey key)) ⟨[], singleCopyPolicy, twoNodes, Table.empty⟩ 0 0
    simp only [ReplicationPlanSnapshot.planItem, ReplicationPlanSnapshot.desiredNodes] at equal
    exact placement_tells_apart differ equal
  · intro same digest s tolerated tolerated'
    simp only [ReplicationPlanSnapshot.planItem, ReplicationPlanSnapshot.desiredNodes, same]

theorem claimKeptWithKey_iff : ClaimKeptWithKey key version_id ↔ MarkedVersion key version_id := by
  constructor
  · intro kept
    by_contra unmarked
    have absent : ¬"@ver-".toList <:+: key.toList := fun occurs => unmarked (.inl occurs)
    have longer : key ++ "@" ++ version_id ≠ key := by
      intro same
      have chars := congrArg (fun text => text.toList.length) same
      simp at chars
    -- One node claims the version alone and then advertises the key.
    have after := kept ((ClusterService.new 0 singleCopyPolicy 0).noteReplica
      (key ++ "@" ++ version_id) 0).2 0 [key] (by simp) (by
        simp [ClusterService.noteReplica, mem_holders_insert])
    rw [mem_holders_reconciled] at after
    rcases after with advertised | ⟨-, preserved⟩
    · exact longer (by simpa using advertised)
    · have listed : key ++ "@" ++ version_id ∈
          (((((ClusterService.new 0 singleCopyPolicy 0).noteReplica (key ++ "@" ++ version_id)
            0).2.replicas.byNode.get 0).getD IterSet.empty).items) := by
        simp [ClusterService.noteReplica, insertSubjectMembership]
      have claim := preserved listed
      simp only [preservesHistoricalClaim, Bool.and_eq_true, decide_eq_true_eq, List.map_cons,
        List.map_nil, List.mem_singleton, placementKey_unmarked absent] at claim
      exact unmarked_version unmarked claim.2
  · intro marked c node_id subjects advertised held
    obtain ⟨versioned, base⟩ := marked_version marked
    rw [mem_holders_reconciled]
    right
    refine ⟨held, fun _ => ?_⟩
    have listed : replicationPlacementKey key ∈ subjects.map replicationPlacementKey :=
      List.mem_map.mpr ⟨key, advertised, rfl⟩
    simp [preservesHistoricalClaim, versioned, base, listed]

end Together

/-- A version is placed, planned and reconciled with its key exactly where the marker of the
    `ver-` ids is found. -/
theorem version_subjects_follow_key_iff (key version_id : String) :
    (PlacedWithKey key version_id ↔ MarkedVersion key version_id) ∧
    (PlannedWithKey key version_id ↔ MarkedVersion key version_id) ∧
    (ClaimKeptWithKey key version_id ↔ MarkedVersion key version_id) :=
  ⟨placedWithKey_iff, plannedWithKey_iff, claimKeptWithKey_iff⟩

def tombstoneDigest : Digest := fun text =>
  if text = "a:00000000-0000-0000-0000-000000000000" then
    [221, 119, 40, 111, 19, 88, 212, 213, 115, 238, 244, 101, 86, 152, 170, 116,
      215, 143, 157, 254, 164, 33, 3, 78, 153, 10, 157, 228, 171, 202, 120, 131]
  else if text = "a:00000000-0000-0000-0000-000000000001" then
    [50, 204, 142, 160, 157, 231, 187, 80, 187, 223, 82, 164, 161, 160, 66, 48,
      185, 144, 235, 51, 206, 173, 243, 144, 200, 198, 71, 205, 114, 227, 245, 33]
  else if text = "a@tomb-1730000001000000000:00000000-0000-0000-0000-000000000000" then
    [7, 175, 148, 163, 254, 32, 118, 49, 20, 113, 136, 195, 168, 201, 83, 175,
      124, 69, 137, 125, 155, 91, 70, 176, 98, 223, 148, 102, 54, 138, 215, 173]
  else
    [9, 148, 236, 64, 120, 202, 56, 250, 244, 73, 183, 227, 251, 81, 245, 249,
      83, 131, 196, 2, 49, 167, 148, 17, 116, 98, 216, 205, 55, 242, 82, 146]

def twoNodeCluster : ClusterService :=
  { ClusterService.new 0 singleCopyPolicy 0 with nodes := twoNodes }

/-- A tombstone goes to another node than its key, and the claim for it is dropped by a node
    that still advertises the key. -/
theorem tombstone_placed_elsewhere :
    (placementForKey tombstoneDigest twoNodeCluster "a").selectedNodes = [0] ∧
    (placementForKey tombstoneDigest twoNodeCluster "a@tomb-1730000001000000000").selectedNodes =
      [1] ∧
    0 ∉ ((reconcileNodeSubjects (twoNodeCluster.noteReplica "a@tomb-1730000001000000000" 0).2 0
      ["a"]).2.replicas.holders "a@tomb-1730000001000000000").items := by
  decide +kernel

end BerryKeepReplicationSubjects
