import BerryKeep.ReplicationPlanning

/-!
Execution of the over-replication cleanup. The plan's extra nodes become drop
candidates, a prefix of the sorted candidates is attempted, and every drop a
peer confirms removes its claim from the membership tables. The question is
how many holders of a subject are left, in the plan and after a whole run.
-/
namespace BerryKeepReplicationCleanup
open FiniteTable TextOperations BerryKeepClusterPlacement BerryKeepReplicationPlanning
open ReplicationPlanSnapshot

def saturatingAdd (a b : Nat) : Nat := min (a + b) (2 ^ 64 - 1)

structure ReplicationCleanupQuery where
  dryRun : Option Bool
  maxDeletions : Option Nat
  retainedOverheadBytes : Option Nat

structure ReplicationCleanupReport where
  dryRun : Bool
  plannedCandidates : Nat
  consideredCandidates : Nat
  targetReclaimedBytes : Nat
  estimatedOverheadBytes : Nat
  reclaimedBytes : Nat
  attemptedDeletions : Nat
  successfulDeletions : Nat
  failedDeletions : Nat
  skippedItems : Nat
  deriving DecidableEq

structure CleanupCandidate where
  subject : String
  key : String
  versionId : String
  nodeId : NodeId
  sizeBytes : Nat
  nodeFreeBytes : Nat
  deriving DecidableEq

def parseReplicationSubject (subject : String) : Option (String × Option String) :=
  if subject = "" then none
  else match rsplitOnce subject '@' with
    | some (key, version_id) =>
      if key ≠ "" ∧ version_id ≠ "" then some (key, some version_id) else some (subject, none)
    | none => some (subject, none)

theorem parse_versioned {subject key version_id : String}
    (parsed : parseReplicationSubject subject = some (key, some version_id)) :
    key ++ "@" ++ version_id = subject := by
  unfold parseReplicationSubject at parsed
  split at parsed
  · cases parsed
  · split at parsed
    · next found =>
      split at parsed
      · cases parsed; exact rsplitOnce_append found
      · cases parsed
    · cases parsed

/-- What the rest of the node answers during one run: the size of the bundle the
    local store exports for a version, and the status of each drop request. -/
structure CleanupEnvironment where
  exportedSize : String → String → Option Nat
  response : Nat → CleanupCandidate → Option Nat

variable {digest : Digest} {s : ReplicationPlanSnapshot} {env : CleanupEnvironment}

def nodeById (nodes : List NodeDescriptor) : Table NodeId NodeDescriptor :=
  nodes.foldl (fun t node => t.put node.nodeId node) Table.empty

def itemCandidates (env : CleanupEnvironment) (nodes : Table NodeId NodeDescriptor)
    (item : ReplicationPlanItem) : List CleanupCandidate × Nat :=
  match parseReplicationSubject item.key with
  | some (key, some version_id) =>
    match env.exportedSize key version_id with
    | some size_bytes =>
      (item.extraNodes.filterMap fun n => (nodes.get n).map fun node =>
          { subject := item.key, key := key, versionId := version_id, nodeId := n,
            sizeBytes := size_bytes, nodeFreeBytes := node.freeBytes },
        item.extraNodes.countP fun n => !nodes.has n)
    | none => ([], 1)
  | _ => ([], 1)

def cleanupCandidates (env : CleanupEnvironment) (nodes : Table NodeId NodeDescriptor)
    (items : List ReplicationPlanItem) : List CleanupCandidate × Nat :=
  let found := (items.filter fun item => !item.extraNodes.isEmpty).map (itemCandidates env nodes)
  ((found.map Prod.fst).flatten, (found.map Prod.snd).sum)

def dropsBefore (a b : CleanupCandidate) : Prop :=
  a.nodeFreeBytes < b.nodeFreeBytes ∨
    a.nodeFreeBytes = b.nodeFreeBytes ∧ b.sizeBytes ≤ a.sizeBytes

instance : DecidableRel dropsBefore := fun a b =>
  inferInstanceAs (Decidable (a.nodeFreeBytes < b.nodeFreeBytes ∨ _ ∧ _))

def selectCandidates (max_deletions target : Nat) :
    List CleanupCandidate → List CleanupCandidate → Nat → List CleanupCandidate × Nat
  | [], selected, bytes => (selected, bytes)
  | candidate :: rest, selected, bytes =>
    if max_deletions ≤ selected.length then (selected, bytes)
    else if target ≤ bytes then (selected, bytes)
    else selectCandidates max_deletions target rest (selected ++ [candidate])
      (saturatingAdd bytes candidate.sizeBytes)

structure DeletionState where
  cluster : ClusterService
  attempted : Nat
  successful : Nat
  failed : Nat
  reclaimed : Nat

def confirmed (status : Option Nat) : Bool := status.any fun code => 200 ≤ code && code < 300

def dropClaims (c : ClusterService) (candidate : CleanupCandidate) : ClusterService :=
  let named := candidate.key ++ "@" ++ candidate.versionId
  (((c.removeReplica candidate.subject candidate.nodeId).removeAvailable candidate.subject
    candidate.nodeId).removeReplica named candidate.nodeId).removeAvailable named candidate.nodeId

def deleteOne (env : CleanupEnvironment) (d : DeletionState) (candidate : CleanupCandidate) :
    DeletionState :=
  if confirmed (env.response d.attempted candidate) then
    { d with
      cluster := dropClaims d.cluster candidate
      attempted := d.attempted + 1
      successful := d.successful + 1
      reclaimed := saturatingAdd d.reclaimed candidate.sizeBytes }
  else { d with attempted := d.attempted + 1, failed := d.failed + 1 }

def runCleanup (env : CleanupEnvironment) (c : ClusterService) (plan : ReplicationPlan)
    (query : ReplicationCleanupQuery) : ReplicationCleanupReport × ClusterService :=
  let dry_run := query.dryRun.getD true
  let max_deletions := max (query.maxDeletions.getD 64) 1
  let (found, skipped) := cleanupCandidates env (nodeById c.listNodes) plan.items
  let candidates := found.insertionSort dropsBefore
  let estimated := candidates.foldl (fun acc cand => saturatingAdd acc cand.sizeBytes) 0
  let target := estimated - query.retainedOverheadBytes.getD 0
  let (selected, selected_bytes) := selectCandidates max_deletions target candidates [] 0
  let done : DeletionState :=
    if dry_run then ⟨c, selected.length, selected.length, 0, selected_bytes⟩
    else selected.foldl (deleteOne env) ⟨c, 0, 0, 0, 0⟩
  ({ dryRun := dry_run
     plannedCandidates := plan.overReplicated
     consideredCandidates := done.attempted
     targetReclaimedBytes := target
     estimatedOverheadBytes := estimated
     reclaimedBytes := done.reclaimed
     attemptedDeletions := done.attempted
     successfulDeletions := done.successful
     failedDeletions := done.failed
     skippedItems := skipped }, done.cluster)

def planningReplicationSubjects (local_subjects : List String) (c : ClusterService) :
    List String :=
  (local_subjects ++ c.available.byKey.keys).dedup.insertionSort (· ≤ ·)

def replicationPlanSnapshot (c : ClusterService) (keys : List String) :
    ReplicationPlanSnapshot where
  keys := keys
  policy := c.policy
  nodes := c.nodes
  currentReplicasByKey := keys.foldl
    (fun t key => t.put key (c.currentReplicaNodesForSubject key)) Table.empty

def executeReplicationCleanup (digest : Digest) (env : CleanupEnvironment)
    (local_subjects : List String) (now : Nat) (c : ClusterService)
    (query : ReplicationCleanupQuery) : ReplicationCleanupReport × ClusterService :=
  let keys := planningReplicationSubjects local_subjects c
  let c := (c.updateHealthAndDetectOfflineTransition now).2
  runCleanup env c ((replicationPlanSnapshot c keys).plan digest now) query

section RemainingHolders

theorem length_filter_outside {xs ys : List NodeId} (xnodup : xs.Nodup) (ynodup : ys.Nodup)
    (inside : ∀ n ∈ ys, n ∈ xs) :
    (xs.filter fun n => decide (n ∉ ys)).length + ys.length = xs.length := by
  have same : (xs.filter fun n => decide (n ∈ ys)).Perm ys := by
    rw [List.perm_ext_iff_of_nodup (xnodup.filter _) ynodup]
    intro n
    simp only [List.mem_filter, decide_eq_true_eq]
    exact ⟨And.right, fun member => ⟨inside n member, member⟩⟩
  have halves := List.length_eq_length_filter_add (l := xs) (fun n => decide (n ∈ ys))
  have complement : (xs.filter fun n => !decide (n ∈ ys)) =
      xs.filter fun n => decide (n ∉ ys) := by
    apply List.filter_congr
    intro n _
    simp
  rw [complement, same.length_eq] at halves
  omega

def remainingNodes (item : ReplicationPlanItem) : List NodeId :=
  item.currentNodes.filter fun n => decide (n ∉ item.extraNodes)

theorem remainingNodes_length (s : ReplicationPlanSnapshot) (digest : Digest) (tolerated : Nat)
    (key : String) :
    (remainingNodes (s.planItem digest tolerated key)).length +
      (s.planItem digest tolerated key).extraNodes.length = (s.currentSet key).size := by
  have sorted := List.perm_insertionSort (· ≤ ·) (s.currentSet key).items
  have counted := length_filter_outside (sorted.nodup_iff.mpr (s.currentSet key).nodup)
    (extraNodes_nodup s digest tolerated key)
    (fun n member => sorted.mem_iff.mpr (mem_extraNodes member))
  rw [sorted.length_eq] at counted
  exact counted

-- Holders the plan never drops: placement wants them, or they are remembered offline peers.
def keptHolders (s : ReplicationPlanSnapshot) (digest : Digest) (key : String) : Nat :=
  (s.currentSet key).items.countP fun n => !s.droppable digest key n

theorem kept_add_droppable (s : ReplicationPlanSnapshot) (digest : Digest) (key : String) :
    keptHolders s digest key + droppableHolders s digest key = (s.currentSet key).size := by
  have halves := List.length_eq_countP_add_countP (l := (s.currentSet key).items)
    (s.droppable digest key)
  have complement : ((s.currentSet key).items.countP fun n => !s.droppable digest key n) =
      (s.currentSet key).items.countP fun n => decide ¬s.droppable digest key n = true := by
    apply List.countP_congr
    intro n _
    simp
  unfold keptHolders droppableHolders IterSet.size
  omega

end RemainingHolders

section CleanupRun

/-- The snapshot was taken from this cluster; the copied holder sets may iterate
    in another order. -/
structure Captures (c : ClusterService) (s : ReplicationPlanSnapshot) : Prop where
  keys_nodup : s.keys.Nodup
  policy : s.policy = c.policy
  nodes : s.nodes = c.nodes
  holders : ∀ key ∈ s.keys,
    (s.currentSet key).items.Perm (c.currentReplicaNodesForSubject key).items

theorem get_collected (c : ClusterService) (key : String) (keys : List String) :
    ∀ t : Table String (IterSet NodeId),
      (keys.foldl (fun t key => t.put key (c.currentReplicaNodesForSubject key)) t).get key =
        if key ∈ keys then some (c.currentReplicaNodesForSubject key) else t.get key := by
  induction keys with
  | nil => intro t; rfl
  | cons first keys ih =>
    intro t
    rw [List.foldl_cons, ih, get_put]
    by_cases later : key ∈ keys
    · simp [later]
    · by_cases same : key = first
      · subst same; simp [later]
      · simp [later, same]

/-- Every execution plans from a snapshot of the cluster it then changes. -/
theorem execute_captures (local_subjects : List String) (now : Nat) (c : ClusterService) :
    Captures (c.updateHealthAndDetectOfflineTransition now).2
      (replicationPlanSnapshot (c.updateHealthAndDetectOfflineTransition now).2
        (planningReplicationSubjects local_subjects c)) where
  keys_nodup := (List.perm_insertionSort _ _).nodup_iff.mpr (List.nodup_dedup _)
  policy := rfl
  nodes := rfl
  holders := by
    intro key member
    have stored := get_collected (c.updateHealthAndDetectOfflineTransition now).2 key
      (planningReplicationSubjects local_subjects c) Table.empty
    rw [if_pos (show key ∈ planningReplicationSubjects local_subjects c from member)] at stored
    unfold currentSet replicationPlanSnapshot
    rw [stored]
    exact List.Perm.refl _

variable {cand : CleanupCandidate}

theorem itemCandidates_mem {nodes : Table NodeId NodeDescriptor} {item : ReplicationPlanItem}
    (member : cand ∈ (itemCandidates env nodes item).1) :
    cand.subject = item.key ∧ cand.nodeId ∈ item.extraNodes ∧
      cand.key ++ "@" ++ cand.versionId = item.key := by
  unfold itemCandidates at member
  split at member
  · next key version_id parsed =>
    split at member
    · obtain ⟨n, extra, built⟩ := List.mem_filterMap.mp member
      cases known : nodes.get n with
      | none => simp [known] at built
      | some node =>
        simp only [known, Option.map_some, Option.some.injEq] at built
        subst built
        exact ⟨rfl, extra, parse_versioned parsed⟩
    · cases member
  · cases member

theorem cleanupCandidates_mem {nodes : Table NodeId NodeDescriptor}
    {items : List ReplicationPlanItem}
    (member : cand ∈ (cleanupCandidates env nodes items).1) :
    ∃ item ∈ items, cand.subject = item.key ∧ cand.nodeId ∈ item.extraNodes ∧
      cand.key ++ "@" ++ cand.versionId = item.key := by
  simp only [cleanupCandidates, List.map_map, List.mem_flatten, List.mem_map,
    List.mem_filter] at member
  obtain ⟨_, ⟨item, ⟨inside, _⟩, rfl⟩, found⟩ := member
  exact ⟨item, inside, itemCandidates_mem found⟩

theorem selectCandidates_mem (max_deletions target : Nat) :
    ∀ (rest selected : List CleanupCandidate) (bytes : Nat),
      cand ∈ (selectCandidates max_deletions target rest selected bytes).1 →
        cand ∈ selected ∨ cand ∈ rest := by
  intro rest
  induction rest with
  | nil => intro selected bytes member; exact .inl member
  | cons next rest ih =>
    intro selected bytes member
    simp only [selectCandidates] at member
    split at member
    · exact .inl member
    · split at member
      · exact .inl member
      · rcases ih _ _ member with early | late
        · rcases List.mem_append.mp early with old | new
          · exact .inl old
          · exact .inr (by simp [List.mem_singleton.mp new])
        · exact .inr (List.mem_cons_of_mem _ late)

variable {key : String} {n : NodeId}

theorem dropClaims_keeps {c : ClusterService}
    (named : cand.key ++ "@" ++ cand.versionId = cand.subject)
    (holds : n ∈ (c.currentReplicaNodesForSubject key).items)
    (other : cand.subject = key → n ≠ cand.nodeId) :
    n ∈ ((dropClaims c cand).currentReplicaNodesForSubject key).items := by
  have once : ∀ d : ClusterService, n ∈ (d.currentReplicaNodesForSubject key).items →
      n ∈ ((d.removeAvailable cand.subject cand.nodeId).currentReplicaNodesForSubject key).items := by
    intro d member
    rw [removeAvailable_current]
    split
    · next same =>
      subst same
      exact (d.currentReplicaNodesForSubject cand.subject).nodup.mem_erase_iff.mpr
        ⟨other rfl, member⟩
    · exact member
  unfold dropClaims
  simp only [named]
  apply once
  rw [removeReplica_current]
  apply once
  rw [removeReplica_current]
  exact holds

theorem deletions_keep (cands : List CleanupCandidate)
    (named : ∀ cand ∈ cands, cand.key ++ "@" ++ cand.versionId = cand.subject)
    (other : ∀ cand ∈ cands, cand.subject = key → n ≠ cand.nodeId) :
    ∀ d : DeletionState, n ∈ (d.cluster.currentReplicaNodesForSubject key).items →
      n ∈ ((cands.foldl (deleteOne env) d).cluster.currentReplicaNodesForSubject key).items := by
  intro d holds
  refine List.foldlRecOn (motive := fun d : DeletionState =>
    n ∈ (d.cluster.currentReplicaNodesForSubject key).items) cands _ holds
      fun d holds cand member => ?_
  unfold deleteOne
  split
  · exact dropClaims_keeps (named cand member) holds (other cand member)
  · exact holds

theorem runCleanup_keeps {c : ClusterService} {plan : ReplicationPlan}
    (query : ReplicationCleanupQuery) (holds : n ∈ (c.currentReplicaNodesForSubject key).items)
    (spared : ∀ item ∈ plan.items, item.key = key → n ∉ item.extraNodes) :
    n ∈ ((runCleanup env c plan query).2.currentReplicaNodesForSubject key).items := by
  unfold runCleanup
  simp only
  split
  · exact holds
  · have source : ∀ target, ∀ cand ∈ (selectCandidates (max (query.maxDeletions.getD 64) 1) target
        ((cleanupCandidates env (nodeById c.listNodes) plan.items).1.insertionSort dropsBefore)
        [] 0).1, ∃ item ∈ plan.items, cand.subject = item.key ∧ cand.nodeId ∈ item.extraNodes ∧
          cand.key ++ "@" ++ cand.versionId = item.key := by
      intro target cand member
      rcases selectCandidates_mem _ _ _ _ _ member with none_yet | candidate
      · cases none_yet
      · exact cleanupCandidates_mem ((List.mem_insertionSort _).mp candidate)
    apply deletions_keep
    · intro cand member
      obtain ⟨item, _, subject, _, named⟩ := source _ cand member
      rw [subject, named]
    · intro cand member same dropped
      obtain ⟨item, inside, subject, extra, _⟩ := source _ cand member
      exact spared item inside (subject.symm.trans same) (dropped ▸ extra)
    · exact holds

end CleanupRun

section Target

def PlanKeepsTarget (digest : Digest) (s : ReplicationPlanSnapshot) : Prop :=
  ∀ now, ∀ item ∈ (s.plan digest now).items, item.extraNodes ≠ [] →
    item.desiredNodes.length ≤ (remainingNodes item).length

def RunsKeepTarget (digest : Digest) (s : ReplicationPlanSnapshot) : Prop :=
  ∀ (env : CleanupEnvironment) (c : ClusterService) (now : Nat) (query : ReplicationCleanupQuery),
    Captures c s → ∀ item ∈ (s.plan digest now).items, item.extraNodes ≠ [] →
      item.desiredNodes.length ≤
        ((runCleanup env c (s.plan digest now) query).2.currentReplicaNodesForSubject item.key).size

/-- Each over-replicated subject either fits into the tolerance its predecessors
    left, or the holders never dropped and that tolerance make up the target. -/
def CleanupMargin (digest : Digest) (s : ReplicationPlanSnapshot) : Prop :=
  ∀ earlier key later, s.keys = earlier ++ key :: later →
    (s.desiredNodes digest key).length < (s.currentSet key).size →
      let tolerated := toleranceLeft s digest s.policy.acceptedOverReplicationItems earlier
      droppableHolders s digest key ≤ tolerated ∨
        (s.desiredNodes digest key).length ≤ keptHolders s digest key + tolerated

theorem planItem_keeps_target_iff (s : ReplicationPlanSnapshot) (digest : Digest)
    (tolerated : Nat) (key : String) :
    ((s.planItem digest tolerated key).extraNodes ≠ [] →
        (s.desiredNodes digest key).length ≤
          (remainingNodes (s.planItem digest tolerated key)).length) ↔
      ((s.desiredNodes digest key).length < (s.currentSet key).size →
        droppableHolders s digest key ≤ tolerated ∨
          (s.desiredNodes digest key).length ≤ keptHolders s digest key + tolerated) := by
  have remaining := remainingNodes_length s digest tolerated key
  have extra := extraNodes_length s digest tolerated key
  have halves := kept_add_droppable s digest key
  rw [← List.length_pos_iff]
  by_cases exceeds : (s.desiredNodes digest key).length < (s.currentSet key).size
  · rw [extraPressure, if_pos exceeds] at extra
    constructor
    · intro keeps _
      by_cases tolerable : droppableHolders s digest key ≤ tolerated
      · exact .inl tolerable
      · have := keeps (by omega)
        omega
    · intro margin nonempty
      rcases margin exceeds with tolerable | enough <;> omega
  · rw [extraPressure, if_neg exceeds] at extra
    constructor
    · intro _ contrary
      exact absurd contrary exceeds
    · intro _ nonempty
      omega

theorem planKeepsTarget_iff (digest : Digest) (s : ReplicationPlanSnapshot) :
    PlanKeepsTarget digest s ↔ CleanupMargin digest s := by
  constructor
  · intro keeps earlier key later split
    apply (planItem_keeps_target_iff s digest _ key).mp
    intro nonempty
    have shown : reported (s.planItem digest (toleranceLeft s digest
        s.policy.acceptedOverReplicationItems earlier) key) = true := by
      have filled := List.isEmpty_eq_false_iff.mpr nonempty
      simp [reported, filled]
    exact keeps 0 _ ((mem_planItems _ _ _).mpr ⟨earlier, key, later, split, shown, rfl⟩) nonempty
  · intro margin now item member
    obtain ⟨earlier, key, later, split, _, rfl⟩ := (mem_planItems _ _ _).mp member
    exact (planItem_keeps_target_iff s digest _ key).mpr (margin earlier key later split)

theorem item_unique {now : Nat} (nodup : s.keys.Nodup) {a b : ReplicationPlanItem}
    (ain : a ∈ (s.plan digest now).items) (bin : b ∈ (s.plan digest now).items)
    (same : a.key = b.key) : a = b := by
  obtain ⟨ea, ka, la, asplit, _, rfl⟩ := (mem_planItems _ _ _).mp ain
  obtain ⟨eb, kb, lb, bsplit, _, rfl⟩ := (mem_planItems _ _ _).mp bin
  change ka = kb at same
  subst same
  rw [asplit] at nodup bsplit
  have distinct := (List.nodup_middle.mp nodup)
  rw [List.nodup_cons, List.mem_append, not_or] at distinct
  obtain ⟨rfl, _, _⟩ :=
    (List.append_cons_inj_of_notMem distinct.1.1 distinct.1.2).mp bsplit
  rfl

theorem runsKeepTarget_of_plan (keeps : PlanKeepsTarget digest s) : RunsKeepTarget digest s := by
  intro env c now query captures item member nonempty
  have planned := keeps now item member nonempty
  obtain ⟨earlier, key, later, split, _, same⟩ := (mem_planItems _ _ _).mp member
  have listed : item.key ∈ s.keys := by rw [split, same]; simp [planItem]
  have sorted := List.perm_insertionSort (· ≤ ·) (s.currentSet key).items
  have current : item.currentNodes.Perm (c.currentReplicaNodesForSubject item.key).items := by
    rw [same] at listed ⊢
    exact sorted.trans (captures.holders key listed)
  -- The holders the plan spares are still claimed after the run.
  have spared : ∀ n ∈ remainingNodes item, n ∈ ((runCleanup env c (s.plan digest now)
      query).2.currentReplicaNodesForSubject item.key).items := by
    intro n remains
    obtain ⟨inside, outside⟩ := List.mem_filter.mp remains
    apply runCleanup_keeps query (current.mem_iff.mp inside)
    intro other present equal
    rw [item_unique captures.keys_nodup present member equal]
    simpa using outside
  have nodup : (remainingNodes item).Nodup :=
    (current.nodup_iff.mpr (c.currentReplicaNodesForSubject item.key).nodup).filter _
  exact planned.trans (List.subperm_of_subset nodup spared).length_le

/-- Cleanup keeps the replication target, in the plan and in every run that follows
    it, exactly when each over-replicated subject has the margin. -/
theorem cleanup_keeps_target_iff (digest : Digest) (s : ReplicationPlanSnapshot) :
    (PlanKeepsTarget digest s ∧ RunsKeepTarget digest s) ↔ CleanupMargin digest s := by
  rw [← planKeepsTarget_iff]
  exact ⟨And.left, fun keeps => ⟨keeps, runsKeepTarget_of_plan keeps⟩⟩

end Target

section Drift

-- The leading digest bytes of "a:" followed by the texts of the nodes 1 to 5.
def driftedDigest : Digest := fun text =>
  if text = "a:00000000-0000-0000-0000-000000000001" then [0x32, 0xcc, 0x8e, 0xa0, 0x9d, 0xe7, 0xbb, 0x50]
  else if text = "a:00000000-0000-0000-0000-000000000002" then [0x11, 0x5d, 0xa7, 0x84, 0xb7, 0x7d, 0x74, 0x8f]
  else if text = "a:00000000-0000-0000-0000-000000000003" then [0xc9, 0x8b, 0x92, 0x91, 0x46, 0xbe, 0xdf, 0xb2]
  else if text = "a:00000000-0000-0000-0000-000000000004" then [0xb9, 0x1c, 0xca, 0x98, 0x85, 0x3d, 0x9b, 0xd8]
  else if text = "a:00000000-0000-0000-0000-000000000005" then [0x6d, 0x28, 0x14, 0x31, 0xb7, 0x6e, 0x04, 0xc4]
  else []

def onlineNode (node_id : NodeId) : NodeDescriptor where
  nodeId := node_id
  labels := Table.empty
  freeBytes := 100
  lastHeartbeatUnix := 0
  status := .online

def driftedCluster : ClusterService :=
  let empty := ClusterService.new 1 { ReplicationPolicy.default with replicationFactor := 2 } 30
  let joined := [1, 2, 3, 4, 5].foldl
    (fun nodes n => nodes.put n (onlineNode n)) empty.nodes
  [1, 2, 5].foldl (fun c n => (c.noteReplica "a@ver-1" n).2) { empty with nodes := joined }

def driftedEnvironment : CleanupEnvironment := ⟨fun _ _ => some 10, fun _ _ => some 200⟩

/-- The plan names all three holders as extra, and the run leaves none. -/
theorem drifted_cleanup_drops_all :
    ((replicationPlanSnapshot driftedCluster ["a@ver-1"]).plan driftedDigest 0).items =
        [{ key := "a@ver-1", desiredNodes := [3, 4], currentNodes := [1, 2, 5],
           missingNodes := [], extraNodes := [5, 2, 1], cleanupOption := .recommended,
           deferredExtraNodes := 0 }] ∧
      ((executeReplicationCleanup driftedDigest driftedEnvironment [] 0 driftedCluster
        ⟨some false, none, none⟩).2.currentReplicaNodesForSubject "a@ver-1").size = 0 := by
  decide +kernel

end Drift

end BerryKeepReplicationCleanup
