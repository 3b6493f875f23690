import BerryKeep.ClusterLifecycle

/-!
Two laws of the replication plan over all its subjects. The tolerated
over-replication is one budget that the pass spends in order and to the last
replica. And the plan's missing nodes are exactly a repair: once each is
recorded the next plan asks for nothing more and plans no removal it caused.
-/
namespace BerryKeepReplicationConvergence
open FiniteTable BerryKeepClusterPlacement BerryKeepReplicationPlanning
open BerryKeepReplicationCleanup BerryKeepReplicationSubjects BerryKeepClusterLifecycle
open ReplicationPlanSnapshot

section ToleranceBudget
variable (s : ReplicationPlanSnapshot) (digest : Digest)

-- The words of the budget law, read off the snapshot and not off the pass.
def placedNodes (key : String) : List NodeId :=
  selectNodesByRendezvous digest (replicationPlacementKey key) s.nodes s.policy

def freeSpace (n : NodeId) : Nat := ((s.nodes.get n).map (·.freeBytes)).getD 0

/-- The raw extra holders of a key: it has more holders than placement wants, and of those
    outside the placement the ones that the node map has online or does not know. -/
def rawExtras (key : String) : List NodeId :=
  match s.currentReplicasByKey.get key with
  | none => []
  | some holders => holders.items.filter fun n =>
      (placedNodes s digest key).length < holders.items.length ∧ n ∉ placedNodes s digest key ∧
        ∀ node ∈ s.nodes.get n, node.status = .online

def rawExtraTotal (keys : List String) : Nat :=
  (keys.map fun key => (rawExtras s digest key).length).sum

theorem freeBytesOf_eq (n : NodeId) : s.freeBytesOf n = freeSpace s n := by
  unfold freeBytesOf freeSpace
  cases s.nodes.get n <;> rfl

theorem droppable_iff (key : String) (n : NodeId) :
    s.droppable digest key n = true ↔
      n ∉ placedNodes s digest key ∧ ∀ node ∈ s.nodes.get n, node.status = .online := by
  unfold droppable countsAsOnline
  rw [Bool.and_eq_true, Bool.not_eq_true', List.contains_eq_mem, decide_eq_false_iff_not]
  apply and_congr Iff.rfl
  cases s.nodes.get n <;> simp

theorem rawExtraNodes_perm (key : String) :
    (s.rawExtraNodes digest key).Perm (rawExtras s digest key) := by
  have wanted : s.desiredNodes digest key = placedNodes s digest key := rfl
  unfold rawExtraNodes rawExtras
  rw [wanted]
  cases held : s.currentReplicasByKey.get key with
  | none =>
    have nobody : s.currentSet key = IterSet.empty := by rw [currentSet, held]; rfl
    rw [nobody]
    exact List.Perm.refl []
  | some holders =>
    have current : s.currentSet key = holders := by rw [currentSet, held]; rfl
    rw [current]
    split
    · next many =>
      refine (List.perm_insertionSort _ _).trans (List.Perm.of_eq ?_)
      apply List.filter_congr
      intro n _
      rw [Bool.eq_iff_iff, droppable_iff, decide_eq_true_eq]
      exact ⟨fun loose => ⟨many, loose⟩, fun both => both.2⟩
    · next few =>
      apply List.Perm.of_eq
      symm
      apply List.filter_eq_nil_iff.mpr
      intro n _
      rw [decide_eq_true_eq]
      exact fun both => few both.1

theorem rawExtras_length (key : String) :
    (rawExtras s digest key).length = extraPressure s digest key := by
  rw [← rawExtraNodes_length]
  exact (rawExtraNodes_perm s digest key).length_eq.symm

theorem rawExtraTotal_cons (key : String) (keys : List String) :
    rawExtraTotal s digest (key :: keys) =
      extraPressure s digest key + rawExtraTotal s digest keys := by
  rw [← rawExtras_length]
  rfl

theorem deferredExtraNodes_eq (tolerated : Nat) (key : String) :
    (s.planItem digest tolerated key).deferredExtraNodes =
      min (extraPressure s digest key) tolerated := by
  rw [← rawExtraNodes_length]
  rfl

-- An item that is left out has neither planned nor deferred extras.
theorem unreported_has_no_extras {item : ReplicationPlanItem} (hidden : ¬reported item = true) :
    item.extraNodes.length = 0 ∧ item.deferredExtraNodes = 0 := by
  simp only [reported, Bool.or_eq_true, Bool.not_eq_true', List.isEmpty_eq_false_iff,
    decide_eq_true_eq, not_or, not_not] at hidden
  constructor
  · rw [hidden.1.2]
    rfl
  · omega

theorem planItems_spend (keys : List String) :
    ∀ tolerated : Nat,
      ((s.planItems digest keys tolerated).map (·.deferredExtraNodes)).sum =
          min tolerated (rawExtraTotal s digest keys) ∧
        ((s.planItems digest keys tolerated).map (·.extraNodes.length)).sum =
          rawExtraTotal s digest keys - min tolerated (rawExtraTotal s digest keys) := by
  induction keys with
  | nil =>
    intro tolerated
    simp [planItems, rawExtraTotal]
  | cons key keys ih =>
    intro tolerated
    have spent := ih (tolerated - (s.planItem digest tolerated key).deferredExtraNodes)
    have deferred := deferredExtraNodes_eq s digest tolerated key
    have planned := extraNodes_length s digest tolerated key
    rw [rawExtraTotal_cons]
    simp only [planItems]
    split
    · simp only [List.map_cons, List.sum_cons]
      omega
    · next hidden =>
      have none_here := unreported_has_no_extras hidden
      omega

theorem rawExtraNodes_sorted (key : String) :
    (s.rawExtraNodes digest key).Pairwise fun a b => freeSpace s a ≤ freeSpace s b := by
  simp only [← freeBytesOf_eq]
  unfold rawExtraNodes
  split
  · have total : Std.Total fun a b => s.freeBytesOf a ≤ s.freeBytesOf b :=
      ⟨fun a b => Nat.le_total _ _⟩
    have trans : IsTrans NodeId fun a b => s.freeBytesOf a ≤ s.freeBytesOf b :=
      ⟨fun a b c => Nat.le_trans⟩
    exact List.pairwise_insertionSort _ _
  · exact List.Pairwise.nil

theorem extraNodes_begin_raw (tolerated : Nat) (key : String) :
    (s.planItem digest tolerated key).extraNodes <+: s.rawExtraNodes digest key :=
  List.take_prefix _ _

theorem deferred_not_below_planned (tolerated : Nat) (key : String) {planned kept : NodeId}
    (inside : planned ∈ (s.planItem digest tolerated key).extraNodes)
    (later : kept ∈ (s.rawExtraNodes digest key).drop
      (s.planItem digest tolerated key).extraNodes.length) :
    freeSpace s planned ≤ freeSpace s kept := by
  obtain ⟨rest, whole⟩ := extraNodes_begin_raw s digest tolerated key
  have sorted := rawExtraNodes_sorted s digest key
  rw [← whole, List.drop_left] at later
  rw [← whole] at sorted
  exact (List.pairwise_append.mp sorted).2.2 planned inside kept later

/-- The tolerance is spent exactly, on the extra holders with the most free space. -/
theorem over_replication_tolerance_spent_exactly (now : Nat) :
    (s.plan digest now).cleanupDeferredExtraNodes =
        min s.policy.acceptedOverReplicationItems (rawExtraTotal s digest s.keys) ∧
      ((s.plan digest now).items.map (·.extraNodes.length)).sum =
        rawExtraTotal s digest s.keys -
          min s.policy.acceptedOverReplicationItems (rawExtraTotal s digest s.keys) ∧
      ∀ item ∈ (s.plan digest now).items, ∃ sorted : List NodeId,
        sorted.Perm (rawExtras s digest item.key) ∧
          sorted.Pairwise (fun a b => freeSpace s a ≤ freeSpace s b) ∧
          item.extraNodes <+: sorted ∧
          item.deferredExtraNodes = (sorted.drop item.extraNodes.length).length ∧
          ∀ planned ∈ item.extraNodes, ∀ kept ∈ sorted.drop item.extraNodes.length,
            freeSpace s planned ≤ freeSpace s kept := by
  have spent := planItems_spend s digest s.keys s.policy.acceptedOverReplicationItems
  constructor
  · exact spent.1
  constructor
  · exact spent.2
  intro item member
  obtain ⟨earlier, key, later, _, _, rfl⟩ := (mem_planItems s.keys _ item).mp member
  have counted : (s.planItem digest
      (toleranceLeft s digest s.policy.acceptedOverReplicationItems earlier) key).deferredExtraNodes =
        ((s.rawExtraNodes digest key).drop (s.planItem digest
          (toleranceLeft s digest s.policy.acceptedOverReplicationItems earlier)
            key).extraNodes.length).length := by
    rw [deferredExtraNodes_eq, List.length_drop, extraNodes_length, rawExtraNodes_length]
    omega
  exact ⟨s.rawExtraNodes digest key, rawExtraNodes_perm s digest key,
    rawExtraNodes_sorted s digest key, extraNodes_begin_raw s digest _ key, counted,
    fun planned inside kept rest => deferred_not_below_planned s digest _ key inside rest⟩

end ToleranceBudget

section Repair
variable (digest : Digest)

def replicationPlan (c : ClusterService) (keys : List String) (now : Nat) : ReplicationPlan :=
  (replicationPlanSnapshot c keys).plan digest now

def noteReplicas (c : ClusterService) (calls : List (String × NodeId)) : ClusterService :=
  calls.foldl (fun c call => (c.noteReplica call.1 call.2).2) c

def missingReplicas (plan : ReplicationPlan) : List (String × NodeId) :=
  plan.items.flatMap fun item => item.missingNodes.map fun n => (item.key, n)

theorem noteReplica_current (c : ClusterService) (key other : String) (n m : NodeId) :
    m ∈ ((c.noteReplica key n).2.currentReplicaNodesForSubject other).items ↔
      m ∈ (c.currentReplicaNodesForSubject other).items ∨ (other, m) = (key, n) := by
  unfold ClusterService.noteReplica ClusterService.currentReplicaNodesForSubject
    insertSubjectMembership SubjectMembership.holders
  simp only [get_put]
  by_cases same : other = key
  · subst same
    simp [Prod.mk.injEq, or_comm]
  · simp [same]

theorem noteReplicas_frame (calls : List (String × NodeId)) :
    ∀ c : ClusterService, (noteReplicas c calls).nodes = c.nodes ∧
      (noteReplicas c calls).policy = c.policy := by
  induction calls with
  | nil => intro c; exact ⟨rfl, rfl⟩
  | cons call calls ih => intro c; exact ih (c.noteReplica call.1 call.2).2

theorem noteReplicas_current (calls : List (String × NodeId)) (key : String) (n : NodeId) :
    ∀ c : ClusterService,
      n ∈ ((noteReplicas c calls).currentReplicaNodesForSubject key).items ↔
        n ∈ (c.currentReplicaNodesForSubject key).items ∨ (key, n) ∈ calls := by
  induction calls with
  | nil => intro c; simp [noteReplicas]
  | cons call calls ih =>
    intro c
    have tail := ih (c.noteReplica call.1 call.2).2
    rw [noteReplica_current] at tail
    rw [List.mem_cons, ← or_assoc]
    exact tail

theorem placementForKey_noteReplicas (c : ClusterService) (calls : List (String × NodeId))
    (key : String) : (placementForKey digest (noteReplicas c calls) key).selectedNodes =
      (placementForKey digest c key).selectedNodes := by
  unfold placementForKey
  rw [(noteReplicas_frame calls c).1, (noteReplicas_frame calls c).2]

variable {keys : List String} {key : String}

theorem currentSet_snapshot (c : ClusterService)
    (member : key ∈ keys) : (replicationPlanSnapshot c keys).currentSet key =
      c.currentReplicaNodesForSubject key := by
  have stored := get_collected c key keys Table.empty
  rw [if_pos member] at stored
  unfold currentSet replicationPlanSnapshot
  rw [stored]
  rfl

def missingFor (c : ClusterService) (key : String) : List NodeId :=
  ((placementForKey digest c key).selectedNodes.filter fun n =>
      !(c.currentReplicaNodesForSubject key).contains n).take
    ((placementForKey digest c key).selectedNodes.length - (c.currentReplicaNodesForSubject key).size)

theorem planItem_missingNodes (c : ClusterService)
    (member : key ∈ keys) (tolerated : Nat) :
    ((replicationPlanSnapshot c keys).planItem digest tolerated key).missingNodes =
      missingFor digest c key := by
  unfold planItem missingFor
  rw [currentSet_snapshot c member]
  rfl

theorem mem_missingReplicas (c : ClusterService)
    (member : key ∈ keys) (now : Nat) (n : NodeId) :
    (key, n) ∈ missingReplicas (replicationPlan digest c keys now) ↔
      n ∈ missingFor digest c key := by
  simp only [missingReplicas, List.mem_flatMap, List.mem_map, Prod.mk.injEq]
  constructor
  · intro found
    obtain ⟨item, listed, m, missing, same, rfl⟩ := found
    obtain ⟨earlier, own, later, split, _, rfl⟩ := (mem_planItems _ _ item).mp listed
    have own_key : own = key := same
    subst own_key
    rw [planItem_missingNodes digest c member] at missing
    exact missing
  · intro missing
    obtain ⟨earlier, later, split⟩ := List.append_of_mem member
    let item := (replicationPlanSnapshot c keys).planItem digest (toleranceLeft
      (replicationPlanSnapshot c keys) digest c.policy.acceptedOverReplicationItems earlier) key
    have asked : n ∈ item.missingNodes := by
      rw [planItem_missingNodes digest c member]
      exact missing
    have shown : reported item = true := by
      simp [reported, List.ne_nil_of_mem asked]
    exact ⟨item, (mem_planItems _ _ item).mpr ⟨earlier, key, later, split, shown, rfl⟩,
      n, asked, rfl, rfl⟩

theorem absent_fill_gap {wanted : List NodeId} (distinct : wanted.Nodup) (holders : IterSet NodeId) :
    wanted.length - holders.size ≤ (wanted.filter fun n => !holders.contains n).length := by
  have present : (wanted.filter fun n => holders.contains n).length ≤ holders.size := by
    apply List.Subperm.length_le
    apply List.subperm_of_subset (distinct.filter _)
    intro n inside
    exact (contains_iff holders n).mp (List.mem_filter.mp inside).2
  have halves := List.length_eq_length_filter_add (l := wanted) fun n => holders.contains n
  omega

variable {c : ClusterService} (keyed : NodesKeyed c.nodes)
include keyed

theorem missingFor_length (key : String) : (missingFor digest c key).length =
    (placementForKey digest c key).selectedNodes.length - (c.currentReplicaNodesForSubject key).size := by
  have distinct := selectNodesByRendezvous_nodup keyed digest (replicationPlacementKey key) c.policy
  have enough := absent_fill_gap distinct (c.currentReplicaNodesForSubject key)
  unfold missingFor
  rw [List.length_take]
  exact Nat.min_eq_left enough

variable {calls : List (String × NodeId)} {now : Nat}

theorem size_after_repair
    (recorded : ∀ call, call ∈ calls ↔ call ∈ missingReplicas (replicationPlan digest c keys now))
    (member : key ∈ keys) :
    ((noteReplicas c calls).currentReplicaNodesForSubject key).size =
      max (c.currentReplicaNodesForSubject key).size (placementForKey digest c key).selectedNodes.length := by
  have distinct := selectNodesByRendezvous_nodup keyed digest (replicationPlacementKey key) c.policy
  have joined : ((noteReplicas c calls).currentReplicaNodesForSubject key).items.Perm
      ((c.currentReplicaNodesForSubject key).items ++ missingFor digest c key) := by
    rw [List.perm_ext_iff_of_nodup]
    · intro n
      rw [noteReplicas_current, recorded, mem_missingReplicas digest c member, List.mem_append]
    · exact IterSet.nodup _
    · rw [List.nodup_append]
      refine ⟨IterSet.nodup _, (distinct.filter _).sublist (List.take_sublist _ _), ?_⟩
      intro n holds m missing same
      have absent := (List.mem_filter.mp (List.mem_of_mem_take missing)).2
      rw [← same] at absent
      simp [IterSet.contains, holds] at absent
  have counted := joined.length_eq
  rw [List.length_append, missingFor_length digest keyed] at counted
  unfold IterSet.size at counted ⊢
  omega

theorem missingFor_after_repair
    (recorded : ∀ call, call ∈ calls ↔ call ∈ missingReplicas (replicationPlan digest c keys now))
    (member : key ∈ keys) :
    missingFor digest (noteReplicas c calls) key = [] := by
  have filled := size_after_repair digest keyed recorded member
  have gap : (placementForKey digest c key).selectedNodes.length -
      ((noteReplicas c calls).currentReplicaNodesForSubject key).size = 0 := by omega
  unfold missingFor
  rw [placementForKey_noteReplicas, gap, List.take_zero]

theorem no_extras_after_repair
    (recorded : ∀ call, call ∈ calls ↔ call ∈ missingReplicas (replicationPlan digest c keys now))
    (member : key ∈ keys)
    (fits : (c.currentReplicaNodesForSubject key).size ≤ (placementForKey digest c key).selectedNodes.length) :
    extraPressure (replicationPlanSnapshot (noteReplicas c calls) keys) digest key = 0 := by
  have filled := size_after_repair digest keyed recorded member
  have wanted : ((replicationPlanSnapshot (noteReplicas c calls) keys).desiredNodes digest
      key).length = (placementForKey digest c key).selectedNodes.length := by
    rw [← placementForKey_noteReplicas digest c calls]
    rfl
  unfold extraPressure
  rw [wanted, currentSet_snapshot _ member, if_neg (by omega)]

end Repair

/-- A repair round over all subjects: the next plan misses nothing, removes nothing the
    round added, and every item asked for just as many copies as were lacking. -/
theorem repair_converges_without_overshoot (digest : Digest) (local_node : NodeId)
    (policy : ReplicationPolicy) (heartbeat_timeout_secs : Nat) (history : List ClusterCall)
    (keys : List String) (now later : Nat) (c : ClusterService)
    (built : c = serviceAfter local_node policy heartbeat_timeout_secs history)
    (calls : List (String × NodeId))
    (recorded : ∀ call, call ∈ calls ↔ call ∈ missingReplicas (replicationPlan digest c keys now)) :
    (replicationPlan digest (noteReplicas c calls) keys later).underReplicated = 0 ∧
      (∀ key ∈ keys,
        (c.currentReplicaNodesForSubject key).size ≤ (placementForKey digest c key).selectedNodes.length →
        ∀ item ∈ (replicationPlan digest (noteReplicas c calls) keys later).items,
          item.key = key → item.extraNodes = [] ∧ item.deferredExtraNodes = 0) ∧
      ∀ item ∈ (replicationPlan digest c keys now).items,
        item.missingNodes.length = item.desiredNodes.length - item.currentNodes.length := by
  have keyed : NodesKeyed c.nodes := by
    rw [built]
    exact serviceAfter_keyed local_node policy heartbeat_timeout_secs history
  constructor
  · rw [replicationPlan, plan, List.countP_eq_zero]
    intro item listed
    obtain ⟨earlier, key, rest, split, _, rfl⟩ := (mem_planItems _ _ item).mp listed
    have member : key ∈ keys := by
      rw [show keys = earlier ++ key :: rest from split]
      simp
    rw [planItem_missingNodes digest _ member, missingFor_after_repair digest keyed recorded member]
    simp
  constructor
  · intro key member fits item listed own
    obtain ⟨earlier, other, rest, _, _, rfl⟩ := (mem_planItems _ _ item).mp listed
    have same : other = key := own
    subst same
    have none_left := no_extras_after_repair digest keyed recorded member fits
    constructor
    · rw [← List.length_eq_zero_iff, extraNodes_length, none_left]
      omega
    · rw [deferredExtraNodes_eq, none_left]
      omega
  · intro item listed
    obtain ⟨earlier, key, rest, split, _, rfl⟩ := (mem_planItems _ _ item).mp listed
    have member : key ∈ keys := by
      rw [show keys = earlier ++ key :: rest from split]
      simp
    have held : ((replicationPlanSnapshot c keys).planItem digest (toleranceLeft
        (replicationPlanSnapshot c keys) digest c.policy.acceptedOverReplicationItems earlier)
          key).currentNodes.length = (c.currentReplicaNodesForSubject key).size := by
      simp only [planItem]
      rw [List.length_insertionSort, currentSet_snapshot c member]
      rfl
    have asked := planItem_missingNodes digest c member
      (toleranceLeft (replicationPlanSnapshot c keys) digest
        c.policy.acceptedOverReplicationItems earlier)
    change (ReplicationPlanItem.missingNodes (planItem _ digest _ key)).length =
      (placementForKey digest c key).selectedNodes.length - (ReplicationPlanItem.currentNodes _).length
    rw [show (replicationPlanSnapshot c keys).policy = c.policy from rfl, asked, held]
    exact missingFor_length digest keyed key

/-- Three fresh nodes and a service that never saw a replica: the first plan asks for
    three copies of one subject, and after they are recorded for none. -/
def freshCalls : List ClusterCall :=
  [.registerNode 0 (onlineNode 1), .registerNode 0 (onlineNode 2), .registerNode 0 (onlineNode 3)]

def freshService : ClusterService := serviceAfter 1 ReplicationPolicy.default 30 freshCalls

theorem fresh_service_repaired :
    missingReplicas (replicationPlan (fun _ => []) freshService ["a"] 0) =
        [("a", 3), ("a", 2), ("a", 1)] ∧
      (replicationPlan (fun _ => []) (noteReplicas freshService
        (missingReplicas (replicationPlan (fun _ => []) freshService ["a"] 0))) ["a"]
          1).underReplicated = 0 :=
  ⟨by decide +kernel, (repair_converges_without_overshoot (fun _ => []) 1
    ReplicationPolicy.default 30 freshCalls ["a"] 0 1 freshService rfl _ fun _ => Iff.rfl).1⟩

end BerryKeepReplicationConvergence
