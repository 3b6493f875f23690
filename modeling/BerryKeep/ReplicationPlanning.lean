import BerryKeep.ClusterPlacement

/-!
The replication plan. One pass over the subjects compares the holders of each
with the nodes placement wants, and spends the tolerated over-replication on
the subjects in order. The lemmas cut the pass into one item per subject and
say how many holders the extra nodes of an item leave.
-/
namespace BerryKeepReplicationPlanning
open FiniteTable BerryKeepClusterPlacement

inductive ReplicationCleanupOption where
  | none
  | deferredWithinTolerance
  | recommended
  deriving DecidableEq, Repr

structure ReplicationPlanItem where
  key : String
  desiredNodes : List NodeId
  currentNodes : List NodeId
  missingNodes : List NodeId
  extraNodes : List NodeId
  cleanupOption : ReplicationCleanupOption
  deferredExtraNodes : Nat
  deriving DecidableEq

structure ReplicationPlan where
  generatedAtUnix : Nat
  underReplicated : Nat
  overReplicated : Nat
  cleanupDeferredItems : Nat
  cleanupDeferredExtraNodes : Nat
  items : List ReplicationPlanItem

structure ReplicationPlanSnapshot where
  keys : List String
  policy : ReplicationPolicy
  nodes : Table NodeId NodeDescriptor
  currentReplicasByKey : Table String (IterSet NodeId)

namespace ReplicationPlanSnapshot
variable (s : ReplicationPlanSnapshot) (digest : Digest)

def currentSet (key : String) : IterSet NodeId :=
  (s.currentReplicasByKey.get key).getD IterSet.empty

def desiredNodes (key : String) : List NodeId :=
  selectNodesByRendezvous digest (replicationPlacementKey key) s.nodes s.policy

-- A holder the node map does not know counts as online.
def countsAsOnline (node_id : NodeId) : Bool :=
  match s.nodes.get node_id with
  | some node => node.status == .online
  | none => true

def freeBytesOf (node_id : NodeId) : Nat :=
  match s.nodes.get node_id with
  | some node => node.freeBytes
  | none => 0

def droppable (key : String) (node_id : NodeId) : Bool :=
  !(s.desiredNodes digest key).contains node_id && s.countsAsOnline node_id

def rawExtraNodes (key : String) : List NodeId :=
  if (s.desiredNodes digest key).length < (s.currentSet key).size then
    ((s.currentSet key).items.filter (s.droppable digest key)).insertionSort
      fun a b => s.freeBytesOf a ≤ s.freeBytesOf b
  else []

def planItem (tolerated : Nat) (key : String) : ReplicationPlanItem :=
  let desired := s.desiredNodes digest key
  let current := s.currentSet key
  let raw := s.rawExtraNodes digest key
  let deferred := min raw.length tolerated
  let extra := raw.take (raw.length - deferred)
  { key := key
    desiredNodes := desired
    currentNodes := current.items.insertionSort (· ≤ ·)
    missingNodes := (desired.filter fun n => !current.contains n).take
      (desired.length - current.size)
    extraNodes := extra
    cleanupOption :=
      if !extra.isEmpty then .recommended
      else if 0 < deferred then .deferredWithinTolerance
      else .none
    deferredExtraNodes := deferred }

def reported (item : ReplicationPlanItem) : Bool :=
  !item.missingNodes.isEmpty || !item.extraNodes.isEmpty || decide (0 < item.deferredExtraNodes)

def planItems : List String → Nat → List ReplicationPlanItem
  | [], _ => []
  | key :: keys, tolerated =>
    let item := s.planItem digest tolerated key
    let rest := planItems keys (tolerated - item.deferredExtraNodes)
    if reported item then item :: rest else rest

def plan (now : Nat) : ReplicationPlan :=
  let items := s.planItems digest s.keys s.policy.acceptedOverReplicationItems
  { generatedAtUnix := now
    underReplicated := items.countP fun item => !item.missingNodes.isEmpty
    overReplicated := items.countP fun item => !item.extraNodes.isEmpty
    cleanupDeferredItems := items.countP fun item => decide (0 < item.deferredExtraNodes)
    cleanupDeferredExtraNodes := (items.map fun item => item.deferredExtraNodes).sum
    items := items }

end ReplicationPlanSnapshot

open ReplicationPlanSnapshot
variable {s : ReplicationPlanSnapshot} {digest : Digest} {key : String} {tolerated : Nat}

def droppableHolders (s : ReplicationPlanSnapshot) (digest : Digest) (key : String) : Nat :=
  (s.currentSet key).items.countP (s.droppable digest key)

def extraPressure (s : ReplicationPlanSnapshot) (digest : Digest) (key : String) : Nat :=
  if (s.desiredNodes digest key).length < (s.currentSet key).size then
    droppableHolders s digest key
  else 0

def toleranceLeft (s : ReplicationPlanSnapshot) (digest : Digest) (tolerated : Nat)
    (earlier : List String) : Nat :=
  tolerated - (earlier.map (extraPressure s digest)).sum

theorem toleranceLeft_cons (s : ReplicationPlanSnapshot) (digest : Digest) (tolerated : Nat)
    (key : String) (earlier : List String) :
    toleranceLeft s digest (tolerated - extraPressure s digest key) earlier =
      toleranceLeft s digest tolerated (key :: earlier) := by
  simp only [toleranceLeft, List.map_cons, List.sum_cons]
  omega

theorem rawExtraNodes_length (s : ReplicationPlanSnapshot) (digest : Digest) (key : String) :
    (s.rawExtraNodes digest key).length = extraPressure s digest key := by
  unfold rawExtraNodes extraPressure
  split
  · rw [List.length_insertionSort]
    exact List.countP_eq_length_filter.symm
  · rfl

theorem deferred_spends_tolerance (s : ReplicationPlanSnapshot) (digest : Digest)
    (tolerated : Nat) (key : String) :
    tolerated - (s.planItem digest tolerated key).deferredExtraNodes =
      tolerated - extraPressure s digest key := by
  rw [← rawExtraNodes_length]
  simp only [planItem]
  omega

theorem mem_planItems (keys : List String) (tolerated : Nat) (item : ReplicationPlanItem) :
    item ∈ s.planItems digest keys tolerated ↔
      ∃ earlier key later, keys = earlier ++ key :: later ∧ reported item = true ∧
        item = s.planItem digest (toleranceLeft s digest tolerated earlier) key := by
  induction keys generalizing tolerated with
  | nil => simp [planItems]
  | cons first keys ih =>
    have unfolded : item ∈ s.planItems digest (first :: keys) tolerated ↔
        (reported item = true ∧ item = s.planItem digest tolerated first) ∨
          item ∈ s.planItems digest keys (tolerated - extraPressure s digest first) := by
      rw [← deferred_spends_tolerance]
      simp only [planItems]
      split
      · next shown =>
        rw [List.mem_cons]
        exact or_congr ⟨fun same => ⟨by rw [same]; exact shown, same⟩, fun both => both.2⟩ Iff.rfl
      · next hidden =>
        refine ⟨Or.inr, fun either => either.resolve_left ?_⟩
        intro both
        rw [both.2] at both
        exact hidden both.1
    rw [unfolded, ih]
    constructor
    · intro either
      rcases either with ⟨shown, same⟩ | ⟨earlier, key, later, split, shown, same⟩
      · exact ⟨[], first, keys, rfl, shown, same⟩
      · refine ⟨first :: earlier, key, later, by rw [split]; rfl, shown, ?_⟩
        rw [same, toleranceLeft_cons]
    · intro found
      obtain ⟨earlier, key, later, split, shown, same⟩ := found
      cases earlier with
      | nil =>
        obtain ⟨rfl, rfl⟩ := List.cons.inj split
        exact .inl ⟨shown, same⟩
      | cons other earlier =>
        obtain ⟨rfl, rest⟩ := List.cons.inj split
        refine .inr ⟨earlier, key, later, rest, shown, ?_⟩
        rw [same, toleranceLeft_cons]

theorem mem_rawExtraNodes {n : NodeId} (member : n ∈ s.rawExtraNodes digest key) :
    n ∈ (s.currentSet key).items := by
  unfold rawExtraNodes at member
  split at member
  · exact (List.mem_filter.mp ((List.mem_insertionSort _).mp member)).1
  · cases member

theorem rawExtraNodes_nodup (s : ReplicationPlanSnapshot) (digest : Digest) (key : String) :
    (s.rawExtraNodes digest key).Nodup := by
  unfold rawExtraNodes
  split
  · exact (List.perm_insertionSort _ _).nodup_iff.mpr ((s.currentSet key).nodup.filter _)
  · exact List.nodup_nil

theorem extraNodes_nodup (s : ReplicationPlanSnapshot) (digest : Digest) (tolerated : Nat)
    (key : String) : (s.planItem digest tolerated key).extraNodes.Nodup :=
  (rawExtraNodes_nodup s digest key).sublist (List.take_sublist _ _)

theorem mem_extraNodes {n : NodeId} (member : n ∈ (s.planItem digest tolerated key).extraNodes) :
    n ∈ (s.currentSet key).items :=
  mem_rawExtraNodes (List.mem_of_mem_take member)

theorem extraNodes_length (s : ReplicationPlanSnapshot) (digest : Digest) (tolerated : Nat)
    (key : String) : (s.planItem digest tolerated key).extraNodes.length =
      extraPressure s digest key - tolerated := by
  rw [← rawExtraNodes_length]
  simp only [planItem, List.length_take]
  omega

end BerryKeepReplicationPlanning
