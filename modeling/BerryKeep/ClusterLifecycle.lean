import BerryKeep.ReplicationSubjects

/-!
Every call that changes a cluster service, as one step relation. The node map
is written in three ways only: a descriptor is stored under its own id, an
existing descriptor is refreshed without touching its id, or an id is removed.
So in every service built by these calls the map lists each node once.
-/
namespace BerryKeepClusterLifecycle
open FiniteTable BerryKeepClusterPlacement BerryKeepReplicationSubjects

section Operations

def registerNode (c : ClusterService) (now : Nat) (descriptor : NodeDescriptor) : ClusterService :=
  let current := { descriptor with lastHeartbeatUnix := now, status := .online }
  { c with nodes := c.nodes.put descriptor.nodeId current }

def importNode (local_node : NodeId) (nodes : Table NodeId NodeDescriptor)
    (descriptor : NodeDescriptor) : Table NodeId NodeDescriptor :=
  nodes.put descriptor.nodeId
    (if descriptor.nodeId ≠ local_node then { descriptor with status := .offline }
      else descriptor)

def importNodes (c : ClusterService) (descriptors : List NodeDescriptor) : ClusterService :=
  { c with nodes := descriptors.foldl (importNode c.localNode) c.nodes }

def forgetNode (m : SubjectMembership) (node_id : NodeId) : SubjectMembership :=
  match m.byNode.get node_id with
  | none => m
  | some subjects =>
    { byKey := subjects.items.foldl
        (fun by_key subject => match by_key.get subject with
          | none => by_key
          | some nodes =>
            let left := nodes.erase node_id
            if left.items.isEmpty then by_key.del subject else by_key.put subject left)
        m.byKey
      byNode := m.byNode.del node_id }

def removeNode (c : ClusterService) (node_id : NodeId) : Bool × ClusterService :=
  match c.nodes.get node_id with
  | none => (false, c)
  | some _ =>
    (true, { c with
      nodes := c.nodes.del node_id
      replicas := forgetNode c.replicas node_id
      available := forgetNode c.available node_id })

def updateNode (c : ClusterService) (node_id : NodeId)
    (change : NodeDescriptor → NodeDescriptor) : Bool × ClusterService :=
  match c.nodes.get node_id with
  | none => (false, c)
  | some node => (true, { c with nodes := c.nodes.put node_id (change node) })

def touchHeartbeat (c : ClusterService) (node_id : NodeId) (now : Nat) (free_bytes : Option Nat)
    (labels : Option (Table String String)) : Bool × ClusterService :=
  updateNode c node_id fun node =>
    { node with
      lastHeartbeatUnix := now
      status := .online
      freeBytes := free_bytes.getD node.freeBytes
      labels := labels.getD node.labels }

def updateNodeStorage (c : ClusterService) (node_id : NodeId) (free_bytes : Nat) :
    Bool × ClusterService :=
  updateNode c node_id fun node => { node with freeBytes := free_bytes }

def importMembership (rows : List (String × List NodeId)) : SubjectMembership :=
  rows.foldl
    (fun m row => row.2.foldl (fun m node_id => (insertSubjectMembership m row.1 node_id).2) m)
    SubjectMembership.empty

def importReplicaViews (c : ClusterService) (replicas available : List (String × List NodeId)) :
    ClusterService :=
  { c with replicas := importMembership replicas, available := importMembership available }

end Operations

inductive ClusterCall where
  | registerNode (now : Nat) (descriptor : NodeDescriptor)
  | importNodes (descriptors : List NodeDescriptor)
  | removeNode (node_id : NodeId)
  | touchHeartbeat (node_id : NodeId) (now : Nat) (free_bytes : Option Nat)
      (labels : Option (Table String String))
  | updateNodeStorage (node_id : NodeId) (free_bytes : Nat)
  | updateHealth (now : Nat)
  | noteReplica (key : String) (node_id : NodeId)
  | replaceNodeAvailableView (node_id : NodeId) (subjects : List String)
  | reconcileNodeSubjects (node_id : NodeId) (subjects : List String)
  | importReplicaViews (replicas available : List (String × List NodeId))
  | removeReplica (key : String) (node_id : NodeId)
  | removeAvailable (key : String) (node_id : NodeId)

def ClusterCall.apply (c : ClusterService) : ClusterCall → ClusterService
  | .registerNode now descriptor => BerryKeepClusterLifecycle.registerNode c now descriptor
  | .importNodes descriptors => BerryKeepClusterLifecycle.importNodes c descriptors
  | .removeNode node_id => (BerryKeepClusterLifecycle.removeNode c node_id).2
  | .touchHeartbeat node_id now free_bytes labels =>
    (BerryKeepClusterLifecycle.touchHeartbeat c node_id now free_bytes labels).2
  | .updateNodeStorage node_id free_bytes =>
    (BerryKeepClusterLifecycle.updateNodeStorage c node_id free_bytes).2
  | .updateHealth now => (c.updateHealthAndDetectOfflineTransition now).2
  | .noteReplica key node_id => (c.noteReplica key node_id).2
  | .replaceNodeAvailableView node_id subjects =>
    (BerryKeepReplicationSubjects.replaceNodeAvailableView c node_id subjects).2
  | .reconcileNodeSubjects node_id subjects =>
    (BerryKeepReplicationSubjects.reconcileNodeSubjects c node_id subjects).2
  | .importReplicaViews replicas available =>
    BerryKeepClusterLifecycle.importReplicaViews c replicas available
  | .removeReplica key node_id => c.removeReplica key node_id
  | .removeAvailable key node_id => c.removeAvailable key node_id

/-- A service after `new` and any calls. Its fields are private: there are no others. -/
def serviceAfter (local_node : NodeId) (policy : ReplicationPolicy) (heartbeat_timeout_secs : Nat)
    (calls : List ClusterCall) : ClusterService :=
  calls.foldl ClusterCall.apply (ClusterService.new local_node policy heartbeat_timeout_secs)

section Keyed

def NodesKeyed (nodes : Table NodeId NodeDescriptor) : Prop :=
  ∀ node_id node, nodes.get node_id = some node → node.nodeId = node_id

variable {nodes : Table NodeId NodeDescriptor}

theorem keyed_put (keyed : NodesKeyed nodes)
    {node_id : NodeId} {node : NodeDescriptor} (own : node.nodeId = node_id) :
    NodesKeyed (nodes.put node_id node) := by
  intro other found stored
  rcases get_put_some stored with ⟨same, rfl⟩ | ⟨-, stored⟩
  · exact own.trans same.symm
  · exact keyed other found stored

theorem keyed_del (keyed : NodesKeyed nodes)
    (node_id : NodeId) : NodesKeyed (nodes.del node_id) := by
  intro other found stored
  exact keyed other found (get_del_some stored).2

theorem refreshStatus_nodeId (local_node : NodeId) (timeout now : Nat) (node : NodeDescriptor) :
    (refreshStatus local_node timeout now node).nodeId = node.nodeId := by
  unfold refreshStatus
  split
  · rfl
  · split <;> rfl

theorem keyed_mapValues (keyed : NodesKeyed nodes)
    {change : NodeDescriptor → NodeDescriptor} (same : ∀ node, (change node).nodeId = node.nodeId) :
    NodesKeyed (nodes.mapValues change) := by
  intro node_id found stored
  rw [get_mapValues] at stored
  obtain ⟨node, before, rfl⟩ := Option.map_eq_some_iff.mp stored
  rw [same]
  exact keyed node_id node before

theorem keyed_importNodes (local_node : NodeId) (descriptors : List NodeDescriptor) :
    ∀ {nodes : Table NodeId NodeDescriptor}, NodesKeyed nodes →
      NodesKeyed (descriptors.foldl (importNode local_node) nodes) := by
  intro nodes keyed
  refine List.foldlRecOn descriptors _ keyed fun _ keyed descriptor _ => ?_
  apply keyed_put keyed
  split <;> rfl

theorem keyed_updateNode {c : ClusterService} (keyed : NodesKeyed c.nodes) (node_id : NodeId)
    {change : NodeDescriptor → NodeDescriptor} (same : ∀ node, (change node).nodeId = node.nodeId) :
    NodesKeyed (updateNode c node_id change).2.nodes := by
  unfold updateNode
  split
  · exact keyed
  · next node stored =>
    apply keyed_put keyed
    rw [same]
    exact keyed node_id node stored

theorem keyed_apply {c : ClusterService} (keyed : NodesKeyed c.nodes) (call : ClusterCall) :
    NodesKeyed (call.apply c).nodes := by
  cases call with
  | registerNode now descriptor => exact keyed_put keyed rfl
  | importNodes descriptors => exact keyed_importNodes c.localNode descriptors keyed
  | removeNode node_id =>
    simp only [ClusterCall.apply, removeNode]
    split
    · exact keyed
    · exact keyed_del keyed node_id
  | touchHeartbeat node_id now free_bytes labels =>
    exact keyed_updateNode keyed node_id fun _ => rfl
  | updateNodeStorage node_id free_bytes => exact keyed_updateNode keyed node_id fun _ => rfl
  | updateHealth now =>
    exact keyed_mapValues keyed (refreshStatus_nodeId c.localNode c.heartbeatTimeoutSecs now)
  | replaceNodeAvailableView node_id subjects =>
    simp only [ClusterCall.apply, replaceNodeAvailableView]
    split <;> exact keyed
  | reconcileNodeSubjects node_id subjects =>
    simp only [ClusterCall.apply, reconcileNodeSubjects, replaceNodeAvailableView]
    split <;> exact keyed
  | noteReplica key node_id => exact keyed
  | importReplicaViews replicas available => exact keyed
  | removeReplica key node_id => exact keyed
  | removeAvailable key node_id => exact keyed

theorem serviceAfter_keyed (local_node : NodeId) (policy : ReplicationPolicy)
    (heartbeat_timeout_secs : Nat) (calls : List ClusterCall) :
    NodesKeyed (serviceAfter local_node policy heartbeat_timeout_secs calls).nodes := by
  refine List.foldlRecOn (motive := fun c : ClusterService => NodesKeyed c.nodes) calls _ ?_
    fun c keyed call _ => keyed_apply keyed call
  intro node_id node stored
  cases stored

end Keyed

section Placement

variable {nodes : Table NodeId NodeDescriptor}

theorem map_nodeId_values (keyed : NodesKeyed nodes) :
    nodes.values.map (·.nodeId) = nodes.keys := by
  rw [← entries_keys]
  unfold Table.values Table.entries
  rw [List.map_map, List.map_map]
  apply List.map_congr_left
  intro row member
  have listed : (row.1, row.2) ∈ nodes.entries := List.mem_map.mpr ⟨row, member, rfl⟩
  exact keyed row.1 row.2 ((mem_entries nodes row.1 row.2).mp listed)

theorem ranked_nodup (keyed : NodesKeyed nodes)
    (digest : Digest) (key : String) (eligible : NodeDescriptor → Bool) :
    ((rankNodes digest key nodes eligible).map Prod.fst).Nodup := by
  have ids : (nodes.values.map (·.nodeId)).Nodup := by
    rw [map_nodeId_values keyed]
    exact keys_nodup nodes
  unfold rankNodes
  rw [((List.perm_insertionSort _ _).map Prod.fst).nodup_iff, List.map_map]
  exact ids.sublist (List.filter_sublist.map _)

theorem selectForLabels_nodup (nodes : Table NodeId NodeDescriptor) (policy : ReplicationPolicy)
    (ranked : List (NodeId × Nat)) :
    ∀ acc : Selection, (acc.selected ++ ranked.map Prod.fst).Nodup →
      (selectForLabels nodes policy ranked acc).selected.Nodup := by
  induction ranked with
  | nil =>
    intro acc fresh
    simpa [selectForLabels] using fresh
  | cons entry ranked ih =>
    intro acc fresh
    obtain ⟨node_id, score⟩ := entry
    have skipped : (acc.selected ++ ranked.map Prod.fst).Nodup :=
      fresh.sublist ((List.Sublist.refl _).append (List.sublist_cons_self _ _))
    have pushed : ((acc.selected ++ [node_id]) ++ ranked.map Prod.fst).Nodup := by
      simpa using fresh
    simp only [selectForLabels]
    split
    · exact (List.nodup_append.mp fresh).1
    · split
      · exact ih acc skipped
      · split
        · exact ih _ pushed
        · exact ih acc skipped

theorem fillUp_nodup (factor : Nat) (ranked : List (NodeId × Nat)) :
    ∀ selected : List NodeId, selected.Nodup → (fillUp factor ranked selected).Nodup := by
  induction ranked with
  | nil => intro selected fresh; exact fresh
  | cons entry ranked ih =>
    intro selected fresh
    obtain ⟨node_id, score⟩ := entry
    simp only [fillUp]
    split
    · exact fresh
    · split
      · exact ih selected fresh
      · next unseen =>
        apply ih
        rw [List.nodup_append]
        exact ⟨fresh, List.nodup_singleton _, fun a inside b last => by
          rw [List.mem_singleton.mp last]
          exact fun same => unseen (same ▸ inside)⟩

theorem selectNodesByRendezvous_nodup
    (keyed : NodesKeyed nodes) (digest : Digest) (key : String) (policy : ReplicationPolicy) :
    (selectNodesByRendezvous digest key nodes policy).Nodup := by
  have first : (selectForLabels nodes policy
      (rankNodes digest key nodes fun node => node.status == .online)
      ⟨[], Table.empty⟩).selected.Nodup :=
    selectForLabels_nodup nodes policy _ _ (by simpa using ranked_nodup keyed digest key _)
  unfold selectNodesByRendezvous selectNodesByRendezvousMatching
  simp only
  split
  · exact fillUp_nodup _ _ _ first
  · exact first

end Placement

end BerryKeepClusterLifecycle
