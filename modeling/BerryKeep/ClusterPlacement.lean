import BerryKeep.FiniteTable
import BerryKeep.TextOperations

/-!
Where the cluster wants its replicas. The membership tables record which node
claims which subject, rendezvous scoring ranks the nodes for a placement key,
and the two passes over the ranking pick the nodes: the first pass serves the
label constraints, the second one fills up to the replication factor.
The digest is a parameter; nothing here depends on how it is computed.
-/
namespace BerryKeepClusterPlacement
open FiniteTable TextOperations

abbrev NodeId := Fin (2 ^ 128)

instance nodeId_neZero : NeZero (2 ^ 128) := ⟨by decide⟩

instance nodeId_lawfulBEq : LawfulBEq NodeId := inferInstance

def nodeIdText (node_id : NodeId) : String :=
  let digits := (List.range 32).map fun i => hexDigit (node_id.val / 16 ^ (31 - i) % 16)
  String.ofList (digits.take 8 ++ ['-'] ++ (digits.drop 8).take 4 ++ ['-'] ++
    (digits.drop 12).take 4 ++ ['-'] ++ (digits.drop 16).take 4 ++ ['-'] ++ digits.drop 20)

inductive NodeStatus where
  | online
  | offline
  deriving DecidableEq, Repr

structure NodeDescriptor where
  nodeId : NodeId
  labels : Table String String
  freeBytes : Nat
  lastHeartbeatUnix : Nat
  status : NodeStatus

structure ReplicationPolicy where
  replicationFactor : Nat
  minDistinctLabels : Table String Nat
  acceptedOverReplicationItems : Nat

def ReplicationPolicy.default : ReplicationPolicy where
  replicationFactor := 3
  minDistinctLabels := (Table.empty.put "dc" 1).put "rack" 1
  acceptedOverReplicationItems := 0

abbrev Digest := String → List UInt8

def rendezvousScore (digest : Digest) (key : String) (node_id : NodeId) : Nat :=
  ((digest (key ++ ":" ++ nodeIdText node_id)).take 8).foldl (fun n b => n * 256 + b.toNat) 0

def replicationPlacementKey (key : String) : String :=
  match splitOnce key "@ver-" with
  | some (base, _) => base
  | none => key

def isVersionedReplicationSubject (key : String) : Bool := (splitOnce key "@ver-").isSome

structure Selection where
  selected : List NodeId
  seenLabelValues : Table String (IterSet String)

def labelValue (node : NodeDescriptor) (label_key : String) : String :=
  (node.labels.get label_key).getD "_unknown"

def helpsConstraint (policy : ReplicationPolicy) (node : NodeDescriptor)
    (seen : Table String (IterSet String)) : Bool :=
  policy.minDistinctLabels.entries.any fun (label_key, min_needed) =>
    let values := (seen.get label_key).getD IterSet.empty
    if min_needed ≤ values.size then false
    else !values.contains (labelValue node label_key)

def Selection.push (policy : ReplicationPolicy) (acc : Selection) (node_id : NodeId)
    (node : NodeDescriptor) : Selection where
  selected := acc.selected ++ [node_id]
  seenLabelValues := policy.minDistinctLabels.keys.foldl
    (fun seen label_key => seen.put label_key
      (((seen.get label_key).getD IterSet.empty).insert (labelValue node label_key)))
    acc.seenLabelValues

/-- The first pass. It does not ask whether a node was selected before: a node
    map lists each node once. -/
def selectForLabels (nodes : Table NodeId NodeDescriptor) (policy : ReplicationPolicy) :
    List (NodeId × Nat) → Selection → Selection
  | [], acc => acc
  | (node_id, _) :: ranked, acc =>
    if policy.replicationFactor ≤ acc.selected.length then acc
    else match nodes.get node_id with
      | none => selectForLabels nodes policy ranked acc
      | some node =>
        if helpsConstraint policy node acc.seenLabelValues ||
            decide (acc.selected.length < policy.minDistinctLabels.size) then
          selectForLabels nodes policy ranked (acc.push policy node_id node)
        else selectForLabels nodes policy ranked acc

def fillUp (factor : Nat) : List (NodeId × Nat) → List NodeId → List NodeId
  | [], selected => selected
  | (node_id, _) :: ranked, selected =>
    if factor ≤ selected.length then selected
    else if node_id ∈ selected then fillUp factor ranked selected
    else fillUp factor ranked (selected ++ [node_id])

def rankNodes (digest : Digest) (key : String) (nodes : Table NodeId NodeDescriptor)
    (eligible : NodeDescriptor → Bool) : List (NodeId × Nat) :=
  (((nodes.values.filter eligible).map fun node =>
    (node.nodeId, rendezvousScore digest key node.nodeId))).insertionSort
      (fun a b => b.2 ≤ a.2)

def selectNodesByRendezvousMatching (digest : Digest) (key : String)
    (nodes : Table NodeId NodeDescriptor) (policy : ReplicationPolicy)
    (eligible : NodeDescriptor → Bool) : List NodeId :=
  let ranked := rankNodes digest key nodes eligible
  let selected := (selectForLabels nodes policy ranked ⟨[], Table.empty⟩).selected
  if selected.length < policy.replicationFactor then
    fillUp policy.replicationFactor ranked selected
  else selected

def selectNodesByRendezvous (digest : Digest) (key : String)
    (nodes : Table NodeId NodeDescriptor) (policy : ReplicationPolicy) : List NodeId :=
  selectNodesByRendezvousMatching digest key nodes policy fun node => node.status == .online

structure SubjectMembership where
  byKey : Table String (IterSet NodeId)
  byNode : Table NodeId (IterSet String)

def SubjectMembership.empty : SubjectMembership := ⟨Table.empty, Table.empty⟩

def SubjectMembership.holders (m : SubjectMembership) (subject : String) : IterSet NodeId :=
  (m.byKey.get subject).getD IterSet.empty

def insertSubjectMembership (m : SubjectMembership) (subject : String) (node_id : NodeId) :
    Bool × SubjectMembership :=
  let nodes := m.holders subject
  let subjects := (m.byNode.get node_id).getD IterSet.empty
  (!subjects.contains subject || !nodes.contains node_id,
    ⟨m.byKey.put subject (nodes.insert node_id), m.byNode.put node_id (subjects.insert subject)⟩)

def removeSubjectMembership (m : SubjectMembership) (subject : String) (node_id : NodeId) :
    Bool × SubjectMembership :=
  let (changed, by_key) := match m.byKey.get subject with
    | some nodes =>
      let left := nodes.erase node_id
      (nodes.contains node_id,
        if left.items.isEmpty then m.byKey.del subject else m.byKey.put subject left)
    | none => (false, m.byKey)
  let by_node := match m.byNode.get node_id with
    | some subjects =>
      let left := subjects.erase subject
      if left.items.isEmpty then m.byNode.del node_id else m.byNode.put node_id left
    | none => m.byNode
  (changed, ⟨by_key, by_node⟩)

theorem holders_remove (m : SubjectMembership) (subject other : String) (node_id : NodeId) :
    ((removeSubjectMembership m subject node_id).2.holders other).items =
      if other = subject then (m.holders subject).items.erase node_id
      else (m.holders other).items := by
  unfold removeSubjectMembership SubjectMembership.holders
  cases stored : m.byKey.get subject with
  | none =>
    simp only
    split
    · next same => subst same; simp [stored, IterSet.empty]
    · rfl
  | some nodes =>
    simp only
    by_cases drained : (nodes.erase node_id).items.isEmpty = true
    · rw [if_pos drained, get_del]
      split
      · simpa [IterSet.empty, IterSet.erase] using (List.isEmpty_iff.mp drained).symm
      · rfl
    · rw [if_neg drained, get_put]
      split
      · simp [IterSet.erase]
      · rfl

structure ClusterService where
  localNode : NodeId
  heartbeatTimeoutSecs : Nat
  policy : ReplicationPolicy
  nodes : Table NodeId NodeDescriptor
  replicas : SubjectMembership
  available : SubjectMembership

def ClusterService.new (local_node : NodeId) (policy : ReplicationPolicy)
    (heartbeat_timeout_secs : Nat) : ClusterService where
  localNode := local_node
  heartbeatTimeoutSecs := heartbeat_timeout_secs
  policy := policy
  nodes := Table.empty
  replicas := SubjectMembership.empty
  available := SubjectMembership.empty

def ClusterService.listNodes (c : ClusterService) : List NodeDescriptor :=
  c.nodes.values.insertionSort fun a b => a.nodeId ≤ b.nodeId

def refreshStatus (local_node : NodeId) (timeout now : Nat) (node : NodeDescriptor) :
    NodeDescriptor :=
  if node.nodeId = local_node then { node with status := .online }
  else if timeout < now - node.lastHeartbeatUnix ∧ node.status ≠ .offline then
    { node with status := .offline }
  else node

def ClusterService.updateHealthAndDetectOfflineTransition (c : ClusterService) (now : Nat) :
    Bool × ClusterService :=
  (c.nodes.values.any fun node => node.nodeId != c.localNode && node.status == .online &&
      (refreshStatus c.localNode c.heartbeatTimeoutSecs now node).status == .offline,
    { c with nodes := c.nodes.mapValues (refreshStatus c.localNode c.heartbeatTimeoutSecs now) })

def ClusterService.noteReplica (c : ClusterService) (key : String) (node_id : NodeId) :
    Bool × ClusterService :=
  let (replica_inserted, replicas) := insertSubjectMembership c.replicas key node_id
  let (available_inserted, available) := insertSubjectMembership c.available key node_id
  (replica_inserted || available_inserted, { c with replicas, available })

def ClusterService.removeReplica (c : ClusterService) (key : String) (node_id : NodeId) :
    ClusterService :=
  { c with replicas := (removeSubjectMembership c.replicas key node_id).2 }

def ClusterService.removeAvailable (c : ClusterService) (key : String) (node_id : NodeId) :
    ClusterService :=
  { c with available := (removeSubjectMembership c.available key node_id).2 }

def ClusterService.currentReplicaNodesForSubject (c : ClusterService) (key : String) :
    IterSet NodeId := c.available.holders key

@[simp] theorem removeReplica_current (c : ClusterService) (key other : String) (node_id : NodeId) :
    (c.removeReplica key node_id).currentReplicaNodesForSubject other =
      c.currentReplicaNodesForSubject other := rfl

theorem removeAvailable_current (c : ClusterService) (key other : String) (node_id : NodeId) :
    ((c.removeAvailable key node_id).currentReplicaNodesForSubject other).items =
      if other = key then (c.currentReplicaNodesForSubject key).items.erase node_id
      else (c.currentReplicaNodesForSubject other).items :=
  holders_remove c.available key other node_id

end BerryKeepClusterPlacement
