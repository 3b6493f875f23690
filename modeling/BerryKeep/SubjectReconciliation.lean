import BerryKeep.ClusterLifecycle

/-!
The two claim tables of a cluster service and their indexes by node. Every call
keeps a table and its index in step and leaves no empty row, so a claim table is
determined by the relation between nodes and subjects, and a report of a node
changes that relation in exactly the way the reconciliation is meant to.
-/
namespace BerryKeepSubjectReconciliation
open FiniteTable BerryKeepClusterPlacement BerryKeepReplicationSubjects BerryKeepClusterLifecycle

section Index

def claims (m : SubjectMembership) (node_id : NodeId) : IterSet String :=
  (m.byNode.get node_id).getD IterSet.empty

def Claims (m : SubjectMembership) (node_id : NodeId) (subject : String) : Prop :=
  node_id ∈ (m.holders subject).items

structure Linked (m : SubjectMembership) : Prop where
  index : ∀ node_id subject, subject ∈ (claims m node_id).items ↔ Claims m node_id subject
  rows : ∀ subject nodes, m.byKey.get subject = some nodes → nodes.items ≠ []
  indexRows : ∀ node_id subjects, m.byNode.get node_id = some subjects → subjects.items ≠ []

theorem linked_empty : Linked SubjectMembership.empty where
  index := by
    intro node_id subject
    simp [claims, Claims, SubjectMembership.holders, SubjectMembership.empty, IterSet.empty]
  rows := by
    intro subject nodes stored
    cases stored
  indexRows := by
    intro node_id subjects stored
    cases stored

variable {α β : Type}

theorem getD_items [DecidableEq α] {t : Table α (IterSet β)} {k : α} {b : β}
    (listed : b ∈ ((t.get k).getD IterSet.empty).items) : ∃ row, t.get k = some row ∧ b ∈ row.items := by
  cases stored : t.get k with
  | none =>
    rw [stored] at listed
    cases listed
  | some row =>
    rw [stored] at listed
    exact ⟨row, rfl, listed⟩

variable {m : SubjectMembership}

theorem claims_insert (subject other : String) (node_id n : NodeId) :
    other ∈ (claims (insertSubjectMembership m subject node_id).2 n).items ↔
      other ∈ (claims m n).items ∨ other = subject ∧ n = node_id := by
  unfold insertSubjectMembership claims
  simp only [get_put]
  split
  · next same =>
    subst same
    simp [or_comm]
  · next differ => simp [differ]

theorem linked_insert (linked : Linked m) (subject : String) (node_id : NodeId) :
    Linked (insertSubjectMembership m subject node_id).2 where
  index := by
    intro n other
    rw [claims_insert, Claims, mem_holders_insert, linked.index]
    rfl
  rows := by
    intro other nodes stored
    rcases get_put_some stored with ⟨-, rfl⟩ | ⟨-, stored⟩
    · exact List.ne_nil_of_mem ((mem_insert _ node_id node_id).mpr (.inl rfl))
    · exact linked.rows other nodes stored
  indexRows := by
    intro n subjects stored
    rcases get_put_some stored with ⟨-, rfl⟩ | ⟨-, stored⟩
    · exact List.ne_nil_of_mem ((mem_insert _ subject subject).mpr (.inl rfl))
    · exact linked.indexRows n subjects stored

theorem insert_flag (linked : Linked m) (subject : String) (node_id : NodeId) :
    (insertSubjectMembership m subject node_id).1 = true ↔ ¬Claims m node_id subject := by
  have index := linked.index node_id subject
  unfold claims at index
  simp only [insertSubjectMembership, Bool.or_eq_true, Bool.not_eq_true', ← Bool.not_eq_true,
    contains_iff, index]
  exact or_self_iff

def shrinkRow {α β : Type} [DecidableEq α] [DecidableEq β] (t : Table α (IterSet β)) (k : α)
    (b : β) : Table α (IterSet β) :=
  match t.get k with
  | some row => if (row.erase b).items.isEmpty then t.del k else t.put k (row.erase b)
  | none => t

theorem mem_shrinkRow [DecidableEq α] [DecidableEq β] (t : Table α (IterSet β))
    (k j : α) (b c : β) :
    c ∈ (((shrinkRow t k b).get j).getD IterSet.empty).items ↔
      c ∈ ((t.get j).getD IterSet.empty).items ∧ ¬(j = k ∧ c = b) := by
  unfold shrinkRow
  cases stored : t.get k with
  | none =>
    by_cases same : j = k
    · subst same
      simp [stored, IterSet.empty]
    · simp [same]
  | some row =>
    simp only
    by_cases same : j = k
    · subst same
      by_cases drained : (row.erase b).items.isEmpty = true
      · rw [if_pos drained, get_del_self, stored]
        have nothing := List.isEmpty_iff.mp drained
        have gone : c ∉ (row.erase b).items := by
          rw [nothing]
          exact List.not_mem_nil
        rw [mem_erase] at gone
        simp only [Option.getD_none, IterSet.empty, List.not_mem_nil, Option.getD_some, true_and,
          false_iff]
        tauto
      · rw [if_neg drained, get_put_self, stored]
        simp only [Option.getD_some, mem_erase, true_and]
        tauto
    · have kept : (if (row.erase b).items.isEmpty = true then t.del k
          else t.put k (row.erase b)).get j = t.get j := by
        split
        · exact get_del_other t same
        · exact get_put_other t _ same
      rw [kept]
      simp [same]

theorem shrinkRow_rows [DecidableEq α] [DecidableEq β] {t : Table α (IterSet β)}
    (rows : ∀ k row, t.get k = some row → row.items ≠ []) (k : α) (b : β) :
    ∀ j row, (shrinkRow t k b).get j = some row → row.items ≠ [] := by
  intro j row stored
  unfold shrinkRow at stored
  split at stored
  · split at stored
    · exact rows j row (get_del_some stored).2
    · next filled =>
      rcases get_put_some stored with ⟨-, rfl⟩ | ⟨-, stored⟩
      · intro empty
        exact filled (List.isEmpty_iff.mpr empty)
      · exact rows j row stored
  · exact rows j row stored

theorem remove_eq (subject : String) (node_id : NodeId) :
    (removeSubjectMembership m subject node_id).2 =
      ⟨shrinkRow m.byKey subject node_id, shrinkRow m.byNode node_id subject⟩ := by
  unfold removeSubjectMembership shrinkRow
  cases m.byKey.get subject <;> cases m.byNode.get node_id <;> rfl

theorem claims_remove (subject other : String) (node_id n : NodeId) :
    Claims (removeSubjectMembership m subject node_id).2 n other ↔
      Claims m n other ∧ ¬(other = subject ∧ n = node_id) := by
  rw [remove_eq]
  exact mem_shrinkRow m.byKey subject other node_id n

theorem linked_remove (linked : Linked m) (subject : String) (node_id : NodeId) :
    Linked (removeSubjectMembership m subject node_id).2 where
  index := by
    intro n other
    rw [claims_remove, remove_eq]
    have shrunk := mem_shrinkRow m.byNode node_id n subject other
    have before := linked.index n other
    unfold claims at before ⊢
    rw [shrunk, before]
    tauto
  rows := by
    rw [remove_eq]
    exact shrinkRow_rows linked.rows subject node_id
  indexRows := by
    rw [remove_eq]
    exact shrinkRow_rows linked.indexRows node_id subject

theorem remove_flag (subject : String) (node_id : NodeId) :
    (removeSubjectMembership m subject node_id).1 = true ↔ Claims m node_id subject := by
  unfold removeSubjectMembership Claims SubjectMembership.holders
  cases m.byKey.get subject with
  | none => simp [IterSet.empty]
  | some nodes => simp

end Index

section Loops
variable {m : SubjectMembership} {node_id : NodeId}

theorem changeSubjects_flag_cons
    (change : SubjectMembership → String → NodeId → Bool × SubjectMembership)
    (first : String) (subjects : List String) (m : SubjectMembership) :
    (changeSubjects change node_id (first :: subjects) m).1 =
      ((change m first node_id).1 ||
        (changeSubjects change node_id subjects (change m first node_id).2).1) := by
  have collects : ∀ (rest : List String) (news : Bool) (m : SubjectMembership),
      (rest.foldl (fun acc subject => ((acc.1 || (change acc.2 subject node_id).1),
        (change acc.2 subject node_id).2)) (news, m)).1 =
      (news || (rest.foldl (fun acc subject => ((acc.1 || (change acc.2 subject node_id).1),
        (change acc.2 subject node_id).2)) (false, m)).1) := by
    intro rest
    induction rest with
    | nil => intro news m; simp
    | cons next rest ih =>
      intro news m
      rw [List.foldl_cons, List.foldl_cons, ih, ih (false || _)]
      simp [Bool.or_assoc]
  unfold changeSubjects
  rw [List.foldl_cons, collects]
  simp

theorem insertAll (subjects : List String) :
    ∀ m : SubjectMembership, Linked m →
      Linked (changeSubjects insertSubjectMembership node_id subjects m).2 ∧
      (∀ n other, Claims (changeSubjects insertSubjectMembership node_id subjects m).2 n other ↔
        Claims m n other ∨ n = node_id ∧ other ∈ subjects) ∧
      ((changeSubjects insertSubjectMembership node_id subjects m).1 = true ↔
        ∃ other ∈ subjects, ¬Claims m node_id other) := by
  induction subjects with
  | nil =>
    intro m linked
    exact ⟨linked, by simp [changeSubjects], by simp [changeSubjects]⟩
  | cons first subjects ih =>
    intro m linked
    obtain ⟨kept, relation, flag⟩ := ih _ (linked_insert linked first node_id)
    have one : ∀ n other, Claims (insertSubjectMembership m first node_id).2 n other ↔
        Claims m n other ∨ other = first ∧ n = node_id :=
      fun n other => mem_holders_insert m first other node_id n
    refine ⟨?_, fun n other => ?_, ?_⟩
    · rw [changeSubjects_cons]
      exact kept
    · rw [changeSubjects_cons, relation, one, List.mem_cons]
      tauto
    · rw [changeSubjects_flag_cons, Bool.or_eq_true, flag, insert_flag linked]
      simp only [one, List.mem_cons]
      constructor
      · rintro (fresh | ⟨other, listed, absent⟩)
        · exact ⟨first, .inl rfl, fresh⟩
        · exact ⟨other, .inr listed, fun present => absent (.inl present)⟩
      · rintro ⟨other, rfl | listed, absent⟩
        · exact .inl absent
        · by_cases same : other = first
          · subst same
            exact .inl absent
          · exact .inr ⟨other, listed, fun present => present.elim absent fun new => same new.1⟩

theorem removeAll (subjects : List String) :
    ∀ m : SubjectMembership, Linked m →
      Linked (changeSubjects removeSubjectMembership node_id subjects m).2 ∧
      (∀ n other, Claims (changeSubjects removeSubjectMembership node_id subjects m).2 n other ↔
        Claims m n other ∧ ¬(n = node_id ∧ other ∈ subjects)) ∧
      ((changeSubjects removeSubjectMembership node_id subjects m).1 = true ↔
        ∃ other ∈ subjects, Claims m node_id other) := by
  induction subjects with
  | nil =>
    intro m linked
    exact ⟨linked, by simp [changeSubjects], by simp [changeSubjects]⟩
  | cons first subjects ih =>
    intro m linked
    obtain ⟨kept, relation, flag⟩ := ih _ (linked_remove linked first node_id)
    refine ⟨?_, fun n other => ?_, ?_⟩
    · rw [changeSubjects_cons]
      exact kept
    · rw [changeSubjects_cons, relation, claims_remove, List.mem_cons]
      tauto
    · rw [changeSubjects_flag_cons, Bool.or_eq_true, flag, remove_flag]
      simp only [claims_remove, List.mem_cons]
      constructor
      · rintro (present | ⟨other, listed, present, _⟩)
        · exact ⟨first, .inl rfl, present⟩
        · exact ⟨other, .inr listed, present⟩
      · rintro ⟨other, rfl | listed, present⟩
        · exact .inl present
        · by_cases same : other = first
          · subst same
            exact .inl present
          · exact .inr ⟨other, listed, present, fun new => same new.1⟩

end Loops

section Lifecycle

theorem shrinkRows {node_id : NodeId} (subjects : List String) :
    ∀ t : Table String (IterSet NodeId), (∀ k row, t.get k = some row → row.items ≠ []) →
      (∀ k row, (subjects.foldl (fun by_key subject => shrinkRow by_key subject node_id) t).get k =
        some row → row.items ≠ []) ∧
      ∀ subject n,
        n ∈ (((subjects.foldl (fun by_key subject => shrinkRow by_key subject node_id) t).get
          subject).getD IterSet.empty).items ↔
        n ∈ ((t.get subject).getD IterSet.empty).items ∧ ¬(subject ∈ subjects ∧ n = node_id) := by
  induction subjects with
  | nil =>
    intro t rows
    exact ⟨rows, by simp⟩
  | cons first subjects ih =>
    intro t rows
    obtain ⟨kept, relation⟩ := ih _ (shrinkRow_rows rows first node_id)
    refine ⟨kept, fun subject n => ?_⟩
    rw [List.foldl_cons, relation, mem_shrinkRow, List.mem_cons]
    tauto

theorem forgetNode_some {m : SubjectMembership} {node_id : NodeId} {subjects : IterSet String}
    (stored : m.byNode.get node_id = some subjects) :
    forgetNode m node_id =
      ⟨subjects.items.foldl (fun by_key subject => shrinkRow by_key subject node_id) m.byKey,
        m.byNode.del node_id⟩ := by
  unfold forgetNode
  rw [stored]
  simp only
  congr 2
  funext by_key subject
  unfold shrinkRow
  cases by_key.get subject <;> rfl

theorem linked_forgetNode {m : SubjectMembership} (linked : Linked m) (node_id : NodeId) :
    Linked (forgetNode m node_id) := by
  cases stored : m.byNode.get node_id with
  | none =>
    unfold forgetNode
    rw [stored]
    exact linked
  | some subjects =>
    rw [forgetNode_some stored]
    obtain ⟨rows, relation⟩ := @shrinkRows node_id subjects.items m.byKey linked.rows
    have own : claims m node_id = subjects := by rw [claims, stored]; rfl
    refine ⟨fun n subject => ?_, rows, fun n row found => ?_⟩
    · have before := linked.index n subject
      have here := linked.index node_id subject
      rw [own] at here
      unfold Claims SubjectMembership.holders at before here ⊢
      refine Iff.trans ?_ (relation subject n).symm
      unfold claims at before ⊢
      rw [get_del]
      split
      · next same =>
        subst same
        simp only [Option.getD_none, IterSet.empty, List.not_mem_nil, false_iff]
        tauto
      · next differ =>
        rw [before]
        tauto
    · exact linked.indexRows n row (get_del_some found).2

theorem linked_importMembership (rows : List (String × List NodeId)) :
    Linked (importMembership rows) := by
  refine List.foldlRecOn rows _ linked_empty fun m linked row _ => ?_
  exact List.foldlRecOn row.2 _ linked fun m linked node_id _ => linked_insert linked row.1 node_id

def ServiceLinked (c : ClusterService) : Prop := Linked c.replicas ∧ Linked c.available

variable {c : ClusterService}

theorem linked_replaceView (linked : ServiceLinked c) (node_id : NodeId) (subjects : List String) :
    Linked (replaceNodeAvailableView c node_id subjects).2.available := by
  unfold replaceNodeAvailableView
  simp only
  split
  · exact linked.2
  · exact (insertAll _ _ (removeAll _ _ linked.2).1).1

theorem linked_reconcile (linked : ServiceLinked c) (node_id : NodeId)
    (subjects : List String) : ServiceLinked (reconcileNodeSubjects c node_id subjects).2 := by
  constructor
  · simp only [reconcileNodeSubjects, replaceNodeAvailableView_replicas]
    exact (insertAll _ _ (removeAll _ _ linked.1).1).1
  · exact linked_replaceView linked node_id subjects

theorem linked_apply (linked : ServiceLinked c) (call : ClusterCall) :
    ServiceLinked (call.apply c) := by
  cases call with
  | registerNode now descriptor => exact linked
  | importNodes descriptors => exact linked
  | removeNode node_id =>
    simp only [ClusterCall.apply, removeNode]
    split
    · exact linked
    · exact ⟨linked_forgetNode linked.1 node_id, linked_forgetNode linked.2 node_id⟩
  | touchHeartbeat node_id now free_bytes labels =>
    simp only [ClusterCall.apply, touchHeartbeat, updateNode]
    split <;> exact linked
  | updateNodeStorage node_id free_bytes =>
    simp only [ClusterCall.apply, updateNodeStorage, updateNode]
    split <;> exact linked
  | updateHealth now => exact linked
  | noteReplica key node_id =>
    exact ⟨linked_insert linked.1 key node_id, linked_insert linked.2 key node_id⟩
  | replaceNodeAvailableView node_id subjects =>
    refine ⟨?_, linked_replaceView linked node_id subjects⟩
    simp only [ClusterCall.apply, replaceNodeAvailableView_replicas]
    exact linked.1
  | reconcileNodeSubjects node_id subjects => exact linked_reconcile linked node_id subjects
  | importReplicaViews replicas available =>
    exact ⟨linked_importMembership replicas, linked_importMembership available⟩
  | removeReplica key node_id => exact ⟨linked_remove linked.1 key node_id, linked.2⟩
  | removeAvailable key node_id => exact ⟨linked.1, linked_remove linked.2 key node_id⟩

theorem serviceAfter_linked (local_node : NodeId) (policy : ReplicationPolicy)
    (heartbeat_timeout_secs : Nat) (calls : List ClusterCall) :
    ServiceLinked (serviceAfter local_node policy heartbeat_timeout_secs calls) := by
  exact List.foldlRecOn calls _ ⟨linked_empty, linked_empty⟩
    fun c linked call _ => linked_apply linked call

end Lifecycle

section Exports

def exportByKey (m : SubjectMembership) : Table String (List NodeId) :=
  m.byKey.mapValues IterSet.sorted

def exportReplicasByKey (c : ClusterService) : Table String (List NodeId) := exportByKey c.replicas

def exportAvailableByKey (c : ClusterService) : Table String (List NodeId) :=
  exportByKey c.available

theorem export_unchanged_iff {m m' : SubjectMembership} (linked : Linked m) (linked' : Linked m') :
    (∀ subject, (exportByKey m').get subject = (exportByKey m).get subject) ↔
      ∀ node_id subject, Claims m' node_id subject ↔ Claims m node_id subject := by
  unfold exportByKey Claims SubjectMembership.holders
  constructor
  · intro same node_id subject
    have here := same subject
    rw [get_mapValues, get_mapValues] at here
    cases stored : m.byKey.get subject with
    | none =>
      rw [stored, Option.map_none, Option.map_eq_none_iff] at here
      rw [here]
    | some nodes =>
      rw [stored, Option.map_some, Option.map_eq_some_iff] at here
      obtain ⟨nodes', stored', sorted⟩ := here
      rw [stored', Option.getD_some, Option.getD_some, ← mem_sorted nodes', sorted, mem_sorted]
  · intro same subject
    rw [get_mapValues, get_mapValues]
    have row : ∀ node_id, node_id ∈ ((m'.byKey.get subject).getD IterSet.empty).items ↔
        node_id ∈ ((m.byKey.get subject).getD IterSet.empty).items :=
      fun node_id => same node_id subject
    cases stored : m.byKey.get subject with
    | none =>
      cases stored' : m'.byKey.get subject with
      | none => rfl
      | some nodes' =>
        obtain ⟨node_id, listed⟩ := List.exists_mem_of_ne_nil _ (linked'.rows subject nodes' stored')
        rw [stored, stored'] at row
        exact absurd ((row node_id).mp listed) List.not_mem_nil
    | some nodes =>
      cases stored' : m'.byKey.get subject with
      | none =>
        obtain ⟨node_id, listed⟩ := List.exists_mem_of_ne_nil _ (linked.rows subject nodes stored)
        rw [stored, stored'] at row
        exact absurd ((row node_id).mpr listed) List.not_mem_nil
      | some nodes' =>
        rw [stored, stored'] at row
        exact congrArg some (sorted_list_unique nodes'.nodup nodes.nodup row)

end Exports

section Reconcile
variable {c : ClusterService} {node_id : NodeId} {subjects : List String}

theorem replaceView_effect (linked : ServiceLinked c) :
    (∀ n subject, Claims (replaceNodeAvailableView c node_id subjects).2.available n subject ↔
      if n = node_id then subject ∈ subjects else Claims c.available n subject) ∧
    ((replaceNodeAvailableView c node_id subjects).1 = true ↔
      ∃ subject, ¬(subject ∈ subjects ↔ Claims c.available node_id subject)) := by
  have index : ∀ subject, subject ∈ ((c.available.byNode.get node_id).getD IterSet.empty).items ↔
      Claims c.available node_id subject := linked.2.index node_id
  unfold replaceNodeAvailableView
  simp only
  split
  · next same =>
    have reported : ∀ subject, Claims c.available node_id subject ↔ subject ∈ subjects := by
      intro subject
      rw [← index, ← List.mem_toFinset, same, List.mem_toFinset, mem_ofList]
    constructor
    · intro n subject
      split
      · next own =>
        rw [own]
        exact reported subject
      · rfl
    · simp [reported]
  · next differ =>
    obtain ⟨removed_linked, removed, removed_flag⟩ := @removeAll node_id
      ((((c.available.byNode.get node_id).getD IterSet.empty).items).filter fun subject =>
        !(IterSet.ofList subjects).contains subject) c.available linked.2
    obtain ⟨_, inserted, inserted_flag⟩ := @insertAll node_id
      ((IterSet.ofList subjects).items.filter fun subject =>
        !((c.available.byNode.get node_id).getD IterSet.empty).contains subject) _ removed_linked
    constructor
    · intro n subject
      rw [inserted, removed]
      simp only [List.mem_filter, Bool.not_eq_true', ← Bool.not_eq_true, contains_iff, mem_ofList,
        index]
      split
      · next own =>
        rw [own]
        tauto
      · next other => simp [other]
    · rw [Bool.or_eq_true, removed_flag, inserted_flag]
      simp only [removed, List.mem_filter, Bool.not_eq_true', ← Bool.not_eq_true, contains_iff,
        mem_ofList, index]
      constructor
      · rintro (⟨subject, ⟨held, unwanted⟩, _⟩ | ⟨subject, ⟨wanted, fresh⟩, _⟩)
        · exact ⟨subject, fun same => unwanted (same.mpr held)⟩
        · exact ⟨subject, fun same => fresh (same.mp wanted)⟩
      · rintro ⟨subject, changed⟩
        by_cases wanted : subject ∈ subjects
        · have fresh : ¬Claims c.available node_id subject := fun held =>
            changed ⟨fun _ => held, fun _ => wanted⟩
          exact .inr ⟨subject, ⟨wanted, fresh⟩, fun held => fresh held.1⟩
        · have held : Claims c.available node_id subject := by
            by_contra missing
            exact changed ⟨fun listed => absurd listed wanted, fun held => absurd held missing⟩
          exact .inl ⟨subject, ⟨held, wanted⟩, held⟩

def Outlives (subjects : List String) (subject : String) : Prop :=
  isVersionedReplicationSubject subject = true ∧
    ∃ reported ∈ subjects, replicationPlacementKey reported = replicationPlacementKey subject

theorem preserves_iff (subject : String) :
    preservesHistoricalClaim subjects subject = true ↔ Outlives subjects subject := by
  simp [preservesHistoricalClaim, Outlives]

theorem reconcile_replicas (linked : ServiceLinked c) :
    (∀ n subject, Claims (reconcileNodeSubjects c node_id subjects).2.replicas n subject ↔
      if n = node_id then
        subject ∈ subjects ∨ Claims c.replicas node_id subject ∧ Outlives subjects subject
      else Claims c.replicas n subject) ∧
    ((reconcileNodeSubjects c node_id subjects).1 = true ↔
      (replaceNodeAvailableView c node_id subjects).1 = true ∨
      ∃ subject, ¬((subject ∈ subjects ∨
        Claims c.replicas node_id subject ∧ Outlives subjects subject) ↔
          Claims c.replicas node_id subject)) := by
  have index : ∀ subject, subject ∈ ((c.replicas.byNode.get node_id).getD IterSet.empty).items ↔
      Claims c.replicas node_id subject := linked.1.index node_id
  obtain ⟨removed_linked, removed, removed_flag⟩ := @removeAll node_id
    ((((c.replicas.byNode.get node_id).getD IterSet.empty).items).filter fun subject =>
      !(IterSet.ofList subjects).contains subject && !preservesHistoricalClaim subjects subject)
    c.replicas linked.1
  obtain ⟨_, inserted, inserted_flag⟩ := @insertAll node_id (IterSet.ofList subjects).items _
    removed_linked
  simp only [reconcileNodeSubjects, replaceNodeAvailableView_replicas]
  constructor
  · intro n subject
    rw [inserted, removed]
    simp only [List.mem_filter, Bool.and_eq_true, Bool.not_eq_true', ← Bool.not_eq_true,
      contains_iff, mem_ofList, index, preserves_iff]
    split
    · next own =>
      rw [own]
      tauto
    · next other => simp [other]
  · rw [Bool.or_eq_true, Bool.or_eq_true, removed_flag, inserted_flag, or_assoc]
    apply or_congr_right
    simp only [removed, List.mem_filter, Bool.and_eq_true, Bool.not_eq_true', ← Bool.not_eq_true,
      contains_iff, mem_ofList, index, preserves_iff]
    constructor
    · rintro (⟨subject, ⟨held, unwanted, dropped⟩, _⟩ | ⟨subject, wanted, missing⟩)
      · refine ⟨subject, fun same => ?_⟩
        rcases same.mpr held with wanted | kept
        · exact unwanted wanted
        · exact dropped kept.2
      · refine ⟨subject, fun same => missing ⟨same.mp (.inl wanted), ?_⟩⟩
        rintro ⟨_, _, unwanted, _⟩
        exact unwanted wanted
    · rintro ⟨subject, changed⟩
      by_cases wanted : subject ∈ subjects
      · refine .inr ⟨subject, wanted, fun held => changed ?_⟩
        exact ⟨fun _ => held.1, fun _ => .inl wanted⟩
      · have held : Claims c.replicas node_id subject := by
          by_contra missing
          apply changed
          constructor
          · rintro (listed | kept)
            · exact absurd listed wanted
            · exact kept.1
          · intro held
            exact absurd held missing
        have dropped : ¬Outlives subjects subject := fun kept =>
          changed ⟨fun _ => held, fun _ => .inr ⟨held, kept⟩⟩
        exact .inl ⟨subject, ⟨held, wanted, dropped⟩, held⟩

theorem export_changed_iff {m m' : SubjectMembership} (linked : Linked m) (linked' : Linked m')
    {reported : String → Prop}
    (replaced : ∀ n subject, Claims m' n subject ↔
      if n = node_id then reported subject else Claims m n subject) :
    (∃ subject, (exportByKey m').get subject ≠ (exportByKey m).get subject) ↔
      ∃ subject, ¬(reported subject ↔ Claims m node_id subject) := by
  rw [← not_iff_not]
  simp only [not_exists, not_not]
  rw [export_unchanged_iff linked linked']
  constructor
  · intro same subject
    rw [← same node_id subject, replaced, if_pos rfl]
  · intro at_node n subject
    rw [replaced]
    split
    · next equal => rw [equal, at_node]
    · rfl

theorem reconcile_flag (linked : ServiceLinked c) :
    (reconcileNodeSubjects c node_id subjects).1 = true ↔
      (∃ subject, (exportReplicasByKey (reconcileNodeSubjects c node_id subjects).2).get subject ≠
        (exportReplicasByKey c).get subject) ∨
      ∃ subject, (exportAvailableByKey (reconcileNodeSubjects c node_id subjects).2).get subject ≠
        (exportAvailableByKey c).get subject := by
  obtain ⟨replicas, flag⟩ := @reconcile_replicas c node_id subjects linked
  obtain ⟨available, viewed⟩ := @replaceView_effect c node_id subjects linked
  have after := linked_reconcile linked node_id subjects
  have replica_view := export_changed_iff linked.1 after.1 replicas
  have available_view := export_changed_iff linked.2 after.2 available
  unfold exportReplicasByKey exportAvailableByKey
  rw [flag, viewed, replica_view, available_view]
  exact or_comm

def SameRows (m m' : SubjectMembership) : Prop :=
  (∀ subject, m'.byKey.get subject = m.byKey.get subject) ∧
    ∀ node_id, m'.byNode.get node_id = m.byNode.get node_id

theorem put_insert_present {α β : Type} [DecidableEq α] [DecidableEq β] {t : Table α (IterSet β)}
    {k : α} {b : β} (listed : b ∈ ((t.get k).getD IterSet.empty).items) (j : α) :
    (t.put k (((t.get k).getD IterSet.empty).insert b)).get j = t.get j := by
  obtain ⟨row, stored, inside⟩ := getD_items listed
  have same : row.insert b = row := by
    cases row with
    | mk items nodup =>
      unfold IterSet.insert
      congr 1
      exact List.insert_of_mem inside
  rw [get_put, stored, Option.getD_some, same]
  split
  · next equal => rw [equal, stored]
  · rfl

theorem insert_present {m : SubjectMembership} (linked : Linked m) {subject : String}
    (held : Claims m node_id subject) :
    SameRows m (insertSubjectMembership m subject node_id).2 :=
  ⟨put_insert_present held, put_insert_present ((linked.index node_id subject).mpr held)⟩

theorem insertAll_present (subjects : List String) :
    ∀ m : SubjectMembership, Linked m → (∀ subject ∈ subjects, Claims m node_id subject) →
      SameRows m (changeSubjects insertSubjectMembership node_id subjects m).2 := by
  induction subjects with
  | nil =>
    intro m _ _
    exact ⟨fun _ => rfl, fun _ => rfl⟩
  | cons first subjects ih =>
    intro m linked held
    have one := insert_present linked (held first List.mem_cons_self)
    have rest := ih _ (linked_insert linked first node_id) fun subject listed =>
      (mem_holders_insert m first subject node_id node_id).mpr
        (.inl (held subject (List.mem_cons_of_mem _ listed)))
    rw [changeSubjects_cons]
    exact ⟨fun subject => (rest.1 subject).trans (one.1 subject),
      fun n => (rest.2 n).trans (one.2 n)⟩

theorem reconcile_same (linked : ServiceLinked c)
    (available : ∀ subject, Claims c.available node_id subject ↔ subject ∈ subjects)
    (replicas : ∀ subject, Claims c.replicas node_id subject →
      subject ∈ subjects ∨ Outlives subjects subject)
    (held : ∀ subject ∈ subjects, Claims c.replicas node_id subject) :
    (reconcileNodeSubjects c node_id subjects).2.nodes = c.nodes ∧
      SameRows c.replicas (reconcileNodeSubjects c node_id subjects).2.replicas ∧
      SameRows c.available (reconcileNodeSubjects c node_id subjects).2.available := by
  have view : replaceNodeAvailableView c node_id subjects = (false, c) := by
    unfold replaceNodeAvailableView
    simp only
    rw [if_pos]
    ext subject
    rw [List.mem_toFinset, List.mem_toFinset, mem_ofList, ← available]
    exact linked.2.index node_id subject
  have nothing : (((c.replicas.byNode.get node_id).getD IterSet.empty).items.filter fun subject =>
      !(IterSet.ofList subjects).contains subject &&
        !preservesHistoricalClaim subjects subject) = [] := by
    rw [List.filter_eq_nil_iff]
    intro subject listed
    have claimed := (linked.1.index node_id subject).mp listed
    simp only [Bool.and_eq_true, Bool.not_eq_true', ← Bool.not_eq_true, contains_iff, mem_ofList,
      preserves_iff, not_and, not_not]
    intro unwanted
    exact (replicas subject claimed).resolve_left unwanted
  simp only [reconcileNodeSubjects, view, nothing]
  refine ⟨trivial, ?_, fun _ => rfl, fun _ => rfl⟩
  apply insertAll_present _ _ linked.1
  intro subject listed
  exact held subject ((mem_ofList subjects subject).mp listed)

end Reconcile

/-- What a report of a node does to a service that any calls have built: its available view is the
    reported set, its replica claims are the reported ones and those for old versions of reported
    keys, other nodes keep theirs, the flag tells whether an export changed, and repeating the
    report changes nothing. -/
theorem reconcile_exact (local_node : NodeId) (policy : ReplicationPolicy)
    (heartbeat_timeout_secs : Nat) (calls : List ClusterCall) (node_id : NodeId)
    (subjects : List String) :
    let before := serviceAfter local_node policy heartbeat_timeout_secs calls
    let result := reconcileNodeSubjects before node_id subjects
    let again := reconcileNodeSubjects result.2 node_id subjects
    (∀ subject, (subject ∈ (claims result.2.available node_id).items ↔ subject ∈ subjects) ∧
      (Claims result.2.available node_id subject ↔ subject ∈ subjects)) ∧
    (∀ subject, (subject ∈ (claims result.2.replicas node_id).items ↔
        subject ∈ subjects ∨
          subject ∈ (claims before.replicas node_id).items ∧ Outlives subjects subject) ∧
      (Claims result.2.replicas node_id subject ↔
        subject ∈ subjects ∨
          Claims before.replicas node_id subject ∧ Outlives subjects subject)) ∧
    (∀ other subject, other ≠ node_id →
      (subject ∈ (claims result.2.available other).items ↔
        subject ∈ (claims before.available other).items) ∧
      (Claims result.2.available other subject ↔ Claims before.available other subject) ∧
      (subject ∈ (claims result.2.replicas other).items ↔
        subject ∈ (claims before.replicas other).items) ∧
      (Claims result.2.replicas other subject ↔ Claims before.replicas other subject)) ∧
    (result.1 = true ↔
      (∃ subject, (exportReplicasByKey result.2).get subject ≠
        (exportReplicasByKey before).get subject) ∨
      ∃ subject, (exportAvailableByKey result.2).get subject ≠
        (exportAvailableByKey before).get subject) ∧
    again.1 = false ∧ again.2.nodes = result.2.nodes ∧
      SameRows result.2.replicas again.2.replicas ∧
      SameRows result.2.available again.2.available := by
  intro before result again
  have linked : ServiceLinked before :=
    serviceAfter_linked local_node policy heartbeat_timeout_secs calls
  have after : ServiceLinked result.2 := linked_reconcile linked node_id subjects
  have available := (@replaceView_effect before node_id subjects linked).1
  have replicas := (@reconcile_replicas before node_id subjects linked).1
  have own_available : ∀ subject, Claims result.2.available node_id subject ↔
      subject ∈ subjects := by
    intro subject
    have here := available node_id subject
    rw [if_pos rfl] at here
    exact here
  have own_replicas : ∀ subject, Claims result.2.replicas node_id subject ↔ subject ∈ subjects ∨
      Claims before.replicas node_id subject ∧ Outlives subjects subject := by
    intro subject
    have here := replicas node_id subject
    rw [if_pos rfl] at here
    exact here
  have repeated := reconcile_same after own_available
    (fun subject held => ((own_replicas subject).mp held).imp_right And.right)
    (fun subject listed => (own_replicas subject).mpr (.inl listed))
  have quiet : again.1 = false := by
    rw [← Bool.not_eq_true, reconcile_flag after, not_or]
    simp only [not_exists, not_not]
    constructor
    · intro subject
      unfold exportReplicasByKey exportByKey
      rw [get_mapValues, get_mapValues, repeated.2.1.1]
    · intro subject
      unfold exportAvailableByKey exportByKey
      rw [get_mapValues, get_mapValues, repeated.2.2.1]
  refine ⟨fun subject => ⟨?_, own_available subject⟩, fun subject => ⟨?_, own_replicas subject⟩,
    ?_, reconcile_flag linked, quiet, repeated⟩
  · rw [after.2.index]
    exact own_available subject
  · rw [after.1.index, linked.1.index]
    exact own_replicas subject
  · intro other subject differ
    have kept_available : Claims result.2.available other subject ↔
        Claims before.available other subject := by
      have there := available other subject
      rw [if_neg differ] at there
      exact there
    have kept_replicas : Claims result.2.replicas other subject ↔
        Claims before.replicas other subject := by
      have there := replicas other subject
      rw [if_neg differ] at there
      exact there
    refine ⟨?_, kept_available, ?_, kept_replicas⟩
    · rw [after.2.index, linked.2.index]
      exact kept_available
    · rw [after.1.index, linked.1.index]
      exact kept_replicas

section Removal

def Unmentioned (m : SubjectMembership) (node_id : NodeId) : Prop :=
  m.byNode.get node_id = none ∧ ∀ subject, ¬Claims m node_id subject

theorem forgetNode_unmentioned {m : SubjectMembership} (linked : Linked m) (node_id : NodeId) :
    Unmentioned (forgetNode m node_id) node_id := by
  have dropped : (forgetNode m node_id).byNode.get node_id = none := by
    cases stored : m.byNode.get node_id with
    | none =>
      unfold forgetNode
      rw [stored]
      exact stored
    | some subjects =>
      rw [forgetNode_some stored]
      exact get_del_self _ _
  refine ⟨dropped, fun subject claimed => ?_⟩
  have listed := ((linked_forgetNode linked node_id).index node_id subject).mpr claimed
  rw [claims, dropped] at listed
  cases listed

end Removal

/-- After any calls both views agree with their indexes, and the removal of a registered node
    leaves no mention of it. -/
theorem membership_indexes_inverse (local_node : NodeId) (policy : ReplicationPolicy)
    (heartbeat_timeout_secs : Nat) (calls : List ClusterCall) :
    let service := serviceAfter local_node policy heartbeat_timeout_secs calls
    ServiceLinked service ∧ ∀ node_id, service.nodes.has node_id = true →
      Unmentioned (removeNode service node_id).2.replicas node_id ∧
        Unmentioned (removeNode service node_id).2.available node_id := by
  intro service
  have linked : ServiceLinked service :=
    serviceAfter_linked local_node policy heartbeat_timeout_secs calls
  refine ⟨linked, fun node_id registered => ?_⟩
  obtain ⟨node, stored⟩ := (has_iff _ _).mp registered
  rw [removeNode, stored]
  exact ⟨forgetNode_unmentioned linked.1 node_id, forgetNode_unmentioned linked.2 node_id⟩

theorem registered_node_forgotten :
    Unmentioned (removeNode (serviceAfter 0 .default 60
      [.registerNode 0 ⟨1, Table.empty, 0, 0, .online⟩, .noteReplica "k" 1]) 1).2.replicas 1 :=
  ((membership_indexes_inverse 0 .default 60 _).2 1 (by decide +kernel)).1

/-- A node that only reported subjects is not registered, and its removal does nothing. -/
theorem unregistered_node_stays :
    ¬Unmentioned (serviceAfter 0 .default 60 [.noteReplica "k" 1, .removeNode 1]).replicas 1 := by
  intro unmentioned
  exact absurd unmentioned.1 (by decide +kernel)

end BerryKeepSubjectReconciliation
