import BerryKeep.ClusterLifecycle
import Mathlib.Algebra.Order.BigOperators.Group.List
import Mathlib.Data.Finset.Card

/-!
What the two passes of placement choose. The first pass never runs out of
replicas before its labels are served: every replica it hands out adds at least
one of the values that are still asked for, counted over all labels, because
the very first one already serves each label once. The choice depends on the
ranking alone, and a node that was not chosen had no influence on it.
-/
namespace BerryKeepPlacementSelection
open FiniteTable BerryKeepClusterPlacement BerryKeepClusterLifecycle

structure NodeMap where
  table : Table NodeId NodeDescriptor
  keyed : NodesKeyed table

def NodeMap.ofService (local_node : NodeId) (policy : ReplicationPolicy)
    (heartbeat_timeout_secs : Nat) (calls : List ClusterCall) : NodeMap :=
  ⟨(serviceAfter local_node policy heartbeat_timeout_secs calls).nodes,
    serviceAfter_keyed local_node policy heartbeat_timeout_secs calls⟩

def isOnline (node : NodeDescriptor) : Bool := node.status == .online

def NodeMap.onlineNodes (nodes : NodeMap) : List NodeDescriptor := nodes.table.values.filter isOnline

def NodeMap.chosen (nodes : NodeMap) (ids : List NodeId) : List NodeDescriptor :=
  ids.filterMap nodes.table.get

def distinctValues (label : String) (nodes : List NodeDescriptor) : Finset String :=
  (nodes.map (labelValue · label)).toFinset

theorem mem_distinctValues {label value : String} {nodes : List NodeDescriptor} :
    value ∈ distinctValues label nodes ↔ ∃ node ∈ nodes, labelValue node label = value := by
  simp [distinctValues]

section Seen
variable {policy : ReplicationPolicy}

def seenValues (acc : Selection) (label : String) : IterSet String :=
  (acc.seenLabelValues.get label).getD IterSet.empty

theorem seen_push_keys (node : NodeDescriptor) (label : String) (keys : List String) :
    ∀ seen : Table String (IterSet String), keys.Nodup →
      (keys.foldl (fun seen label_key => seen.put label_key
        (((seen.get label_key).getD IterSet.empty).insert (labelValue node label_key))) seen).get
          label =
        if label ∈ keys then
          some (((seen.get label).getD IterSet.empty).insert (labelValue node label))
        else seen.get label := by
  induction keys with
  | nil =>
    intro seen _
    simp
  | cons first rest ih =>
    intro seen nodup
    obtain ⟨fresh, distinct⟩ := List.nodup_cons.mp nodup
    rw [List.foldl_cons, ih _ distinct]
    by_cases same : label = first
    · subst same
      simp [fresh]
    · simp [same, get_put]

theorem seenValues_push (acc : Selection) (node_id : NodeId) (node : NodeDescriptor)
    {label : String} {minimum : Nat} (asked : policy.minDistinctLabels.get label = some minimum) :
    seenValues (acc.push policy node_id node) label =
      (seenValues acc label).insert (labelValue node label) := by
  have listed : label ∈ policy.minDistinctLabels.keys := (mem_keys _ label).mpr ⟨minimum, asked⟩
  unfold seenValues Selection.push
  simp only
  rw [seen_push_keys node label _ _ (keys_nodup _), if_pos listed]
  rfl

theorem size_insert (values : IterSet String) (value : String) :
    (values.insert value).size =
      if value ∈ values.items then values.size else values.size + 1 := by
  unfold IterSet.insert IterSet.size
  simp only
  split
  · next present => rw [List.insert_of_mem present]
  · next absent => rw [List.insert_of_not_mem absent, List.length_cons]

theorem helpsConstraint_iff (node : NodeDescriptor) (acc : Selection) :
    helpsConstraint policy node acc.seenLabelValues = true ↔
      ∃ label minimum, policy.minDistinctLabels.get label = some minimum ∧
        (seenValues acc label).size < minimum ∧
        labelValue node label ∉ (seenValues acc label).items := by
  unfold helpsConstraint
  rw [List.any_eq_true]
  constructor
  · rintro ⟨⟨label, minimum⟩, listed, lacking⟩
    refine ⟨label, minimum, (mem_entries _ label minimum).mp listed, ?_⟩
    simp only at lacking
    split at lacking
    · cases lacking
    · next short =>
      refine ⟨Nat.lt_of_not_le short, fun present => ?_⟩
      have contained := (contains_iff (seenValues acc label) (labelValue node label)).mpr present
      rw [seenValues] at contained
      rw [contained] at lacking
      cases lacking
  · rintro ⟨label, minimum, asked, short, absent⟩
    refine ⟨(label, minimum), (mem_entries _ label minimum).mpr asked, ?_⟩
    unfold seenValues at short absent
    simp only
    rw [if_neg (Nat.not_le_of_lt short)]
    simpa [IterSet.contains] using absent

end Seen

section Served
variable (policy : ReplicationPolicy)

def served (acc : Selection) : Nat :=
  (policy.minDistinctLabels.entries.map fun row =>
    min (seenValues acc row.1).size row.2).sum

def asked : Nat := (policy.minDistinctLabels.entries.map Prod.snd).sum

variable {policy}

theorem served_push_row (acc : Selection) (node_id : NodeId) (node : NodeDescriptor)
    {label : String} {minimum : Nat} (stored : policy.minDistinctLabels.get label = some minimum) :
    min (seenValues acc label).size minimum ≤
      min (seenValues (acc.push policy node_id node) label).size minimum := by
  rw [seenValues_push acc node_id node stored, size_insert]
  split <;> omega

theorem served_push_le (acc : Selection) (node_id : NodeId) (node : NodeDescriptor) :
    served policy acc ≤ served policy (acc.push policy node_id node) := by
  apply List.sum_le_sum
  intro row listed
  exact served_push_row acc node_id node ((mem_entries _ row.1 row.2).mp listed)

theorem served_push_lt {acc : Selection} {node_id : NodeId} {node : NodeDescriptor}
    (helps : helpsConstraint policy node acc.seenLabelValues = true) :
    served policy acc < served policy (acc.push policy node_id node) := by
  obtain ⟨label, minimum, stored, short, absent⟩ := (helpsConstraint_iff node acc).mp helps
  apply List.sum_lt_sum
  · intro row listed
    exact served_push_row acc node_id node ((mem_entries _ row.1 row.2).mp listed)
  · refine ⟨(label, minimum), (mem_entries _ label minimum).mpr stored, ?_⟩
    simp only
    rw [seenValues_push acc node_id node stored, size_insert, if_neg absent]
    omega

theorem served_push_labels
    (positive : ∀ label minimum, policy.minDistinctLabels.get label = some minimum → 1 ≤ minimum)
    (acc : Selection) (node_id : NodeId) (node : NodeDescriptor) :
    policy.minDistinctLabels.size ≤ served policy (acc.push policy node_id node) := by
  have rows : policy.minDistinctLabels.size = policy.minDistinctLabels.entries.length := by
    rw [Table.size, ← entries_keys, List.length_map]
  rw [rows, served, ← List.length_map (fun row =>
    min (seenValues (acc.push policy node_id node) row.1).size row.2)]
  apply List.length_le_sum_of_one_le
  intro count listed
  obtain ⟨row, stored, rfl⟩ := List.mem_map.mp listed
  have found := (mem_entries _ row.1 row.2).mp stored
  have least := positive row.1 row.2 found
  rw [seenValues_push acc node_id node found, size_insert]
  have filled : labelValue node row.1 ∈ (seenValues acc row.1).items →
      0 < (seenValues acc row.1).size := fun present => List.length_pos_of_mem present
  split
  · next present =>
    have := filled present
    omega
  · omega

theorem covered {acc : Selection} (enough : asked policy ≤ served policy acc) {label : String}
    {minimum : Nat} (stored : policy.minDistinctLabels.get label = some minimum) :
    minimum ≤ (seenValues acc label).size := by
  by_contra short
  have fewer : served policy acc < asked policy := by
    apply List.sum_lt_sum
    · intro row _
      exact Nat.min_le_right _ _
    · refine ⟨(label, minimum), (mem_entries _ label minimum).mpr stored, ?_⟩
      simp only
      omega
  omega

end Served

section FirstPass
variable {nodes : Table NodeId NodeDescriptor} {policy : ReplicationPolicy}

/-- What the first pass keeps: the counted values are values of selected nodes, and there are no
    more selected nodes than served values. -/
structure PassInvariant (nodes : Table NodeId NodeDescriptor) (policy : ReplicationPolicy)
    (acc : Selection) : Prop where
  carried : ∀ label minimum, policy.minDistinctLabels.get label = some minimum →
    ∀ value ∈ (seenValues acc label).items, ∃ node_id ∈ acc.selected, ∃ node,
      nodes.get node_id = some node ∧ labelValue node label = value
  counted : acc.selected.length ≤ served policy acc
  labels : acc.selected ≠ [] → policy.minDistinctLabels.size ≤ served policy acc

theorem passInvariant_start : PassInvariant nodes policy ⟨[], Table.empty⟩ where
  carried := by
    intro label minimum _ value listed
    cases listed
  counted := Nat.zero_le _
  labels := fun filled => absurd rfl filled

theorem PassInvariant.push
    (positive : ∀ label minimum, policy.minDistinctLabels.get label = some minimum → 1 ≤ minimum)
    {acc : Selection} (invariant : PassInvariant nodes policy acc) {node_id : NodeId}
    {node : NodeDescriptor} (found : nodes.get node_id = some node)
    (wanted : helpsConstraint policy node acc.seenLabelValues = true ∨
      acc.selected.length < policy.minDistinctLabels.size) :
    PassInvariant nodes policy (acc.push policy node_id node) where
  carried := by
    intro label minimum stored value listed
    rw [seenValues_push acc node_id node stored, mem_insert] at listed
    rcases listed with rfl | before
    · exact ⟨node_id, by simp [Selection.push], node, found, rfl⟩
    · obtain ⟨other, selected, rest⟩ := invariant.carried label minimum stored value before
      exact ⟨other, List.mem_append_left _ selected, rest⟩
  counted := by
    have grown := @served_push_le policy acc node_id node
    have all := served_push_labels positive acc node_id node
    have length : (acc.push policy node_id node).selected.length = acc.selected.length + 1 := by
      simp [Selection.push]
    have before := invariant.counted
    rcases wanted with helps | early
    · have more := @served_push_lt policy acc node_id node helps
      omega
    · omega
  labels := fun _ => served_push_labels positive acc node_id node

theorem selectForLabels_grows (ranked : List (NodeId × Nat)) :
    ∀ acc : Selection, acc.selected ⊆ (selectForLabels nodes policy ranked acc).selected ∧
      ∀ label minimum, policy.minDistinctLabels.get label = some minimum →
        (seenValues acc label).size ≤
            (seenValues (selectForLabels nodes policy ranked acc) label).size ∧
          (seenValues acc label).items ⊆
            (seenValues (selectForLabels nodes policy ranked acc) label).items := by
  induction ranked with
  | nil =>
    intro acc
    exact ⟨List.Subset.refl _, fun _ _ _ => ⟨Nat.le_refl _, List.Subset.refl _⟩⟩
  | cons entry ranked ih =>
    intro acc
    obtain ⟨node_id, score⟩ := entry
    simp only [selectForLabels]
    split
    · exact ⟨List.Subset.refl _, fun _ _ _ => ⟨Nat.le_refl _, List.Subset.refl _⟩⟩
    · split
      · exact ih acc
      · next node found =>
        split
        · obtain ⟨selected, seen⟩ := ih (acc.push policy node_id node)
          constructor
          · intro other listed
            exact selected (List.mem_append_left _ listed)
          · intro label minimum stored
            obtain ⟨size, items⟩ := seen label minimum stored
            rw [seenValues_push acc node_id node stored] at size items
            constructor
            · rw [size_insert] at size
              split at size <;> omega
            · intro value listed
              exact items ((mem_insert _ _ _).mpr (.inr listed))
        · exact ih acc

theorem selectForLabels_serves
    (positive : ∀ label minimum, policy.minDistinctLabels.get label = some minimum → 1 ≤ minimum)
    (room : asked policy ≤ policy.replicationFactor) {label : String} {minimum : Nat}
    (stored : policy.minDistinctLabels.get label = some minimum) (ranked : List (NodeId × Nat)) :
    ∀ acc : Selection, PassInvariant nodes policy acc →
      PassInvariant nodes policy (selectForLabels nodes policy ranked acc) ∧
      (minimum ≤ (seenValues (selectForLabels nodes policy ranked acc) label).size ∨
        ∀ entry ∈ ranked, ∀ node, nodes.get entry.1 = some node →
          labelValue node label ∈
            (seenValues (selectForLabels nodes policy ranked acc) label).items) := by
  induction ranked with
  | nil =>
    intro acc invariant
    refine ⟨invariant, .inr fun entry listed => ?_⟩
    cases listed
  | cons entry ranked ih =>
    intro acc invariant
    obtain ⟨node_id, score⟩ := entry
    simp only [selectForLabels]
    split
    · -- the replicas are used up, so every value that was asked for has been served
      next full =>
      have counted := invariant.counted
      exact ⟨invariant, .inl (covered (by omega) stored)⟩
    · split
      · next missing =>
        obtain ⟨kept, served⟩ := ih acc invariant
        refine ⟨kept, served.imp_right fun rest entry listed node found => ?_⟩
        rcases List.mem_cons.mp listed with rfl | later
        · rw [missing] at found
          cases found
        · exact rest entry later node found
      · next node found =>
        split
        · next wanted =>
          simp only [Bool.or_eq_true, decide_eq_true_eq] at wanted
          obtain ⟨kept, served⟩ := ih _ (invariant.push positive found wanted)
          refine ⟨kept, served.imp_right fun rest entry listed other stored_at => ?_⟩
          rcases List.mem_cons.mp listed with rfl | later
          · rw [found] at stored_at
            cases stored_at
            have grown := (@selectForLabels_grows nodes policy ranked
              (acc.push policy node_id node)).2 label minimum stored
            apply grown.2
            rw [seenValues_push acc node_id node stored]
            exact (mem_insert _ _ _).mpr (.inl rfl)
          · exact rest entry later other stored_at
        · next unwanted =>
          simp only [Bool.or_eq_true, decide_eq_true_eq, not_or] at unwanted
          obtain ⟨kept, served⟩ := ih acc invariant
          have grown := (@selectForLabels_grows nodes policy ranked acc).2
            label minimum stored
          refine ⟨kept, ?_⟩
          rcases served with enough | rest
          · exact .inl enough
          · by_cases short : (seenValues acc label).size < minimum
            · -- the node was passed over although values are missing: it has none of them
              refine .inr fun entry listed other stored_at => ?_
              rcases List.mem_cons.mp listed with rfl | later
              · rw [found] at stored_at
                cases stored_at
                apply grown.2
                by_contra absent
                exact unwanted.1 ((helpsConstraint_iff node acc).mpr
                  ⟨label, minimum, stored, short, absent⟩)
              · exact rest entry later other stored_at
            · left
              have larger := grown.1
              omega

end FirstPass

section Choice
variable {digest : Digest} {key : String} {nodes : NodeMap} {policy : ReplicationPolicy}

theorem fillUp_grows (factor : Nat) (ranked : List (NodeId × Nat)) :
    ∀ selected : List NodeId, selected ⊆ fillUp factor ranked selected := by
  induction ranked with
  | nil =>
    intro selected
    exact List.Subset.refl _
  | cons entry ranked ih =>
    intro selected
    obtain ⟨node_id, score⟩ := entry
    simp only [fillUp]
    split
    · exact List.Subset.refl _
    · split
      · exact ih selected
      · intro other listed
        exact ih _ (List.mem_append_left _ listed)

def ranking (digest : Digest) (key : String) (nodes : NodeMap) : List (NodeId × Nat) :=
  rankNodes digest key nodes.table isOnline

def firstPass (digest : Digest) (key : String) (nodes : NodeMap) (policy : ReplicationPolicy) :
    Selection :=
  selectForLabels nodes.table policy (ranking digest key nodes) ⟨[], Table.empty⟩

theorem select_eq : selectNodesByRendezvous digest key nodes.table policy =
    if (firstPass digest key nodes policy).selected.length < policy.replicationFactor then
      fillUp policy.replicationFactor (ranking digest key nodes)
        (firstPass digest key nodes policy).selected
    else (firstPass digest key nodes policy).selected := rfl

theorem firstPass_subset :
    (firstPass digest key nodes policy).selected ⊆
      selectNodesByRendezvous digest key nodes.table policy := by
  rw [select_eq]
  split
  · exact fillUp_grows _ _ _
  · exact List.Subset.refl _

theorem mem_ranking {entry : NodeId × Nat} :
    entry ∈ ranking digest key nodes ↔ ∃ node, nodes.table.get entry.1 = some node ∧
      isOnline node = true ∧ entry.2 = rendezvousScore digest key entry.1 := by
  unfold ranking rankNodes
  rw [List.mem_insertionSort, List.mem_map]
  constructor
  · rintro ⟨node, listed, rfl⟩
    obtain ⟨stored, online⟩ := List.mem_filter.mp listed
    obtain ⟨node_id, found⟩ := (mem_values _ node).mp stored
    have own := nodes.keyed node_id node found
    subst own
    exact ⟨node, found, online, rfl⟩
  · rintro ⟨node, found, online, score⟩
    have own := nodes.keyed entry.1 node found
    refine ⟨node, List.mem_filter.mpr ⟨(mem_values _ node).mpr ⟨entry.1, found⟩, online⟩, ?_⟩
    rw [own, ← score]

/-- Placement serves every label as far as the online nodes allow. -/
theorem placement_label_diversity (digest : Digest) (key : String) (nodes : NodeMap)
    (policy : ReplicationPolicy)
    (positive : ∀ label minimum, policy.minDistinctLabels.get label = some minimum → 1 ≤ minimum)
    (room : asked policy ≤ policy.replicationFactor) :
    ∀ label minimum, policy.minDistinctLabels.get label = some minimum →
      min minimum (distinctValues label nodes.onlineNodes).card ≤
        (distinctValues label
          (nodes.chosen (selectNodesByRendezvous digest key nodes.table policy))).card := by
  intro label minimum stored
  obtain ⟨invariant, served⟩ := selectForLabels_serves positive room stored
    (ranking digest key nodes) _ (@passInvariant_start nodes.table policy)
  have carried : ∀ value ∈ (seenValues (firstPass digest key nodes policy) label).items,
      value ∈ distinctValues label
        (nodes.chosen (selectNodesByRendezvous digest key nodes.table policy)) := by
    intro value listed
    obtain ⟨node_id, selected, node, found, same⟩ :=
      invariant.carried label minimum stored value listed
    rw [mem_distinctValues]
    exact ⟨node, List.mem_filterMap.mpr ⟨node_id, firstPass_subset selected, found⟩, same⟩
  rcases served with enough | every
  · have counted : (seenValues (firstPass digest key nodes policy) label).items.toFinset.card =
        (seenValues (firstPass digest key nodes policy) label).size :=
      List.toFinset_card_of_nodup (seenValues (firstPass digest key nodes policy) label).nodup
    have within := Finset.card_le_card (fun value listed =>
      carried value (List.mem_toFinset.mp listed))
    have reached : minimum ≤ (seenValues (firstPass digest key nodes policy) label).size := enough
    omega
  · apply Nat.le_trans (Nat.min_le_right _ _)
    apply Finset.card_le_card
    intro value listed
    obtain ⟨node, online, rfl⟩ := mem_distinctValues.mp listed
    obtain ⟨in_map, is_online⟩ := List.mem_filter.mp online
    obtain ⟨node_id, found⟩ := (mem_values _ node).mp in_map
    apply carried
    exact every (node_id, rendezvousScore digest key node_id)
      (mem_ranking.mpr ⟨node, found, is_online, rfl⟩) node found

end Choice

section Examples

def twoCentres : NodeMap where
  table := ((Table.empty.put 0 ⟨0, Table.empty.put "dc" "east", 0, 0, .online⟩).put 1
    ⟨1, Table.empty.put "dc" "east", 0, 0, .online⟩).put 2
    ⟨2, Table.empty.put "dc" "west", 0, 0, .online⟩
  keyed := by
    apply keyed_put
    · apply keyed_put
      · apply keyed_put
        · intro node_id node stored
          cases stored
        · rfl
      · rfl
    · rfl

def spreadPolicy : ReplicationPolicy := ⟨2, Table.empty.put "dc" 2, 0⟩

theorem both_centres_chosen :
    min 2 (distinctValues "dc" twoCentres.onlineNodes).card = 2 ∧
      min 2 (distinctValues "dc" twoCentres.onlineNodes).card ≤ (distinctValues "dc"
        (twoCentres.chosen (selectNodesByRendezvous (fun _ => []) "key" twoCentres.table
          spreadPolicy))).card := by
  refine ⟨by decide +kernel, ?_⟩
  apply placement_label_diversity (fun _ => []) "key" twoCentres spreadPolicy
  · intro label minimum stored
    simp only [spreadPolicy, get_put, get_empty] at stored
    split at stored
    · cases stored
      decide
    · cases stored
  · decide
  · decide

end Examples

section Ranking
variable {digest : Digest} {key : String} {nodes after : NodeMap} {policy : ReplicationPolicy}

def ScoresDiffer (digest : Digest) (key : String) (nodes : NodeMap) : Prop :=
  ∀ a b node other, nodes.table.get a = some node → isOnline node = true →
    nodes.table.get b = some other → isOnline other = true →
    rendezvousScore digest key a = rendezvousScore digest key b → a = b

theorem ranking_nodup : (ranking digest key nodes).Nodup :=
  (ranked_nodup nodes.keyed digest key isOnline).of_map

theorem ranking_sorted : (ranking digest key nodes).Pairwise fun a b => b.2 ≤ a.2 := by
  have : Std.Total fun a b : NodeId × Nat => b.2 ≤ a.2 := ⟨fun a b => Nat.le_total b.2 a.2⟩
  have : IsTrans (NodeId × Nat) fun a b => b.2 ≤ a.2 := ⟨fun _ _ _ ab bc => Nat.le_trans bc ab⟩
  exact List.pairwise_insertionSort _ _

/-- The ranking is the only order by score, so a ranking of some of the nodes is a part of it. -/
theorem ranking_filter (differ : ScoresDiffer digest key nodes) {keep : NodeId → Bool}
    (left : ∀ node_id, (∃ node, after.table.get node_id = some node ∧ isOnline node = true) ↔
      (∃ node, nodes.table.get node_id = some node ∧ isOnline node = true) ∧
        keep node_id = true) :
    ranking digest key after = (ranking digest key nodes).filter fun entry => keep entry.1 := by
  have members : ∀ entry, entry ∈ ranking digest key after ↔
      entry ∈ (ranking digest key nodes).filter fun entry => keep entry.1 := by
    intro entry
    rw [List.mem_filter, mem_ranking, mem_ranking]
    constructor
    · rintro ⟨node, found, online, score⟩
      obtain ⟨⟨other, stored, up⟩, kept⟩ := (left entry.1).mp ⟨node, found, online⟩
      exact ⟨⟨other, stored, up, score⟩, kept⟩
    · rintro ⟨⟨node, found, online, score⟩, kept⟩
      obtain ⟨other, stored, up⟩ := (left entry.1).mpr ⟨⟨node, found, online⟩, kept⟩
      exact ⟨other, stored, up, score⟩
  apply List.Perm.eq_of_pairwise _ ranking_sorted (ranking_sorted.filter _)
    ((List.perm_ext_iff_of_nodup ranking_nodup (ranking_nodup.filter _)).mpr members)
  intro a b first second up down
  have here := (members a).mp first
  rw [List.mem_filter, mem_ranking] at here second
  obtain ⟨⟨node, found, online, score⟩, _⟩ := here
  obtain ⟨⟨other, stored, also, other_score⟩, _⟩ := second
  have same_score : a.2 = b.2 := Nat.le_antisymm down up
  have same := differ a.1 b.1 node other found online stored also (by omega)
  exact Prod.ext same same_score

end Ranking

section Stability
variable {policy : ReplicationPolicy}

theorem selectForLabels_full {table : Table NodeId NodeDescriptor} {acc : Selection}
    (full : policy.replicationFactor ≤ acc.selected.length) (ranked : List (NodeId × Nat)) :
    selectForLabels table policy ranked acc = acc := by
  cases ranked with
  | nil => rfl
  | cons entry ranked => simp [selectForLabels, full]

theorem fillUp_full {factor : Nat} {selected : List NodeId} (full : factor ≤ selected.length)
    (ranked : List (NodeId × Nat)) : fillUp factor ranked selected = selected := by
  cases ranked with
  | nil => rfl
  | cons entry ranked => simp [fillUp, full]

theorem selectForLabels_filter {table other : Table NodeId NodeDescriptor} {keep : NodeId → Bool}
    (same : ∀ node_id, keep node_id = true → other.get node_id = table.get node_id)
    (ranked : List (NodeId × Nat)) :
    ∀ acc : Selection,
      (∀ node_id ∈ (selectForLabels table policy ranked acc).selected, keep node_id = true) →
      selectForLabels other policy (ranked.filter fun entry => keep entry.1) acc =
        selectForLabels table policy ranked acc := by
  induction ranked with
  | nil =>
    intro acc _
    rfl
  | cons entry ranked ih =>
    intro acc taken
    obtain ⟨node_id, score⟩ := entry
    by_cases full : policy.replicationFactor ≤ acc.selected.length
    · rw [selectForLabels_full full, selectForLabels_full full]
    · simp only [selectForLabels, full, if_false] at taken ⊢
      cases kept : keep node_id with
      | true =>
        rw [List.filter_cons_of_pos (by simpa using kept)]
        simp only [selectForLabels, full, if_false]
        rw [same node_id kept]
        split at taken
        · exact ih acc taken
        · split at taken
          · next wanted =>
            simp only [wanted, if_true]
            exact ih _ taken
          · next unwanted =>
            simp only [unwanted]
            exact ih acc taken
      | false =>
        rw [List.filter_cons_of_neg (by simp [kept])]
        split at taken
        · exact ih acc taken
        · next node found =>
          split at taken
          · -- a node that was taken is not one of those that were left out
            have selected := (@selectForLabels_grows table policy ranked
              (acc.push policy node_id node)).1 (List.mem_append_right _ (List.mem_singleton_self _))
            rw [taken node_id selected] at kept
            cases kept
          · next unwanted =>
            simp only [unwanted]
            exact ih acc taken

theorem fillUp_filter {factor : Nat} {keep : NodeId → Bool} (ranked : List (NodeId × Nat)) :
    ∀ selected : List NodeId,
      (∀ node_id ∈ fillUp factor ranked selected, keep node_id = true) →
      fillUp factor (ranked.filter fun entry => keep entry.1) selected =
        fillUp factor ranked selected := by
  induction ranked with
  | nil =>
    intro selected _
    rfl
  | cons entry ranked ih =>
    intro selected taken
    obtain ⟨node_id, score⟩ := entry
    by_cases full : factor ≤ selected.length
    · rw [fillUp_full full, fillUp_full full]
    · simp only [fillUp, full, if_false] at taken ⊢
      cases kept : keep node_id with
      | true =>
        rw [List.filter_cons_of_pos (by simpa using kept)]
        simp only [fillUp, full, if_false]
        split at taken
        · next present =>
          rw [if_pos present, if_pos present]
          exact ih selected taken
        · next absent =>
          rw [if_neg absent, if_neg absent]
          exact ih _ taken
      | false =>
        rw [List.filter_cons_of_neg (by simp [kept])]
        split at taken
        · next present =>
          rw [if_pos present]
          exact ih selected taken
        · have inside := fillUp_grows factor ranked (selected ++ [node_id])
            (List.mem_append_right _ (List.mem_singleton_self _))
          rw [taken node_id inside] at kept
          cases kept

end Stability

section Size

theorem selectForLabels_within {table : Table NodeId NodeDescriptor} {policy : ReplicationPolicy}
    (ranked : List (NodeId × Nat)) :
    ∀ acc : Selection, acc.selected.length ≤ policy.replicationFactor →
      (selectForLabels table policy ranked acc).selected.length ≤ policy.replicationFactor ∧
      (selectForLabels table policy ranked acc).selected ⊆
        acc.selected ++ ranked.map Prod.fst := by
  induction ranked with
  | nil =>
    intro acc fits
    exact ⟨fits, by simp [selectForLabels]⟩
  | cons entry ranked ih =>
    intro acc fits
    obtain ⟨node_id, score⟩ := entry
    have skipped : acc.selected ++ ranked.map Prod.fst ⊆
        acc.selected ++ ((node_id, score) :: ranked).map Prod.fst := by
      intro other listed
      simp only [List.map_cons, List.mem_append, List.mem_cons] at listed ⊢
      tauto
    simp only [selectForLabels]
    split
    · exact ⟨fits, fun other listed => List.mem_append_left _ listed⟩
    · next left =>
      split
      · obtain ⟨short, inside⟩ := ih acc fits
        exact ⟨short, fun other listed => skipped (inside listed)⟩
      · next node found =>
        split
        · have pushed : (acc.push policy node_id node).selected.length ≤
              policy.replicationFactor := by
            simp only [Selection.push, List.length_append, List.length_singleton]
            omega
          obtain ⟨short, inside⟩ := ih _ pushed
          refine ⟨short, fun other listed => ?_⟩
          have place := inside listed
          simp only [Selection.push, List.append_assoc, List.singleton_append] at place
          exact place
        · obtain ⟨short, inside⟩ := ih acc fits
          exact ⟨short, fun other listed => skipped (inside listed)⟩

theorem fillUp_within {factor : Nat} (ranked : List (NodeId × Nat)) :
    ∀ selected : List NodeId, selected.length ≤ factor →
      (fillUp factor ranked selected).length ≤ factor ∧
      fillUp factor ranked selected ⊆ selected ++ ranked.map Prod.fst ∧
      ((fillUp factor ranked selected).length = factor ∨
        ranked.map Prod.fst ⊆ fillUp factor ranked selected) := by
  induction ranked with
  | nil =>
    intro selected fits
    exact ⟨fits, by simp [fillUp], .inr (by simp)⟩
  | cons entry ranked ih =>
    intro selected fits
    obtain ⟨node_id, score⟩ := entry
    simp only [fillUp, List.map_cons]
    split
    · next full =>
      exact ⟨fits, fun other listed => List.mem_append_left _ listed, .inl (by omega)⟩
    · next left =>
      split
      · next present =>
        obtain ⟨short, inside, reached⟩ := ih selected fits
        refine ⟨short, fun other listed => ?_, reached.imp_right fun all other listed => ?_⟩
        · have place := inside listed
          simp only [List.mem_append, List.mem_cons] at place ⊢
          tauto
        · rcases List.mem_cons.mp listed with rfl | later
          · exact fillUp_grows factor ranked selected present
          · exact all later
      · next absent =>
        have longer : (selected ++ [node_id]).length ≤ factor := by
          simp only [List.length_append, List.length_singleton]
          omega
        obtain ⟨short, inside, reached⟩ := ih _ longer
        refine ⟨short, fun other listed => ?_, reached.imp_right fun all other listed => ?_⟩
        · have place := inside listed
          simp only [List.append_assoc, List.singleton_append] at place
          exact place
        · rcases List.mem_cons.mp listed with rfl | later
          · exact fillUp_grows factor ranked _ (List.mem_append_right _ (List.mem_singleton_self _))
          · exact all later

variable {digest : Digest} {key : String} {nodes : NodeMap} {policy : ReplicationPolicy}

theorem ranking_length : (ranking digest key nodes).length = nodes.onlineNodes.length := by
  unfold ranking rankNodes
  rw [List.length_insertionSort, List.length_map]
  rfl

theorem select_within :
    selectNodesByRendezvous digest key nodes.table policy ⊆
        (ranking digest key nodes).map Prod.fst ∧
      (selectNodesByRendezvous digest key nodes.table policy).length =
        min policy.replicationFactor nodes.onlineNodes.length := by
  have distinct := selectNodesByRendezvous_nodup nodes.keyed digest key policy
  have ranked := ranked_nodup nodes.keyed digest key isOnline
  have count : ((ranking digest key nodes).map Prod.fst).length = nodes.onlineNodes.length := by
    rw [List.length_map, ranking_length]
  obtain ⟨short, inside⟩ := @selectForLabels_within nodes.table policy (ranking digest key nodes)
    ⟨[], Table.empty⟩ (Nat.zero_le _)
  rw [select_eq] at distinct ⊢
  split at distinct
  · next left =>
    rw [if_pos left]
    obtain ⟨fits, within, reached⟩ := fillUp_within (ranking digest key nodes)
      (firstPass digest key nodes policy).selected short
    have subset : fillUp policy.replicationFactor (ranking digest key nodes)
        (firstPass digest key nodes policy).selected ⊆
          (ranking digest key nodes).map Prod.fst := by
      intro node_id listed
      rcases List.mem_append.mp (within listed) with first | second
      · exact inside first
      · exact second
    refine ⟨subset, ?_⟩
    have fewer := (List.subperm_of_subset distinct subset).length_le
    rcases reached with full | all
    · omega
    · have more := (List.subperm_of_subset ranked all).length_le
      have same : ((rankNodes digest key nodes.table isOnline).map Prod.fst).length =
        nodes.onlineNodes.length := count
      omega
  · next full =>
    rw [if_neg full]
    have fewer := (List.subperm_of_subset distinct inside).length_le
    refine ⟨inside, ?_⟩
    have fits : (firstPass digest key nodes policy).selected.length ≤ policy.replicationFactor :=
      short
    simp only [List.nil_append] at fewer
    omega

end Size

def Churned (nodes after : NodeMap) (gone : NodeId → Prop) : Prop :=
  ∀ node_id,
    (¬gone node_id → after.table.get node_id = nodes.table.get node_id) ∧
    (gone node_id → after.table.get node_id = none ∨
      ∃ node, nodes.table.get node_id = some node ∧
        after.table.get node_id = some { node with status := .offline })

section Churn
variable {digest : Digest} {key : String} {nodes after : NodeMap} {policy : ReplicationPolicy}

theorem select_churned (differ : ScoresDiffer digest key nodes) {gone : NodeId → Prop}
    (churned : Churned nodes after gone)
    (unselected : ∀ node_id, gone node_id →
      node_id ∉ selectNodesByRendezvous digest key nodes.table policy) :
    selectNodesByRendezvous digest key after.table policy =
      selectNodesByRendezvous digest key nodes.table policy := by
  classical
  have kept_same : ∀ node_id, decide (¬gone node_id) = true →
      after.table.get node_id = nodes.table.get node_id :=
    fun node_id kept => (churned node_id).1 (of_decide_eq_true kept)
  have order : ranking digest key after =
      (ranking digest key nodes).filter fun entry => decide (¬gone entry.1) := by
    apply @ranking_filter digest key nodes after differ fun node_id => decide (¬gone node_id)
    intro node_id
    by_cases left : gone node_id
    · simp only [left, not_true, decide_false, Bool.false_eq_true, and_false, iff_false]
      rintro ⟨node, found, online⟩
      rcases (churned node_id).2 left with removed | ⟨other, _, offline⟩
      · rw [removed] at found
        cases found
      · rw [offline] at found
        cases found
        cases online
    · simp only [left, not_false_eq_true, decide_true, and_true]
      rw [(churned node_id).1 left]
  have remains : ∀ node_id ∈ selectNodesByRendezvous digest key nodes.table policy,
      decide (¬gone node_id) = true := by
    intro node_id selected
    exact decide_eq_true fun left => unselected node_id left selected
  have first : firstPass digest key after policy = firstPass digest key nodes policy := by
    unfold firstPass
    rw [order]
    apply selectForLabels_filter kept_same
    intro node_id selected
    exact remains node_id (firstPass_subset selected)
  rw [select_eq, select_eq, first, order]
  rw [select_eq] at remains
  split
  · next left =>
    rw [if_pos left] at remains
    exact fillUp_filter _ _ remains
  · rfl

/-- Placement returns as many distinct online nodes as it can, whatever order the node map is
    iterated in, and nodes that were not chosen may leave without changing the list. -/
theorem placement_stable (digest : Digest) (key : String) (nodes : NodeMap)
    (policy : ReplicationPolicy) (differ : ScoresDiffer digest key nodes) :
    (selectNodesByRendezvous digest key nodes.table policy).Nodup ∧
    (∀ node_id ∈ selectNodesByRendezvous digest key nodes.table policy,
      ∃ node, nodes.table.get node_id = some node ∧ isOnline node = true) ∧
    (selectNodesByRendezvous digest key nodes.table policy).length =
      min policy.replicationFactor nodes.onlineNodes.length ∧
    (∀ other : NodeMap, (∀ node_id, other.table.get node_id = nodes.table.get node_id) →
      selectNodesByRendezvous digest key other.table policy =
        selectNodesByRendezvous digest key nodes.table policy) ∧
    ∀ (after : NodeMap) (gone : NodeId → Prop), Churned nodes after gone →
      (∀ node_id, gone node_id →
        node_id ∉ selectNodesByRendezvous digest key nodes.table policy) →
      selectNodesByRendezvous digest key after.table policy =
        selectNodesByRendezvous digest key nodes.table policy := by
  refine ⟨selectNodesByRendezvous_nodup nodes.keyed digest key policy, ?_, select_within.2, ?_, ?_⟩
  · intro node_id selected
    obtain ⟨entry, ranked, rfl⟩ := List.mem_map.mp (select_within.1 selected)
    obtain ⟨node, found, online, _⟩ := mem_ranking.mp ranked
    exact ⟨node, found, online⟩
  · intro other same
    have unchanged : Churned nodes other fun _ => False :=
      fun node_id => ⟨fun _ => same node_id, fun left => left.elim⟩
    exact select_churned differ unchanged fun _ left => left.elim
  · intro after gone churned unselected
    exact select_churned differ churned unselected

def lastDigit : Digest := fun text => [(text.toList.getLast?.getD '0').toNat.toUInt8]

theorem twoCentres_ids {node_id : NodeId} {node : NodeDescriptor}
    (found : twoCentres.table.get node_id = some node) :
    node_id = 0 ∨ node_id = 1 ∨ node_id = 2 := by
  simp only [twoCentres, get_put, get_empty] at found
  split at found
  · next same => exact .inr (.inr same)
  · split at found
    · next same => exact .inr (.inl same)
    · split at found
      · next same => exact .inl same
      · cases found

theorem twoCentres_differ : ScoresDiffer lastDigit "key" twoCentres := by
  intro a b node other found _ stored _ same
  have scores : rendezvousScore lastDigit "key" 0 = 48 ∧ rendezvousScore lastDigit "key" 1 = 49 ∧
      rendezvousScore lastDigit "key" 2 = 50 := by decide +kernel
  obtain ⟨zero, one, two⟩ := scores
  rcases twoCentres_ids found with rfl | rfl | rfl <;>
    rcases twoCentres_ids stored with rfl | rfl | rfl <;>
      first
      | rfl
      | (exfalso; omega)

def withoutLowest : NodeMap := ⟨twoCentres.table.del 0, keyed_del twoCentres.keyed 0⟩

theorem lowest_rank_may_leave :
    0 ∉ selectNodesByRendezvous lastDigit "key" twoCentres.table spreadPolicy ∧
      selectNodesByRendezvous lastDigit "key" withoutLowest.table spreadPolicy =
        selectNodesByRendezvous lastDigit "key" twoCentres.table spreadPolicy := by
  have unselected : 0 ∉ selectNodesByRendezvous lastDigit "key" twoCentres.table spreadPolicy := by
    decide +kernel
  have stable := placement_stable lastDigit "key" twoCentres spreadPolicy twoCentres_differ
  refine ⟨unselected, stable.2.2.2.2 withoutLowest (· = 0) ?_ ?_⟩
  · intro node_id
    constructor
    · intro other
      exact get_del_other twoCentres.table other
    · intro same
      exact .inl (by rw [same]; exact get_del_self twoCentres.table 0)
  · intro node_id same
    rw [same]
    exact unselected

end Churn

end BerryKeepPlacementSelection
