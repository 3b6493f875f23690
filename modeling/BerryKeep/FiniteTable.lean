import Mathlib.Algebra.GroupWithZero.Nat
import Mathlib.Data.Fintype.Basic
import Mathlib.Data.List.AList
import Mathlib.Data.List.Dedup
import Mathlib.Data.List.Sort

/-!
Finite tables with one row per key, and the ordered views that are taken of
them. A table is read through `get` and changed through `put` and `del`; the
order of its rows stands for an iteration order that no caller may rely on,
so every fact about a table is stated through `get`.
-/
namespace FiniteTable
variable {κ υ ω : Type} [DecidableEq κ]

structure Table (κ υ : Type) where
  rows : AList (fun _ : κ => υ)

def Table.empty : Table κ υ := ⟨∅⟩

def Table.get (t : Table κ υ) (k : κ) : Option υ := t.rows.lookup k

def Table.put (t : Table κ υ) (k : κ) (v : υ) : Table κ υ := ⟨t.rows.insert k v⟩

def Table.del (t : Table κ υ) (k : κ) : Table κ υ := ⟨t.rows.erase k⟩

def Table.has (t : Table κ υ) (k : κ) : Bool := (t.get k).isSome

omit [DecidableEq κ] in
def Table.keys (t : Table κ υ) : List κ := t.rows.keys

omit [DecidableEq κ] in
def Table.size (t : Table κ υ) : Nat := t.keys.length

omit [DecidableEq κ] in
def Table.entries (t : Table κ υ) : List (κ × υ) := t.rows.entries.map fun row => (row.1, row.2)

omit [DecidableEq κ] in
def Table.values (t : Table κ υ) : List υ := t.rows.entries.map fun row => row.2

def Table.keysWhere (t : Table κ υ) (p : υ → Bool) : List κ :=
  t.keys.filter fun k => (t.get k).any p

def Table.delAll (t : Table κ υ) (ks : List κ) : Table κ υ := ks.foldl Table.del t

@[simp] theorem get_empty (k : κ) : (Table.empty : Table κ υ).get k = none := rfl

@[simp] theorem get_put_self (t : Table κ υ) (k : κ) (v : υ) : (t.put k v).get k = some v :=
  AList.lookup_insert t.rows

variable {k j : κ}

variable (t : Table κ υ)

theorem get_put_other (v : υ) (ne : j ≠ k) :
    (t.put k v).get j = t.get j := AList.lookup_insert_ne ne

theorem get_put (k j : κ) (v : υ) :
    (t.put k v).get j = if j = k then some v else t.get j := by
  split
  · subst j; exact get_put_self t k v
  · exact get_put_other t v ‹_›

theorem get_put_some {t : Table κ υ} {v w : υ} (found : (t.put k v).get j = some w) :
    j = k ∧ w = v ∨ j ≠ k ∧ t.get j = some w := by
  rw [get_put] at found
  split at found
  · exact .inl ⟨‹_›, (Option.some.inj found).symm⟩
  · exact .inr ⟨‹_›, found⟩

@[simp] theorem get_del_self (t : Table κ υ) (k : κ) : (t.del k).get k = none :=
  AList.lookup_erase k t.rows

theorem get_del_other (ne : j ≠ k) : (t.del k).get j = t.get j :=
  AList.lookup_erase_ne ne

theorem get_del (k j : κ) :
    (t.del k).get j = if j = k then none else t.get j := by
  split
  · subst j; exact get_del_self t k
  · exact get_del_other t ‹_›

theorem get_del_some {t : Table κ υ} {v : υ} (found : (t.del k).get j = some v) :
    j ≠ k ∧ t.get j = some v := by
  rw [get_del] at found
  split at found
  · cases found
  · exact ⟨‹_›, found⟩

theorem get_delAll (ks : List κ) (j : κ) :
    (t.delAll ks).get j = if j ∈ ks then none else t.get j := by
  induction ks generalizing t with
  | nil => rfl
  | cons k ks ih =>
    have tail : (t.delAll (k :: ks)).get j = ((t.del k).delAll ks).get j := rfl
    rw [tail, ih, get_del]
    by_cases later : j ∈ ks
    · simp [later]
    · by_cases same : j = k <;> simp [later, same]

theorem has_iff (k : κ) : t.has k = true ↔ ∃ v, t.get k = some v :=
  Option.isSome_iff_exists

theorem mem_keys (k : κ) : k ∈ t.keys ↔ ∃ v, t.get k = some v := by
  rw [← has_iff]
  exact (AList.lookup_isSome).symm

omit [DecidableEq κ] in
theorem keys_nodup : t.keys.Nodup := t.rows.keys_nodup

theorem mem_entries (k : κ) (v : υ) : (k, v) ∈ t.entries ↔ t.get k = some v := by
  have found : (⟨k, v⟩ : Sigma fun _ : κ => υ) ∈ t.rows.entries ↔ t.get k = some v :=
    (AList.mem_lookup_iff (a := k) (b := v) (s := t.rows)).symm
  rw [← found]
  simp only [Table.entries, List.mem_map, Prod.mk.injEq]
  constructor
  · rintro ⟨row, member, rfl, rfl⟩; exact member
  · intro member; exact ⟨_, member, rfl, rfl⟩

theorem mem_values (v : υ) : v ∈ t.values ↔ ∃ k, t.get k = some v := by
  have pairs : v ∈ t.values ↔ ∃ k, (k, v) ∈ t.entries := by
    simp only [Table.values, Table.entries, List.mem_map, Prod.mk.injEq]
    constructor
    · rintro ⟨row, member, rfl⟩; exact ⟨row.1, row, member, rfl, rfl⟩
    · rintro ⟨k, row, member, _, rfl⟩; exact ⟨row, member, rfl⟩
  rw [pairs]
  exact exists_congr fun k => mem_entries t k v

theorem mem_keysWhere (p : υ → Bool) (k : κ) :
    k ∈ t.keysWhere p ↔ ∃ v, t.get k = some v ∧ p v = true := by
  simp only [Table.keysWhere, List.mem_filter, mem_keys]
  constructor
  · rintro ⟨⟨v, found⟩, good⟩
    rw [found] at good
    exact ⟨v, found, good⟩
  · rintro ⟨v, found, good⟩
    exact ⟨⟨v, found⟩, by rw [found]; exact good⟩

omit [DecidableEq κ] in
theorem entries_keys : t.entries.map Prod.fst = t.keys := by
  simp [Table.entries, Table.keys, AList.keys, List.keys]

theorem foldl_entries {σ β : Type} (step : σ → κ × υ → σ) (view : σ → κ → β)
    (I : σ → Prop) (f : κ → υ → β → β) (kept : ∀ x row, I x → I (step x row))
    (hit : ∀ x k v, I x → view (step x (k, v)) k = f k v (view x k))
    (miss : ∀ x k v j, I x → j ≠ k → view (step x (k, v)) j = view x j)
    (x : σ) (start : I x) (j : κ) :
    view (t.entries.foldl step x) j =
      match t.get j with
      | some v => f j v (view x j)
      | none => view x j := by
  have general : ∀ (rows : List (κ × υ)) (x : σ), I x → (rows.map Prod.fst).Nodup →
      view (rows.foldl step x) j =
        match rows.find? fun row => row.1 = j with
        | some row => f j row.2 (view x j)
        | none => view x j := by
    intro rows
    induction rows with
    | nil => intro x _ _; rfl
    | cons row rows ih =>
      intro x holds nodup
      obtain ⟨k, v⟩ := row
      simp only [List.map_cons, List.nodup_cons] at nodup
      rw [List.foldl_cons, ih _ (kept x (k, v) holds) nodup.2, List.find?_cons]
      by_cases same : k = j
      · subst same
        have absent : rows.find? (fun row => row.1 = k) = none := by
          rw [List.find?_eq_none]
          intro row member equal
          exact nodup.1 (List.mem_map.mpr ⟨row, member, by simpa using equal⟩)
        simp [absent, hit x k v holds]
      · simp only [same, decide_false]
        rw [miss x k v j holds (Ne.symm same)]
  rw [general t.entries x start (by rw [entries_keys]; exact keys_nodup t)]
  cases stored : t.get j with
  | none =>
    have absent : t.entries.find? (fun row => row.1 = j) = none := by
      rw [List.find?_eq_none]
      intro row member equal
      have found := (mem_entries t row.1 row.2).mp member
      rw [of_decide_eq_true equal, stored] at found
      cases found
    rw [absent]
  | some v =>
    cases found : t.entries.find? (fun row => row.1 = j) with
    | none =>
      have member := (mem_entries t j v).mpr stored
      have contrary := List.find?_eq_none.mp found _ member
      simp at contrary
    | some row =>
      have member := List.mem_of_find?_eq_some found
      have same : row.1 = j := by simpa using List.find?_some found
      have read := (mem_entries t row.1 row.2).mp member
      rw [same, stored] at read
      cases read
      rfl

def Table.retain (t : Table κ υ) (keep : κ → υ → Bool) : Table κ υ :=
  t.delAll (t.keys.filter fun k => (t.get k).any fun v => !keep k v)

theorem get_retain (keep : κ → υ → Bool) (k : κ) :
    (t.retain keep).get k = (t.get k).filter fun v => keep k v := by
  rw [Table.retain, get_delAll]
  cases stored : t.get k with
  | none => simp
  | some v =>
    have listed : k ∈ t.keys := (mem_keys t k).mpr ⟨v, stored⟩
    cases kept : keep k v <;> simp [listed, stored, kept, Option.filter]

def Table.mapValues (t : Table κ υ) (f : υ → ω) : Table κ ω :=
  t.entries.foldl (fun image row => image.put row.1 (f row.2)) Table.empty

theorem get_mapValues (f : υ → ω) (k : κ) :
    (t.mapValues f).get k = (t.get k).map f := by
  have collected := foldl_entries t (fun (image : Table κ ω) row => image.put row.1 (f row.2))
    Table.get (fun _ => True) (fun _ v _ => some (f v)) (fun _ _ _ => trivial)
    (fun x k v _ => get_put_self x k (f v)) (fun x k v j _ ne => get_put_other x (f v) ne)
    Table.empty trivial k
  rw [Table.mapValues, collected]
  cases t.get k <;> rfl

section Counting

omit [DecidableEq κ] in
def Table.countWhere (t : Table κ υ) (p : υ → Bool) : Nat := t.values.countP p

variable (t : Table κ υ)

theorem countWhere_put (k : κ) (v : υ) (p : υ → Bool) :
    (t.put k v).countWhere p = (t.del k).countWhere p + if p v then 1 else 0 := by
  have values : (t.put k v).values = v :: (t.del k).values := rfl
  rw [Table.countWhere, values, List.countP_cons]
  rfl

theorem countWhere_del {k : κ} {v : υ} (stored : t.get k = some v)
    (p : υ → Bool) : t.countWhere p = (t.del k).countWhere p + if p v then 1 else 0 := by
  have listed : k ∈ t.rows.entries.keys := (mem_keys t k).mpr ⟨v, stored⟩
  obtain ⟨w, before, after, _, split, erased⟩ := List.exists_of_kerase listed
  have same : w = v := by
    have found : t.get k = some w := by
      rw [← mem_entries, Table.entries, split]
      simp
    rw [stored] at found
    exact (Option.some.inj found).symm
  have left : (t.del k).values = (before ++ after).map fun row => row.2 :=
    congrArg (List.map fun row : Sigma fun _ : κ => υ => row.2) erased
  rw [Table.countWhere, Table.countWhere, left, Table.values, split, ← same]
  simp only [List.map_append, List.map_cons, List.countP_append, List.countP_cons]
  omega

theorem del_absent {k : κ} (absent : t.get k = none) : t.del k = t := by
  have unlisted : k ∉ t.rows.entries.keys := by
    intro listed
    obtain ⟨v, stored⟩ := (mem_keys t k).mp listed
    rw [absent] at stored
    cases stored
  exact congrArg Table.mk (AList.ext (List.kerase_of_notMem_keys unlisted))

theorem countWhere_pos (p : υ → Bool) :
    0 < t.countWhere p ↔ ∃ k v, t.get k = some v ∧ p v = true := by
  rw [Table.countWhere, List.countP_pos_iff]
  constructor
  · rintro ⟨v, listed, good⟩
    obtain ⟨k, stored⟩ := (mem_values t v).mp listed
    exact ⟨k, v, stored, good⟩
  · rintro ⟨k, v, stored, good⟩
    exact ⟨v, (mem_values t v).mpr ⟨k, stored⟩, good⟩

end Counting

section Ordered
variable [LinearOrder κ]

def Table.sortedKeys (t : Table κ υ) : List κ := t.keys.insertionSort (· ≤ ·)

theorem mem_sortedKeys (t : Table κ υ) (k : κ) : k ∈ t.sortedKeys ↔ ∃ v, t.get k = some v := by
  simp only [Table.sortedKeys, List.mem_insertionSort]
  exact mem_keys t k

omit [DecidableEq κ] in
theorem sortedKeys_nodup (t : Table κ υ) : t.sortedKeys.Nodup :=
  (List.perm_insertionSort _ _).nodup_iff.mpr (keys_nodup t)

end Ordered

section Sets
variable {α : Type}

/-- A set without repetition together with the order in which it is iterated. -/
structure IterSet (α : Type) where
  items : List α
  nodup : items.Nodup

def IterSet.empty : IterSet α := ⟨[], List.nodup_nil⟩

def IterSet.size (s : IterSet α) : Nat := s.items.length

def IterSet.sorted [LinearOrder α] (s : IterSet α) : List α := s.items.insertionSort (· ≤ ·)

@[simp] theorem mem_sorted [LinearOrder α] (s : IterSet α) (a : α) : a ∈ s.sorted ↔ a ∈ s.items := by
  simp [IterSet.sorted, List.mem_insertionSort]

theorem sorted_nodup [LinearOrder α] (s : IterSet α) : s.sorted.Nodup :=
  (List.perm_insertionSort _ _).nodup_iff.mpr s.nodup

variable [DecidableEq α]

def IterSet.contains (s : IterSet α) (a : α) : Bool := decide (a ∈ s.items)

def IterSet.insert (s : IterSet α) (a : α) : IterSet α := ⟨s.items.insert a, s.nodup.insert⟩

def IterSet.erase (s : IterSet α) (a : α) : IterSet α := ⟨s.items.erase a, s.nodup.erase a⟩

def IterSet.ofList (xs : List α) : IterSet α := ⟨xs.dedup, xs.nodup_dedup⟩

instance : DecidableEq (IterSet α) := fun s t =>
  decidable_of_iff (s.items = t.items) ⟨fun same => by cases s; cases t; cases same; rfl,
    fun same => by rw [same]⟩

@[simp] theorem contains_iff (s : IterSet α) (a : α) : s.contains a = true ↔ a ∈ s.items := by
  simp [IterSet.contains]

@[simp] theorem mem_insert (s : IterSet α) (a b : α) :
    b ∈ (s.insert a).items ↔ b = a ∨ b ∈ s.items := by
  simp [IterSet.insert]

@[simp] theorem mem_erase (s : IterSet α) (a b : α) :
    b ∈ (s.erase a).items ↔ b ≠ a ∧ b ∈ s.items := s.nodup.mem_erase_iff

@[simp] theorem mem_ofList (xs : List α) (a : α) : a ∈ (IterSet.ofList xs).items ↔ a ∈ xs := by
  simp [IterSet.ofList]

end Sets

theorem head_insertionSort {α : Type} {r : α → α → Prop} [DecidableRel r]
    (total : ∀ a b, r a b ∨ r b a) (trans : ∀ a b c, r a b → r b c → r a c) {xs : List α} {a : α}
    (first : (xs.insertionSort r).head? = some a) : a ∈ xs ∧ ∀ b ∈ xs, r a b := by
  have : Std.Total r := ⟨total⟩
  have : IsTrans α r := ⟨trans⟩
  have sorted := List.pairwise_insertionSort r xs
  obtain ⟨tail, listed⟩ : ∃ tail, xs.insertionSort r = a :: tail := by
    cases shape : xs.insertionSort r with
    | nil => rw [shape] at first; cases first
    | cons b tail => rw [shape] at first; cases first; exact ⟨tail, rfl⟩
  rw [listed] at sorted
  have members := fun b => List.mem_insertionSort (r := r) (x := b) (l := xs)
  refine ⟨(members a).mp (by rw [listed]; exact List.mem_cons_self), fun b member => ?_⟩
  have place := (members b).mpr member
  rw [listed] at place
  rcases List.mem_cons.mp place with rfl | later
  · exact (total b b).elim id id
  · exact (List.pairwise_cons.mp sorted).1 b later

theorem sorted_list_unique {α : Type} [LinearOrder α] {xs ys : List α} (xnodup : xs.Nodup)
    (ynodup : ys.Nodup) (same : ∀ a, a ∈ xs ↔ a ∈ ys) :
    xs.insertionSort (· ≤ ·) = ys.insertionSort (· ≤ ·) := by
  have perm : (xs.insertionSort (· ≤ ·)).Perm (ys.insertionSort (· ≤ ·)) :=
    (List.perm_insertionSort _ xs).trans
      (((List.perm_ext_iff_of_nodup xnodup ynodup).mpr same).trans
        (List.perm_insertionSort _ ys).symm)
  exact perm.eq_of_pairwise' (List.pairwise_insertionSort _ xs) (List.pairwise_insertionSort _ ys)

end FiniteTable
