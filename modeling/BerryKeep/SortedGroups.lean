import Mathlib.Data.Fintype.Basic
import Mathlib.Data.List.Destutter
import Mathlib.Data.List.Lex
import Mathlib.Data.Prod.Lex
import Mathlib.Order.Lattice

/-!
Sorted texts and the groups they fall into. A grouping cuts a text after some
front that does not depend on what follows it, and names the text by that front,
or by the text itself if there is nothing to cut. Sorted texts have sorted names,
so the members of a group stand together, and a walk that compares each name with
the one before it lists every name once.
-/
namespace SortedGroups

section Texts
variable {α : Type} [LinearOrder α]

theorem prefix_between {start left right mid : List α} (above : start ++ left < mid)
    (below : mid < start ++ right) : start <+: mid := by
  induction start generalizing mid with
  | nil => exact List.nil_prefix
  | cons c start ih =>
    cases mid with
    | nil => exact absurd above (List.not_lt_nil _)
    | cons d mid =>
      rw [List.cons_append, List.cons_lt_cons_iff] at above below
      rcases above with smaller | ⟨same, above⟩
      · rcases below with larger | ⟨same, _⟩
        · exact absurd (smaller.trans larger) (lt_irrefl _)
        · exact absurd (same ▸ smaller) (lt_irrefl _)
      · subst same
        rcases below with larger | ⟨_, below⟩
        · exact absurd larger (lt_irrefl _)
        · exact List.cons_prefix_cons.mpr ⟨rfl, ih above below⟩

theorem append_lt_iff (start left right : List α) :
    start ++ left < start ++ right ↔ left < right := by
  constructor
  · intro below
    rcases lt_trichotomy left right with before | same | after
    · exact before
    · rw [same] at below
      exact absurd below (lt_irrefl _)
    · exact absurd (below.trans (List.append_left_lt after)) (lt_irrefl _)
  · exact fun below => List.append_left_lt below

theorem lt_append (front : List α) {rest : List α} (filled : rest ≠ []) : front < front ++ rest := by
  have more : [] < rest := by
    cases rest with
    | nil => exact absurd rfl filled
    | cons a rest => exact List.nil_lt_cons a rest
  have longer := @List.append_left_lt α _ front [] rest more
  rwa [List.append_nil] at longer

/-- A cut into a front and what follows, where the front is the same for every other text
    that goes on after it. -/
structure Grouping (cut : List α → Option (List α × List α)) : Prop where
  whole : ∀ {text front rest}, cut text = some (front, rest) → text = front ++ rest
  swap : ∀ {front rest other}, cut (front ++ rest) = some (front, rest) → other ≠ [] →
    cut (front ++ other) = some (front, other)

def groupName (cut : List α → Option (List α × List α)) (text : List α) : List α × Bool :=
  match cut text with
  | some (front, _) => (front, true)
  | none => (text, false)

variable {cut : List α → Option (List α × List α)}

omit [LinearOrder α] in
theorem groupName_front {text front rest : List α} (found : cut text = some (front, rest)) :
    groupName cut text = (front, true) := by
  rw [groupName, found]

omit [LinearOrder α] in
theorem groupName_text {text : List α} (found : cut text = none) :
    groupName cut text = (text, false) := by
  rw [groupName, found]

theorem Grouping.between (grouping : Grouping cut) {front rest text : List α}
    (found : cut (front ++ rest) = some (front, rest)) (above : front < text)
    (below : text < front ++ rest) : ∃ other, cut text = some (front, other) := by
  have longer : front ++ [] < text := by rwa [List.append_nil]
  have begins : front <+: text := prefix_between longer below
  obtain ⟨other, rfl⟩ := begins
  have filled : other ≠ [] := by
    intro empty
    rw [empty, List.append_nil] at above
    exact lt_irrefl _ above
  exact ⟨other, grouping.swap found filled⟩

theorem Grouping.mono (grouping : Grouping cut) {low high : List α} (ordered : low < high) :
    toLex (groupName cut low) ≤ toLex (groupName cut high) := by
  cases cut_low : cut low with
  | none =>
    rw [groupName_text cut_low]
    cases cut_high : cut high with
    | none =>
      rw [groupName_text cut_high, Prod.Lex.toLex_le_toLex]
      exact .inl ordered
    | some parts =>
      obtain ⟨front, rest⟩ := parts
      rw [groupName_front cut_high, Prod.Lex.toLex_le_toLex]
      have whole := grouping.whole cut_high
      subst whole
      rcases lt_trichotomy low front with before | same | after
      · exact .inl before
      · exact .inr ⟨same, Bool.false_le true⟩
      · -- A text between the front and the cut text would be cut itself.
        obtain ⟨other, also⟩ := grouping.between cut_high after ordered
        rw [cut_low] at also
        cases also
  | some parts =>
    obtain ⟨front, rest⟩ := parts
    have whole := grouping.whole cut_low
    have begins : front ≤ low := by
      rw [whole]
      by_cases ends : rest = []
      · rw [ends, List.append_nil]
      · exact le_of_lt (lt_append front ends)
    rw [groupName_front cut_low]
    cases cut_high : cut high with
    | none =>
      rw [groupName_text cut_high, Prod.Lex.toLex_le_toLex]
      exact .inl (lt_of_le_of_lt begins ordered)
    | some parts =>
      obtain ⟨front', rest'⟩ := parts
      rw [groupName_front cut_high, Prod.Lex.toLex_le_toLex]
      have whole' := grouping.whole cut_high
      subst whole'
      rcases lt_trichotomy front front' with before | same | after
      · exact .inl before
      · exact .inr ⟨same, le_refl _⟩
      · obtain ⟨other, also⟩ :=
          grouping.between cut_high (lt_of_lt_of_le after begins) ordered
        rw [cut_low] at also
        simp only [Option.some.injEq, Prod.mk.injEq] at also
        exact .inr ⟨also.1, le_refl _⟩

end Texts

section Walks
variable {ρ ο : Type} [LinearOrder ο] {rank : ρ → ο} {rows : List ρ}

theorem ascending_unique {xs ys : List ρ} (xs_ascend : xs.Pairwise fun a b => rank a < rank b)
    (ys_ascend : ys.Pairwise fun a b => rank a < rank b) (same : ∀ a, a ∈ xs ↔ a ∈ ys) :
    xs = ys := by
  have apart {zs : List ρ} (ascend : zs.Pairwise fun a b => rank a < rank b) : zs.Nodup := by
    refine ascend.imp ?_
    rintro a b below rfl
    exact lt_irrefl _ below
  have perm := (List.perm_ext_iff_of_nodup (apart xs_ascend) (apart ys_ascend)).mpr same
  exact perm.eq_of_pairwise (fun a b _ _ below above => absurd (below.trans above) (lt_irrefl _))
    xs_ascend ys_ascend

variable [DecidableEq ρ]

omit [LinearOrder ο] in
theorem mem_destutter' (a b : ρ) (xs : List ρ) :
    b ∈ xs.destutter' (· ≠ ·) a ↔ b = a ∨ b ∈ xs := by
  induction xs generalizing a with
  | nil => simp
  | cons c xs ih =>
    by_cases same : a = c
    · subst same
      rw [List.destutter'_cons_neg _ (by simp), ih]
      simp
    · rw [List.destutter'_cons_pos _ same, List.mem_cons, ih]
      simp

omit [LinearOrder ο] in
theorem mem_destutter (b : ρ) (xs : List ρ) : b ∈ xs.destutter (· ≠ ·) ↔ b ∈ xs := by
  cases xs with
  | nil => simp
  | cons a xs => rw [List.destutter_cons', mem_destutter', List.mem_cons]

theorem destutter_ascending (injective : Function.Injective rank)
    (sorted : rows.Pairwise fun a b => rank a ≤ rank b) :
    (rows.destutter (· ≠ ·)).Pairwise fun a b => rank a < rank b := by
  have weak := sorted.sublist (List.destutter_sublist (· ≠ ·) rows)
  have differ := List.isChain_destutter (· ≠ ·) rows
  have steps : (rows.destutter (· ≠ ·)).IsChain fun a b => rank a < rank b := by
    rw [List.isChain_iff_getElem] at differ ⊢
    intro i inside
    have below := List.pairwise_iff_getElem.mp weak i (i + 1) (by omega) inside (by omega)
    exact lt_of_le_of_ne below fun same => differ i inside (injective same)
  have : Trans (fun a b => rank a < rank b) (fun a b => rank a < rank b)
      (fun a b => rank a < rank b) := ⟨fun first second => lt_trans first second⟩
  exact steps.pairwise

theorem destutter_filter (injective : Function.Injective rank)
    (sorted : rows.Pairwise fun a b => rank a ≤ rank b) (p : ρ → Bool) :
    (rows.filter p).destutter (· ≠ ·) = (rows.destutter (· ≠ ·)).filter p := by
  apply ascending_unique (destutter_ascending injective (sorted.filter p))
    ((destutter_ascending injective sorted).filter p)
  intro a
  simp only [mem_destutter, List.mem_filter]

omit [DecidableEq ρ] in
theorem filter_above (ascending : rows.Pairwise fun a b => rank a < rank b) {i : Nat} {row : ρ}
    (here : rows[i]? = some row) :
    rows.filter (fun other => decide (rank row < rank other)) = rows.drop (i + 1) := by
  obtain ⟨inside, rfl⟩ := List.getElem?_eq_some_iff.mp here
  have split := List.take_append_drop (i + 1) rows
  have before : (rows.take (i + 1)).filter
      (fun other => decide (rank rows[i] < rank other)) = [] := by
    rw [List.filter_eq_nil_iff]
    intro other listed
    obtain ⟨j, below, rfl⟩ := List.mem_iff_getElem.mp listed
    rw [List.length_take] at below
    rw [List.getElem_take, decide_eq_true_eq, not_lt]
    rcases Nat.lt_or_eq_of_le (show j ≤ i by omega) with earlier | same
    · exact le_of_lt (List.pairwise_iff_getElem.mp ascending j i (by omega) inside earlier)
    · subst same
      exact le_refl _
  have after : (rows.drop (i + 1)).filter
      (fun other => decide (rank rows[i] < rank other)) = rows.drop (i + 1) := by
    rw [List.filter_eq_self]
    intro other listed
    obtain ⟨j, below, rfl⟩ := List.mem_iff_getElem.mp listed
    rw [List.length_drop] at below
    rw [List.getElem_drop, decide_eq_true_eq]
    exact List.pairwise_iff_getElem.mp ascending i (i + 1 + j) inside (by omega) (by omega)
  have joined := congrArg (List.filter fun other => decide (rank rows[i] < rank other)) split
  rw [List.filter_append, before, after, List.nil_append] at joined
  exact joined.symm

end Walks

end SortedGroups
