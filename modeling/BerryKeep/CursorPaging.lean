import Mathlib.Data.List.Nodup
import Mathlib.Order.Lattice

/-!
Reading a list page by page with a cursor on a key. A page is what the list has
below the cursor, cut to the page size, and a full page hands on the key of its
last row. The list may be ordered by something other than the key. Following the
cursor always ends, and it returns the list itself exactly if the key agrees with
the order of the list wherever a page ends.
-/
namespace CursorPaging
variable {α κ : Type} [LinearOrder κ]

def follow (fetch : Option κ → List α × Option κ) : Nat → Option κ → Option (List α)
  | 0, _ => none
  | fuel + 1, cursor =>
    match (fetch cursor).2 with
    | none => some (fetch cursor).1
    | some bound => (follow fetch fuel (some bound)).map ((fetch cursor).1 ++ ·)

variable (key : α → κ) (size : Nat)

def admits (cursor : Option κ) (row : α) : Bool := cursor.all fun bound => decide (key row < bound)

def nextCursor (records : List α) : Option κ :=
  if size ≤ records.length then records.getLast?.map key else none

def fetchPage (rows : List α) (cursor : Option κ) : List α × Option κ :=
  let records := (rows.filter (admits key cursor)).take size
  (records, nextCursor key size records)

/-- Wherever a page ends, the rows up to there have keys from the last one on, and the
    rows after it have smaller keys. -/
def Aligned (rows : List α) : Prop :=
  ∀ done rest last, rows = done ++ rest → size ∣ done.length → done.getLast? = some last →
    (∀ row ∈ done, key last ≤ key row) ∧ ∀ row ∈ rest, key row < key last

section Follow
variable {key size} {rows : List α}

theorem aligned_short (short : rows.length < size) : Aligned key size rows := by
  intro done rest last shape divides ends
  have filled := List.length_pos_of_mem (List.mem_of_getLast? ends)
  have least := Nat.le_of_dvd filled divides
  have total := congrArg List.length shape
  rw [List.length_append] at total
  omega

variable {last : α}

theorem aligned_step {front rest : List α} (full : front.length = size)
    (ends : front.getLast? = some last) :
    Aligned key size (front ++ rest) ↔
      (∀ row ∈ front, key last ≤ key row) ∧ (∀ row ∈ rest, key row < key last) ∧
        Aligned key size rest := by
  constructor
  · intro aligned
    obtain ⟨before, after⟩ := aligned front rest last rfl (full ▸ Nat.dvd_refl _) ends
    refine ⟨before, after, ?_⟩
    intro done tail final shape divides final_ends
    have longer : size ∣ (front ++ done).length := by
      rw [List.length_append, full]
      exact (Nat.dvd_add_right (Nat.dvd_refl size)).mpr divides
    have filled : done ≠ [] := by
      intro empty
      rw [empty] at final_ends
      cases final_ends
    obtain ⟨upto, beyond⟩ := aligned (front ++ done) tail final (by rw [shape, List.append_assoc])
      longer (by rw [List.getLast?_append_of_ne_nil _ filled, final_ends])
    exact ⟨fun row listed => upto row (List.mem_append_right _ listed), beyond⟩
  · rintro ⟨before, after, aligned⟩ done tail final shape divides final_ends
    have filled := List.length_pos_of_mem (List.mem_of_getLast? final_ends)
    have least := Nat.le_of_dvd filled divides
    obtain ⟨more, rfl⟩ : ∃ more, done = front ++ more := by
      have first : front <+: done ++ tail := ⟨rest, shape⟩
      obtain ⟨more, same⟩ := List.prefix_of_prefix_length_le first (List.prefix_append done tail)
        (by omega)
      exact ⟨more, same.symm⟩
    rw [List.append_assoc, List.append_cancel_left_eq] at shape
    cases more with
    | nil =>
      rw [List.append_nil, ends] at final_ends
      cases final_ends
      rw [List.append_nil]
      rw [List.nil_append] at shape
      exact ⟨before, fun row listed => after row (shape ▸ listed)⟩
    | cons row more =>
      rw [List.length_append, full] at divides
      have later : size ∣ (row :: more).length :=
        (Nat.dvd_add_right (Nat.dvd_refl size)).mp divides
      rw [List.getLast?_append_of_ne_nil _ (by simp)] at final_ends
      obtain ⟨upto, beyond⟩ := aligned (row :: more) tail final shape later final_ends
      have final_listed : final ∈ rest := by
        rw [shape]
        exact List.mem_append_left _ (List.mem_of_getLast? final_ends)
      refine ⟨?_, beyond⟩
      intro other listed
      rcases List.mem_append.mp listed with earlier | here
      · exact le_of_lt (lt_of_lt_of_le (after final final_listed) (before other earlier))
      · exact upto other here

variable {cursor : Option κ}

theorem filter_narrow (listed : last ∈ rows.filter (admits key cursor)) :
    rows.filter (admits key (some (key last))) =
      (rows.filter (admits key cursor)).filter (admits key (some (key last))) := by
  have admitted := (List.mem_filter.mp listed).2
  rw [List.filter_filter]
  apply List.filter_congr
  intro row _
  cases cursor with
  | none => simp [admits]
  | some bound =>
    simp only [admits, Option.all_some, decide_eq_true_eq] at admitted ⊢
    by_cases below : key row < key last
    · simp [below, lt_trans below admitted]
    · simp [below]

theorem fetchPage_short
    (short : (rows.filter (admits key cursor)).length < size) :
    fetchPage key size rows cursor = (rows.filter (admits key cursor), none) := by
  have whole : (rows.filter (admits key cursor)).take size = rows.filter (admits key cursor) :=
    List.take_of_length_le (by omega)
  unfold fetchPage nextCursor
  dsimp only
  rw [whole, if_neg (by omega)]

theorem fetchPage_full (positive : 0 < size)
    (full : size ≤ (rows.filter (admits key cursor)).length) :
    ∃ front rest last, rows.filter (admits key cursor) = front ++ rest ∧ front.length = size ∧
      front.getLast? = some last ∧
        fetchPage key size rows cursor = (front, some (key last)) := by
  have length : ((rows.filter (admits key cursor)).take size).length = size := by
    rw [List.length_take]
    omega
  cases ends : ((rows.filter (admits key cursor)).take size).getLast? with
  | none =>
    rw [List.getLast?_eq_none_iff.mp ends] at length
    simp only [List.length_nil] at length
    omega
  | some last =>
    refine ⟨_, _, last, (List.take_append_drop size _).symm, length, ends, ?_⟩
    unfold fetchPage nextCursor
    dsimp only
    rw [if_pos (by omega), ends]
    rfl

theorem admitted_fewer {front rest : List α}
    (shape : rows.filter (admits key cursor) = front ++ rest) (ends : front.getLast? = some last) :
    last ∈ rows.filter (admits key cursor) ∧
      (rows.filter (admits key (some (key last)))).length <
        (rows.filter (admits key cursor)).length := by
  have listed : last ∈ rows.filter (admits key cursor) := by
    rw [shape]
    exact List.mem_append_left _ (List.mem_of_getLast? ends)
  refine ⟨listed, ?_⟩
  rw [filter_narrow listed]
  apply List.length_filter_lt_length_iff_exists.mpr
  exact ⟨last, listed, by simp [admits]⟩

theorem follow_returns (positive : 0 < size) (fuel : Nat) : ∀ cursor : Option κ,
    (rows.filter (admits key cursor)).length < fuel →
      ∃ out, follow (fetchPage key size rows) fuel cursor = some out ∧
        (∀ row ∈ out, row ∈ rows.filter (admits key cursor)) ∧
        out.head? = (rows.filter (admits key cursor)).head? := by
  induction fuel with
  | zero =>
    intro cursor enough
    omega
  | succ fuel ih =>
    intro cursor enough
    by_cases full : size ≤ (rows.filter (admits key cursor)).length
    · obtain ⟨front, rest, last, shape, length, ends, fetched⟩ := fetchPage_full positive full
      obtain ⟨listed, fewer⟩ := admitted_fewer shape ends
      obtain ⟨out, returned, within, _⟩ := ih (some (key last)) (by omega)
      refine ⟨front ++ out, ?_, ?_, ?_⟩
      · rw [follow, fetched]
        simp [returned]
      · intro row member
        rcases List.mem_append.mp member with here | later
        · rw [shape]
          exact List.mem_append_left _ here
        · have narrowed := within row later
          rw [filter_narrow listed] at narrowed
          exact (List.mem_filter.mp narrowed).1
      · have filled : front ≠ [] := List.ne_nil_of_length_pos (by omega)
        rw [shape, List.head?_append_of_ne_nil _ filled, List.head?_append_of_ne_nil _ filled]
    · rw [follow, fetchPage_short (by omega)]
      exact ⟨_, rfl, fun _ listed => listed, rfl⟩

theorem follow_exact_iff (positive : 0 < size) (nodup : rows.Nodup) (fuel : Nat) :
    ∀ cursor : Option κ, (rows.filter (admits key cursor)).length < fuel →
      (follow (fetchPage key size rows) fuel cursor = some (rows.filter (admits key cursor)) ↔
        Aligned key size (rows.filter (admits key cursor))) := by
  induction fuel with
  | zero =>
    intro cursor enough
    omega
  | succ fuel ih =>
    intro cursor enough
    by_cases full : size ≤ (rows.filter (admits key cursor)).length
    · obtain ⟨front, rest, last, shape, length, ends, fetched⟩ := fetchPage_full positive full
      obtain ⟨listed, fewer⟩ := admitted_fewer shape ends
      have later := ih (some (key last)) (by omega)
      obtain ⟨out, returned, within, first⟩ :=
        @follow_returns α κ _ key size rows positive fuel (some (key last)) (by omega)
      have narrow := filter_narrow listed
      have apart : ∀ row ∈ front, row ∉ rest := by
        have whole := nodup.filter (admits key cursor)
        rw [shape] at whole
        intro row here there
        exact (List.nodup_append.mp whole).2.2 row here row there rfl
      rw [shape, List.filter_append] at narrow
      rw [follow, fetched, shape, aligned_step length ends]
      simp only [returned, Option.map_some, Option.some.injEq, List.append_cancel_left_eq]
      constructor
      · -- The rest of the run is the rest of the list, so nothing of it was cut off by the
        -- cursor, and nothing of the page comes back, as it would come first.
        intro same
        subst same
        have below : ∀ row ∈ out, key row < key last := by
          intro row member
          have admitted := (List.mem_filter.mp (within row member)).2
          exact of_decide_eq_true admitted
        have all : out.filter (admits key (some (key last))) = out := by
          rw [List.filter_eq_self]
          intro row member
          exact decide_eq_true (below row member)
        have none_back : front.filter (admits key (some (key last))) = [] := by
          cases back : front.filter (admits key (some (key last))) with
          | nil => rfl
          | cons row more =>
            rw [narrow, back, all] at first
            have member : row ∈ front.filter (admits key (some (key last))) := by
              rw [back]
              exact List.mem_cons_self
            exact absurd (List.mem_of_head? first) (apart row (List.mem_filter.mp member).1)
        rw [none_back, all, List.nil_append] at narrow
        rw [narrow, returned] at later
        refine ⟨?_, below, later.mp rfl⟩
        intro row member
        by_contra smaller
        have kept : row ∈ front.filter (admits key (some (key last))) :=
          List.mem_filter.mpr ⟨member, decide_eq_true (not_le.mp smaller)⟩
        rw [none_back] at kept
        cases kept
      · rintro ⟨before, after, aligned⟩
        have none_back : front.filter (admits key (some (key last))) = [] := by
          rw [List.filter_eq_nil_iff]
          intro row member
          simp only [admits, Option.all_some, decide_eq_true_eq]
          exact not_lt.mpr (before row member)
        have all : rest.filter (admits key (some (key last))) = rest := by
          rw [List.filter_eq_self]
          intro row member
          exact decide_eq_true (after row member)
        rw [none_back, all, List.nil_append] at narrow
        rw [narrow, returned] at later
        exact Option.some.inj (later.mpr aligned)
    · rw [follow, fetchPage_short (by omega)]
      exact iff_of_true rfl (aligned_short (by omega))

theorem follow_all (positive : 0 < size) (nodup : rows.Nodup) {fuel : Nat}
    (enough : rows.length < fuel) :
    (∃ out, follow (fetchPage key size rows) fuel none = some out) ∧
      (follow (fetchPage key size rows) fuel none = some rows ↔ Aligned key size rows) := by
  have whole : rows.filter (admits key none) = rows := by
    rw [List.filter_eq_self]
    intro row _
    rfl
  have fits : (rows.filter (admits key none)).length < fuel := by rwa [whole]
  obtain ⟨out, returned, _⟩ := follow_returns positive fuel none fits
  have exact_iff := follow_exact_iff positive nodup fuel none fits
  rw [whole] at exact_iff
  exact ⟨⟨out, returned⟩, exact_iff⟩

end Follow

section Pages
variable {ρ γ : Type}

def followPages (fetch : γ → Option (List ρ × Option γ)) : Nat → γ → Option (List (List ρ))
  | 0, _ => none
  | fuel + 1, place =>
    (fetch place).bind fun page => match page.2 with
      | none => some [page.1]
      | some next => (followPages fetch fuel next).map (page.1 :: ·)

/-- From every place that stands for a position the fetch cuts the next rows off the list, and
    the place it hands on stands for the position after them. -/
structure Cuts (fetch : γ → Option (List ρ × Option γ)) (rows : List ρ) (size : Nat)
    (At : γ → Nat → Prop) : Prop where
  last : ∀ place i, At place i → rows.length ≤ i + size → fetch place = some (rows.drop i, none)
  more : ∀ place i, At place i → i + size < rows.length →
    ∃ next, fetch place = some ((rows.drop i).take size, some next) ∧ At next (i + size)

variable {fetch : γ → Option (List ρ × Option γ)} {rows : List ρ} {size : Nat}
  {At : γ → Nat → Prop}

theorem followPages_cuts (positive : 0 < size) (cuts : Cuts fetch rows size At) (fuel : Nat) :
    ∀ place i, At place i → rows.length - i < fuel →
      ∃ pages, followPages fetch fuel place = some pages ∧ pages.flatten = rows.drop i ∧
        ∀ page ∈ pages.dropLast, page.length = size := by
  induction fuel with
  | zero =>
    intro place i _ enough
    omega
  | succ fuel ih =>
    intro place i here enough
    by_cases ends : rows.length ≤ i + size
    · refine ⟨[rows.drop i], ?_, by simp, by simp⟩
      rw [followPages, cuts.last place i here ends]
      rfl
    · obtain ⟨next, fetched, there⟩ := cuts.more place i here (by omega)
      obtain ⟨pages, followed, whole, full⟩ := ih next (i + size) there (by omega)
      have filled : pages ≠ [] := by
        intro empty
        rw [empty, List.flatten_nil] at whole
        have length := congrArg List.length whole
        simp only [List.length_nil, List.length_drop] at length
        omega
      refine ⟨(rows.drop i).take size :: pages, ?_, ?_, ?_⟩
      · rw [followPages, fetched]
        simp [followed]
      · rw [List.flatten_cons, whole, ← List.drop_drop, List.take_append_drop]
      · intro page listed
        rw [List.dropLast_cons_of_ne_nil filled, List.mem_cons] at listed
        rcases listed with rfl | later
        · rw [List.length_take, List.length_drop]
          omega
        · exact full page later

end Pages

end CursorPaging
