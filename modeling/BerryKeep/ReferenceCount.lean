import Mathlib.Data.List.Count
import Mathlib.Logic.Function.Basic

/-!
Reference counts. Somewhere references to keys are kept, and beside them a
count per key, present only while there is a reference. `Exact` relates the
two; taking a reference raises the count or creates it, releasing one lowers
it or drops it with the last. The rules below say what a step owes to the
other side, so that a program may change references and counts in any order.
-/
namespace ReferenceCount
variable {κ : Type} [DecidableEq κ] {held : κ → Option Nat} {refs : κ → Nat}

def one (k : κ) : κ → Nat := fun j => if j = k then 1 else 0

@[simp] theorem one_self (k : κ) : one k k = 1 := if_pos rfl

theorem one_other {j k : κ} (ne : j ≠ k) : one k j = 0 := if_neg ne

theorem count_cons_one (k j : κ) (ks : List κ) : (k :: ks).count j = ks.count j + one k j := by
  by_cases same : j = k
  · subst same
    rw [List.count_cons_self, one_self]
  · rw [List.count_cons_of_ne (Ne.symm same), one_other same, Nat.add_zero]

def Exact (held : κ → Option Nat) (refs : κ → Nat) : Prop :=
  ∀ k, held k = if refs k = 0 then none else some (refs k)

def acquire (held : κ → Option Nat) (k : κ) : κ → Option Nat :=
  Function.update held k (some ((held k).getD 0 + 1))

/-- The count after one release, as the released row decides it. -/
def lowered : Option Nat → Option Nat
  | none => none
  | some count => if 1 < count then some (count - 1) else none

def release (held : κ → Option Nat) (k : κ) : κ → Option Nat :=
  Function.update held k (lowered (held k))

omit [DecidableEq κ] in
theorem Exact.congr {others : κ → Nat} (exact : Exact held refs) (same : ∀ k, refs k = others k) :
    Exact held others := by
  intro k
  rw [exact k, same k]

variable {k : κ}

omit [DecidableEq κ] in
theorem Exact.count (exact : Exact held refs) {count : Nat} (found : held k = some count) :
    count = refs k ∧ 0 < refs k := by
  rw [exact k] at found
  split at found
  · cases found
  · cases found
    exact ⟨rfl, by omega⟩

omit [DecidableEq κ] in
theorem Exact.absent (exact : Exact held refs) (missing : held k = none) : refs k = 0 := by
  rw [exact k] at missing
  split at missing
  · assumption
  · cases missing

omit [DecidableEq κ] in
theorem Exact.present (exact : Exact held refs) (used : 0 < refs k) :
    held k = some (refs k) := by
  rw [exact k, if_neg (by omega)]

theorem Exact.acquire (exact : Exact held refs) (k : κ) :
    Exact (acquire held k) (fun j => refs j + one k j) := by
  intro j
  unfold ReferenceCount.acquire
  beta_reduce
  by_cases same : j = k
  · subst same
    rw [Function.update_self, one_self, if_neg (by omega), exact j]
    split
    · next unused => rw [unused]; rfl
    · rfl
  · rw [Function.update_of_ne same, one_other same, Nat.add_zero]
    exact exact j

theorem Exact.release (exact : Exact held (fun j => refs j + one k j)) :
    Exact (release held k) refs := by
  intro j
  unfold ReferenceCount.release
  by_cases same : j = k
  · subst same
    have here := exact j
    beta_reduce at here
    rw [one_self, if_neg (by omega)] at here
    rw [Function.update_self, here]
    simp only [lowered]
    split
    · next more => rw [if_neg (by omega), Nat.add_sub_cancel]
    · next last => rw [if_pos (by omega)]
  · rw [Function.update_of_ne same, exact j]
    beta_reduce
    rw [one_other same, Nat.add_zero]

theorem Exact.acquireAll (ks : List κ) : ∀ {held : κ → Option Nat} {refs : κ → Nat},
    Exact held refs → Exact (ks.foldl ReferenceCount.acquire held) (fun j => refs j + ks.count j) := by
  induction ks with
  | nil =>
    intro held refs exact
    exact exact.congr fun k => by simp
  | cons k ks ih =>
    intro held refs exact
    refine (ih (exact.acquire k)).congr fun j => ?_
    rw [count_cons_one]
    omega

theorem Exact.releaseAll (ks : List κ) : ∀ {held : κ → Option Nat} {refs : κ → Nat},
    Exact held (fun j => refs j + ks.count j) →
      Exact (ks.foldl ReferenceCount.release held) refs := by
  induction ks with
  | nil =>
    intro held refs exact
    exact exact.congr fun k => by simp
  | cons k ks ih =>
    intro held refs exact
    apply ih
    apply Exact.release
    refine exact.congr fun j => ?_
    rw [count_cons_one]
    omega

end ReferenceCount
