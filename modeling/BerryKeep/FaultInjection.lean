import BerryKeep.StatefulProgram

/-!
Programs whose effects may fail or be cut off by a crash. Every effect is
all-or-nothing: it is applied, it is refused and reports an error, or the
process stops right before or right after it. A fault plan lists what happens
to the effects in order, and a plan that has run out leaves the rest alone.
-/
namespace FaultInjection
open StatefulProgram
variable {σ ε α : Type}

inductive Fault where
  | none
  | refused
  | crashBefore
  | crashAfter
  deriving DecidableEq, Repr

inductive Stop (ε : Type) where
  | failed (error : ε)
  | crashed
  deriving DecidableEq, Repr

structure Faulty (σ : Type) where
  state : σ
  plan : List Fault

abbrev FaultyProgram (σ ε α : Type) := Program (Faulty σ) (Stop ε) α

def effect (error : ε) (write : σ → σ) : FaultyProgram σ ε Unit :=
  ⟨fun s => match s.plan with
    | [] => (.ok (), ⟨write s.state, []⟩)
    | .none :: plan => (.ok (), ⟨write s.state, plan⟩)
    | .refused :: plan => (.error (.failed error), ⟨s.state, plan⟩)
    | .crashBefore :: plan => (.error .crashed, ⟨s.state, plan⟩)
    | .crashAfter :: plan => (.error .crashed, ⟨write s.state, plan⟩)⟩

/-- Runs a program and hands its error to the caller; a crash is not an error. -/
def attempt (m : FaultyProgram σ ε Unit) : FaultyProgram σ ε (Option ε) :=
  ⟨fun s => match m.run s with
    | (.ok (), t) => (.ok none, t)
    | (.error (.failed error), t) => (.ok (some error), t)
    | (.error .crashed, t) => (.error .crashed, t)⟩

theorem effect_cases (error : ε) (write : σ → σ) (s : Faulty σ) :
    (∃ plan, (effect error write).run s = (.ok (), ⟨write s.state, plan⟩)) ∨
    (∃ plan, (effect error write).run s = (.error (.failed error), ⟨s.state, plan⟩)) ∨
    (∃ t plan, (effect error write).run s = (.error .crashed, ⟨t, plan⟩) ∧
      (t = s.state ∨ t = write s.state)) := by
  obtain ⟨state, plan⟩ := s
  cases plan with
  | nil => exact .inl ⟨_, rfl⟩
  | cons fault plan =>
    cases fault with
    | none => exact .inl ⟨_, rfl⟩
    | refused => exact .inr (.inl ⟨_, rfl⟩)
    | crashBefore => exact .inr (.inr ⟨_, _, rfl, .inl rfl⟩)
    | crashAfter => exact .inr (.inr ⟨_, _, rfl, .inr rfl⟩)

variable {s : Faulty σ}

variable {write : σ → σ} {error : ε}

/-- An effect followed by the rest of a program: the rest runs from the written
    state, or the program ends with the effect applied or not. -/
theorem effect_bind_end {next : Unit → FaultyProgram σ ε α}
    {P : σ → Prop} (before : P s.state) (after : P (write s.state))
    (rest : ∀ plan, P (((next ()).run ⟨write s.state, plan⟩).2.state)) :
    P ((effect error write >>= next).run s).2.state := by
  rcases effect_cases error write s with ⟨plan, run⟩ | ⟨plan, run⟩ | ⟨t, plan, run, cut⟩
  · rw [bind_run_ok run]; exact rest plan
  · rw [bind_run_error run]; exact before
  · rw [bind_run_error run]
    rcases cut with rfl | rfl
    · exact before
    · exact after

theorem attempt_bind_end {next : Option ε → FaultyProgram σ ε α}
    {P : σ → Prop} (before : P s.state) (after : P (write s.state))
    (applied : ∀ plan, P (((next none).run ⟨write s.state, plan⟩).2.state))
    (refused : ∀ plan, P (((next (some error)).run ⟨s.state, plan⟩).2.state)) :
    P ((attempt (effect error write) >>= next).run s).2.state := by
  rcases effect_cases error write s with ⟨plan, run⟩ | ⟨plan, run⟩ | ⟨t, plan, run, cut⟩
  · have caught : (attempt (effect error write)).run s = (.ok none, ⟨write s.state, plan⟩) := by
      simp [attempt, run]
    rw [bind_run_ok caught]; exact applied plan
  · have caught : (attempt (effect error write)).run s = (.ok (some error), ⟨s.state, plan⟩) := by
      simp [attempt, run]
    rw [bind_run_ok caught]; exact refused plan
  · have caught : (attempt (effect error write)).run s = (.error .crashed, ⟨t, plan⟩) := by
      simp [attempt, run]
    rw [bind_run_error caught]
    rcases cut with rfl | rfl
    · exact before
    · exact after

def Calm (s : Faulty σ) : Prop := ∀ fault ∈ s.plan, fault = .none

theorem effect_calm (error : ε) (write : σ → σ) (calm : Calm s) :
    ∃ t, (effect error write).run s = (.ok (), t) ∧ t.state = write s.state ∧ Calm t := by
  obtain ⟨state, plan⟩ := s
  cases plan with
  | nil => exact ⟨_, rfl, rfl, calm⟩
  | cons fault plan =>
    obtain rfl : fault = .none := calm fault List.mem_cons_self
    exact ⟨_, rfl, rfl, fun later listed => calm later (List.mem_cons_of_mem _ listed)⟩

theorem ensures_effect
    {Q : Except (Stop ε) Unit → Faulty σ → Prop} (done : ∀ plan, Q (.ok ()) ⟨write s.state, plan⟩)
    (refused : ∀ plan, Q (.error (.failed error)) ⟨s.state, plan⟩)
    (crashed : ∀ t plan, t = s.state ∨ t = write s.state → Q (.error .crashed) ⟨t, plan⟩) :
    Ensures (effect error write) s Q := by
  rcases effect_cases error write s with ⟨plan, run⟩ | ⟨plan, run⟩ | ⟨t, plan, run, cut⟩
  · exact ensures_of_run run (done plan)
  · exact ensures_of_run run (refused plan)
  · exact ensures_of_run run (crashed t plan cut)

theorem ensures_attempt {m : FaultyProgram σ ε Unit}
    {P : Except (Stop ε) Unit → Faulty σ → Prop} {Q : Except (Stop ε) (Option ε) → Faulty σ → Prop}
    (inner : Ensures m s P) (done : ∀ t, P (.ok ()) t → Q (.ok none) t)
    (failed : ∀ error t, P (.error (.failed error)) t → Q (.ok (some error)) t)
    (crashed : ∀ t, P (.error .crashed) t → Q (.error .crashed) t) :
    Ensures (attempt m) s Q := by
  unfold Ensures at inner
  rcases run : m.run s with ⟨outcome, t⟩
  rw [run] at inner
  rcases outcome with (error | _) | _
  · exact ensures_of_run (by simp [attempt, run]) (failed error t inner)
  · exact ensures_of_run (by simp [attempt, run]) (crashed t inner)
  · exact ensures_of_run (by simp [attempt, run]) (done t inner)

end FaultInjection
