import Mathlib.Data.List.Induction
import Mathlib.Order.Defs.Unbundled

/-!
Programs over one mutable state that may stop early with an error. A program
that stops keeps the writes it made before it stopped, as a method that returns
early from the middle of its body does; an error is never a rollback.
`Keeps` bounds what a program may change, `Ensures` states what holds when it
ends, and a run is a list of commands executed one after the other.
-/
namespace StatefulProgram
variable {σ ε α β γ : Type}

structure Program (σ ε α : Type) where
  run : σ → Except ε α × σ

instance : Monad (Program σ ε) where
  pure a := ⟨fun s => (.ok a, s)⟩
  bind m f := ⟨fun s => match m.run s with
    | (.ok a, t) => (f a).run t
    | (.error e, t) => (.error e, t)⟩

instance : MonadStateOf σ (Program σ ε) where
  get := ⟨fun s => (.ok s, s)⟩
  set t := ⟨fun _ => (.ok (), t)⟩
  modifyGet f := ⟨fun s => (.ok (f s).1, (f s).2)⟩

instance : MonadExceptOf ε (Program σ ε) where
  throw e := ⟨fun s => (.error e, s)⟩
  tryCatch m handle := ⟨fun s => match m.run s with
    | (.ok a, t) => (.ok a, t)
    | (.error e, t) => (handle e).run t⟩

def lift (r : Except ε α) : Program σ ε α := ⟨fun s => (r, s)⟩

def onPart {τ : Type} (part : τ → σ) (update : τ → σ → τ) (m : Program σ ε α) : Program τ ε α :=
  ⟨fun t => ((m.run (part t)).1, update t (m.run (part t)).2)⟩

def onlyIf (b : Bool) (m : Program σ ε Unit) : Program σ ε Unit := if b then m else pure ()

def refuseIf (c : Prop) [Decidable c] (e : ε) : Program σ ε Unit := if c then throw e else pure ()

def forEach : List α → (α → Program σ ε Unit) → Program σ ε Unit
  | [], _ => pure ()
  | a :: as, f => f a >>= fun _ => forEach as f

def foldEach : List α → β → (β → α → Program σ ε β) → Program σ ε β
  | [], b, _ => pure b
  | a :: as, b, f => f b a >>= fun b' => foldEach as b' f

@[simp] theorem pure_run (a : α) (s : σ) : (pure a : Program σ ε α).run s = (.ok a, s) := rfl

@[simp] theorem get_run (s : σ) : (get : Program σ ε σ).run s = (.ok s, s) := rfl

@[simp] theorem set_run (s t : σ) : (set t : Program σ ε PUnit).run s = (.ok (), t) := rfl

@[simp] theorem modify_run (f : σ → σ) (s : σ) :
    (modify f : Program σ ε PUnit).run s = (.ok (), f s) := rfl

@[simp] theorem throw_run (e : ε) (s : σ) :
    (throw e : Program σ ε α).run s = (.error e, s) := rfl

@[simp] theorem lift_run (r : Except ε α) (s : σ) : (lift r : Program σ ε α).run s = (r, s) := rfl

theorem bind_run (m : Program σ ε α) (f : α → Program σ ε β) (s : σ) :
    (m >>= f).run s = match m.run s with
      | (.ok a, t) => (f a).run t
      | (.error e, t) => (.error e, t) := rfl

theorem tryCatch_run (m : Program σ ε α) (handle : ε → Program σ ε α) (s : σ) :
    (tryCatch m handle).run s = match m.run s with
      | (.ok a, t) => (.ok a, t)
      | (.error e, t) => (handle e).run t := rfl

variable {m : Program σ ε α} {f : α → Program σ ε β} {a : α}

theorem bind_run_ok {s t : σ}
    (first : m.run s = (.ok a, t)) : (m >>= f).run s = (f a).run t := by
  rw [bind_run, first]

theorem bind_run_error {s t : σ} {e : ε}
    (first : m.run s = (.error e, t)) : (m >>= f).run s = (.error e, t) := by
  rw [bind_run, first]

theorem forEach_append (f : α → Program σ ε Unit) (as bs : List α) :
    forEach (as ++ bs) f = forEach as f >>= fun _ => forEach bs f := by
  induction as with
  | nil => rfl
  | cons a as ih =>
    change (f a >>= fun _ => forEach (as ++ bs) f) =
      (f a >>= fun _ => forEach as f) >>= fun _ => forEach bs f
    rw [ih]
    refine congrArg Program.mk (funext fun s => ?_)
    simp only [bind_run]
    rcases (f a).run s with ⟨r, t⟩
    cases r with
    | error e => rfl
    | ok u => rfl

theorem forEach_lift_ok {f : α → Except ε Unit} (as : List α) (passes : ∀ a ∈ as, f a = .ok ())
    (s : σ) : (forEach as fun a => (lift (f a) : Program σ ε Unit)).run s = (.ok (), s) := by
  induction as with
  | nil => rfl
  | cons a as ih =>
    have first : (lift (f a) : Program σ ε Unit).run s = (.ok (), s) := by
      rw [lift_run, passes a List.mem_cons_self]
    rw [forEach, bind_run_ok first]
    exact ih fun b listed => passes b (List.mem_cons_of_mem a listed)

theorem forEach_modify_ok {f : α → σ → σ} (as : List α) (s : σ) :
    ∃ t, (forEach as fun a => (modify (f a) : Program σ ε PUnit)).run s = (.ok (), t) := by
  induction as generalizing s with
  | nil => exact ⟨s, rfl⟩
  | cons a as ih =>
    obtain ⟨t, run⟩ := ih (f a s)
    exact ⟨t, (bind_run_ok (modify_run (f a) s)).trans run⟩

theorem forEach_map (f : β → Program σ ε Unit) (g : α → β) (as : List α) :
    forEach (as.map g) f = forEach as fun a => f (g a) := by
  induction as with
  | nil => rfl
  | cons a as ih =>
    rw [List.map_cons, forEach, forEach, ih]

theorem except_bind_ok {x : Except ε α} {f : α → Except ε β} {r : β}
    (done : (x >>= f) = .ok r) : ∃ a, x = .ok a ∧ f a = .ok r := by
  cases x with
  | error e => cases done
  | ok a => exact ⟨a, rfl, done⟩

/-- The two-state bound: whatever the result, the end state is related to the start. -/
def Keeps (R : σ → σ → Prop) (m : Program σ ε α) : Prop := ∀ s, R s (m.run s).2

variable {R : σ → σ → Prop}

theorem keeps_pure (refl : ∀ s, R s s) (a : α) :
    Keeps R (pure a : Program σ ε α) := fun s => refl s

theorem keeps_get (refl : ∀ s, R s s) :
    Keeps R (get : Program σ ε σ) := fun s => refl s

theorem keeps_throw (refl : ∀ s, R s s) (e : ε) :
    Keeps R (throw e : Program σ ε α) := fun s => refl s

theorem keeps_lift (refl : ∀ s, R s s) (r : Except ε α) :
    Keeps R (lift r : Program σ ε α) := fun s => refl s

theorem keeps_bind (trans : ∀ a b c, R a b → R b c → R a c)
    (first : Keeps R m)
    (next : ∀ a, Keeps R (f a)) : Keeps R (m >>= f) := by
  intro s
  have before := first s
  rw [bind_run]
  rcases run : m.run s with ⟨r, t⟩
  rw [run] at before
  cases r with
  | error e => exact before
  | ok a => exact trans _ _ _ before (next a t)

variable {r : Except ε α}

theorem keeps_lift_bind (refl : ∀ s, R s s)
    (next : ∀ a, r = .ok a → Keeps R (f a)) : Keeps R (lift r >>= f) := by
  cases r with
  | error e => exact fun s => refl s
  | ok a => exact next a rfl

theorem keeps_tryCatch (trans : ∀ a b c, R a b → R b c → R a c)
    {handle : ε → Program σ ε α} (first : Keeps R m)
    (next : ∀ e, Keeps R (handle e)) : Keeps R (tryCatch m handle) := by
  intro s
  have before := first s
  rw [tryCatch_run]
  rcases run : m.run s with ⟨r, t⟩
  rw [run] at before
  cases r with
  | error e => exact trans _ _ _ before (next e t)
  | ok a => exact before

variable {b : Bool}

theorem keeps_onlyIf (refl : ∀ s, R s s)
    {m : Program σ ε Unit} (holds : Keeps R m) : Keeps R (onlyIf b m) := by
  cases b with
  | false => exact fun s => refl s
  | true => exact holds

theorem keeps_refuseIf (refl : ∀ s, R s s) (c : Prop) [Decidable c] (e : ε) :
    Keeps R (refuseIf c e : Program σ ε Unit) := by
  unfold refuseIf
  split
  · exact fun s => refl s
  · exact fun s => refl s

theorem keeps_forEach_mem (refl : ∀ s, R s s)
    (trans : ∀ a b c, R a b → R b c → R a c) {f : α → Program σ ε Unit} {as : List α}
    (each : ∀ a ∈ as, Keeps R (f a)) : Keeps R (forEach as f) := by
  induction as with
  | nil => exact fun s => refl s
  | cons a as ih =>
    refine keeps_bind trans (each a List.mem_cons_self) fun _ => ?_
    exact ih fun b member => each b (List.mem_cons_of_mem _ member)

theorem keeps_forEach (refl : ∀ s, R s s)
    (trans : ∀ a b c, R a b → R b c → R a c) {f : α → Program σ ε Unit}
    (each : ∀ a, Keeps R (f a)) (as : List α) : Keeps R (forEach as f) :=
  keeps_forEach_mem refl trans fun a _ => each a

theorem keeps_foldEach (refl : ∀ s, R s s)
    (trans : ∀ a b c, R a b → R b c → R a c) {f : β → α → Program σ ε β}
    (each : ∀ b a, Keeps R (f b a)) (as : List α) (b : β) : Keeps R (foldEach as b f) := by
  induction as generalizing b with
  | nil => exact fun s => refl s
  | cons a as ih => exact keeps_bind trans (each b a) fun b' => ih b'

variable {c : Prop}

theorem keeps_ite [Decidable c] {m n : Program σ ε α}
    (yes : Keeps R m) (no : Keeps R n) : Keeps R (if c then m else n) := by
  split
  · exact yes
  · exact no

/-- An invariant that holds at the start holds at the end, whatever the result. -/
def Preserves (I : σ → Prop) (m : Program σ ε α) : Prop := Keeps (fun s t => I s → I t) m

variable {I : σ → Prop}

theorem preserves_pure (a : α) : Preserves I (pure a : Program σ ε α) :=
  fun _ holds => holds

theorem preserves_get : Preserves I (get : Program σ ε σ) := fun _ holds => holds

theorem preserves_bind
    (first : Preserves I m) (next : ∀ a, Preserves I (f a)) : Preserves I (m >>= f) :=
  keeps_bind (fun _ _ _ before after holds => after (before holds)) first next

theorem preserves_onlyIf {m : Program σ ε Unit}
    (holds : b = true → Preserves I m) : Preserves I (onlyIf b m) := by
  cases b with
  | false => exact fun _ start => start
  | true => exact holds rfl

theorem preserves_ite [Decidable c] {m n : Program σ ε α}
    (yes : c → Preserves I m) (no : ¬c → Preserves I n) :
    Preserves I (if c then m else n) := by
  split
  · exact yes ‹_›
  · exact no ‹_›

theorem preserves_foldEach {f : β → α → Program σ ε β} {as : List α}
    (each : ∀ a ∈ as, ∀ b, Preserves I (f b a)) : ∀ b, Preserves I (foldEach as b f) := by
  induction as with
  | nil => exact fun b s holds => holds
  | cons a as ih =>
    intro b
    have rest := ih fun a member => each a (List.mem_cons_of_mem _ member)
    exact preserves_bind (each a List.mem_cons_self b) rest

def Returns (P : α → Prop) (m : Program σ ε α) : Prop := ∀ s a, (m.run s).1 = .ok a → P a

theorem returns_pure {P : α → Prop} (holds : P a) : Returns P (pure a : Program σ ε α) := by
  intro s b returned
  cases returned
  exact holds

theorem returns_bind {P : β → Prop}
    (next : ∀ a, Returns P (f a)) : Returns P (m >>= f) := by
  intro s b returned
  rw [bind_run] at returned
  rcases run : m.run s with ⟨r, t⟩
  rw [run] at returned
  cases r with
  | error e => cases returned
  | ok a => exact next a t b returned

def Ensures (m : Program σ ε α) (s : σ) (Q : Except ε α → σ → Prop) : Prop :=
  Q (m.run s).1 (m.run s).2

theorem ensures_of_run {s t : σ}
    {Q : Except ε α → σ → Prop} (run : m.run s = (r, t)) (post : Q r t) : Ensures m s Q := by
  unfold Ensures
  rw [run]
  exact post

variable {s : σ}

theorem ensures_mono {P Q : Except ε α → σ → Prop}
    (holds : Ensures m s P) (weaker : ∀ r t, P r t → Q r t) : Ensures m s Q :=
  weaker _ _ holds

theorem ensures_and {P Q : Except ε α → σ → Prop} (left : Ensures m s P) (right : Ensures m s Q) :
    Ensures m s fun r t => P r t ∧ Q r t :=
  And.intro left right

theorem ensures_when {C : Prop} {P : Except ε α → σ → Prop} (holds : C → Ensures m s P) :
    Ensures m s fun r t => C → P r t :=
  holds

variable {Q : Except ε β → σ → Prop}

/-- Sequencing: the continuation is discharged from what the first program ensures,
    and an error of the first program has to satisfy the final condition itself. -/
theorem ensures_bind
    {P : Except ε α → σ → Prop} (first : Ensures m s P)
    (next : ∀ a t, P (.ok a) t → Ensures (f a) t Q)
    (stopped : ∀ e t, P (.error e) t → Q (.error e) t) : Ensures (m >>= f) s Q := by
  unfold Ensures at first ⊢
  rw [bind_run]
  rcases run : m.run s with ⟨r, t⟩
  rw [run] at first
  cases r with
  | error e => exact stopped e t first
  | ok a => exact next a t first

theorem ensures_bind_ok {s t : σ}
    (first : m.run s = (.ok a, t)) (next : Ensures (f a) t Q) :
    Ensures (m >>= f) s Q := by
  unfold Ensures at next ⊢
  rw [bind_run_ok first]
  exact next

theorem ensures_map {g : α → β} {Q : σ → Prop}
    (holds : Q (m.run s).2) : Ensures (m >>= fun a => pure (g a)) s fun _ t => Q t := by
  unfold Ensures
  rw [bind_run]
  rcases run : m.run s with ⟨r, t⟩
  rw [run] at holds
  cases r with
  | error e => exact holds
  | ok a => exact holds

theorem ensures_bind_map {g : β → γ}
    {Q : σ → Prop} (holds : Ensures (m >>= f) s fun _ t => Q t) :
    Ensures (m >>= fun a => f a >>= fun b => pure (g b)) s fun _ t => Q t := by
  unfold Ensures at holds
  rw [bind_run] at holds
  rcases run : m.run s with ⟨r, t⟩
  rw [run] at holds
  cases r with
  | error e => exact ensures_of_run (bind_run_error run) holds
  | ok a => exact ensures_bind_ok run (ensures_map holds)

theorem ensures_after
    (first : Keeps R m)
    (next : ∀ a t, R s t → Ensures (f a) t Q) (stopped : ∀ e t, R s t → Q (.error e) t) :
    Ensures (m >>= f) s Q :=
  ensures_bind (P := fun _ t => R s t) (first s) next stopped

theorem ensures_get {f : σ → Program σ ε β}
    (next : Ensures (f s) s Q) : Ensures (get >>= f) s Q := next

theorem ensures_lift (failed : ∀ e, r = .error e → Q (.error e) s)
    (passed : ∀ a, r = .ok a → Ensures (f a) s Q) : Ensures (lift r >>= f) s Q := by
  cases r with
  | error e => exact failed e rfl
  | ok a => exact passed a rfl

theorem ensures_refuseIf [Decidable c] {e : ε} {f : Unit → Program σ ε β}
    (refused : c → Q (.error e) s)
    (passed : ¬c → Ensures (f ()) s Q) : Ensures (refuseIf c e >>= f) s Q := by
  unfold refuseIf
  split
  · exact refused ‹_›
  · exact passed ‹_›

theorem ensures_ite [Decidable c] {m n : Program σ ε α}
    {Q : Except ε α → σ → Prop} (yes : c → Ensures m s Q) (no : ¬c → Ensures n s Q) :
    Ensures (if c then m else n) s Q := by
  split
  · exact yes ‹_›
  · exact no ‹_›

def Completes (m : Program σ ε α) (s : σ) (Q : α → σ → Prop) : Prop :=
  ∃ a t, m.run s = (.ok a, t) ∧ Q a t

theorem completes_pure {Q : α → σ → Prop} (holds : Q a s) :
    Completes (pure a : Program σ ε α) s Q := ⟨a, s, rfl, holds⟩

theorem completes_mono {P Q : α → σ → Prop}
    (holds : Completes m s P) (weaker : ∀ a t, P a t → Q a t) : Completes m s Q := by
  obtain ⟨a, t, run, post⟩ := holds
  exact ⟨a, t, run, weaker a t post⟩

theorem completes_bind
    {P : α → σ → Prop} {Q : β → σ → Prop} (first : Completes m s P)
    (next : ∀ a t, P a t → Completes (f a) t Q) : Completes (m >>= f) s Q := by
  obtain ⟨a, t, run, between⟩ := first
  obtain ⟨b, u, rest, post⟩ := next a t between
  exact ⟨b, u, (bind_run_ok run).trans rest, post⟩

theorem completes_bind_ok {t : σ} {Q : β → σ → Prop} (first : m.run s = (.ok a, t))
    (next : Completes (f a) t Q) : Completes (m >>= f) s Q := by
  rw [Completes, bind_run_ok first]
  exact next

theorem completes_get {f : σ → Program σ ε β} {Q : β → σ → Prop}
    (next : Completes (f s) s Q) : Completes (get >>= f) s Q := next

theorem completes_onlyIf {m : Program σ ε Unit} {Q : Unit → σ → Prop}
    (runs : b = true → Completes m s Q) (skips : b = false → Q () s) :
    Completes (onlyIf b m) s Q := by
  cases b with
  | false => exact completes_pure (skips rfl)
  | true => exact runs rfl

theorem completes_foldEach {f : β → α → Program σ ε β} (I : List α → β → σ → Prop) :
    ∀ (as done : List α) (b : β) (s : σ),
      (∀ before a after b s, done ++ as = before ++ a :: after → I before b s →
        Completes (f b a) s (I (before ++ [a]))) →
      I done b s → Completes (foldEach as b f) s (I (done ++ as)) := by
  intro as
  induction as with
  | nil =>
    intro done b s _ start
    rw [List.append_nil]
    exact completes_pure start
  | cons a as ih =>
    intro done b s round start
    refine completes_bind (round done a as b s rfl start) fun b' t next => ?_
    have rest := ih (done ++ [a]) b' t
    rw [List.append_assoc] at rest
    exact rest round next

/-- The invariant rule for a loop without errors, with the part already done in the invariant. -/
theorem foldl_invariant {f : β → α → β} (I : List α → β → Prop)
    (step : ∀ done a b, I done b → I (done ++ [a]) (f b a)) :
    ∀ (as : List α) {b : β}, I [] b → I as (as.foldl f b) := by
  intro as
  induction as using List.reverseRecOn with
  | nil => intro b start; exact start
  | append_singleton as a ih =>
    intro b start
    rw [List.foldl_append]
    exact step as a _ (ih start)

def AllSteps (exec : γ → σ → σ) (allowed : σ → γ → Prop) : σ → List γ → Prop
  | _, [] => True
  | s, c :: cs => allowed s c ∧ AllSteps exec allowed (exec c s) cs

def runAll (exec : γ → σ → σ) (s : σ) (cs : List γ) : σ := cs.foldl (fun t c => exec c t) s

@[simp] theorem runAll_nil (exec : γ → σ → σ) (s : σ) : runAll exec s [] = s := rfl

@[simp] theorem runAll_cons (exec : γ → σ → σ) (s : σ) (c : γ) (cs : List γ) :
    runAll exec s (c :: cs) = runAll exec (exec c s) cs := rfl

theorem runAll_append (exec : γ → σ → σ) (s : σ) (cs ds : List γ) :
    runAll exec s (cs ++ ds) = runAll exec (runAll exec s cs) ds := by
  simp [runAll, List.foldl_append]

variable {exec : γ → σ → σ} {allowed : σ → γ → Prop}

theorem allSteps_append (cs ds : List γ) (s : σ) :
    AllSteps exec allowed s (cs ++ ds) ↔
      AllSteps exec allowed s cs ∧ AllSteps exec allowed (runAll exec s cs) ds := by
  induction cs generalizing s with
  | nil => simp [AllSteps]
  | cons c cs ih => simp [AllSteps, ih, and_assoc]

theorem allSteps_of_mem {G : γ → Prop} : ∀ (cs : List γ) (s : σ),
    (∀ c ∈ cs, G c) → AllSteps exec (fun _ c => G c) s cs := by
  intro cs
  induction cs with
  | nil => intro s _; trivial
  | cons c cs ih =>
    intro s all
    exact ⟨all c List.mem_cons_self, ih _ fun d listed => all d (List.mem_cons_of_mem c listed)⟩

/-- The invariant rule for runs of commands in `G`: one step from an allowed command, then every
    run. -/
theorem run_invariant_of (G : γ → Prop) (I : σ → Prop)
    (step : ∀ s c, G c → allowed s c → I s → I (exec c s)) :
    ∀ (cs : List γ) (s : σ), (∀ c ∈ cs, G c) → AllSteps exec allowed s cs → I s →
      I (runAll exec s cs) := by
  intro cs
  induction cs with
  | nil => intro s _ _ holds; exact holds
  | cons c cs ih =>
    intro s known steps holds
    have next := step s c (known c List.mem_cons_self) steps.1 holds
    exact ih _ (fun d listed => known d (List.mem_cons_of_mem c listed)) steps.2 next

theorem run_invariant (I : σ → Prop)
    (step : ∀ s c, allowed s c → I s → I (exec c s)) (cs : List γ) (s : σ)
    (steps : AllSteps exec allowed s cs) (start : I s) : I (runAll exec s cs) :=
  run_invariant_of (fun _ => True) I (fun s c _ => step s c) cs s (fun _ _ => trivial) steps start

theorem run_keeps (I : σ → Prop) (step : ∀ s c, I s → I (exec c s)) :
    ∀ (cs : List γ) (s : σ), I s → I (runAll exec s cs) := by
  intro cs
  induction cs with
  | nil => intro s holds; exact holds
  | cons c cs ih =>
    intro s holds
    exact ih _ (step s c holds)

variable {P : σ → Prop}

/-- A condition on the steps that is exact for `P`: kept by the steps that meet it, through
    the invariant, and broken at once by a step that does not. Only commands in `G` occur. -/
theorem allSteps_iff_of (G : γ → Prop)
    (I : σ → Prop) (step : ∀ s c, G c → allowed s c → I s → I (exec c s))
    (holds : ∀ s, I s → P s) (broken : ∀ s c, G c → I s → ¬allowed s c → ¬P (exec c s)) :
    ∀ (cs : List γ) (s : σ), (∀ c ∈ cs, G c) → I s →
      ((∀ done, done <+: cs → P (runAll exec s done)) ↔ AllSteps exec allowed s cs) := by
  intro cs
  induction cs with
  | nil =>
    intro s _ start
    simp only [List.prefix_nil, forall_eq, runAll_nil, AllSteps, iff_true]
    exact holds s start
  | cons c cs ih =>
    intro s known start
    have later : ∀ d ∈ cs, G d := fun d listed => known d (List.mem_cons_of_mem c listed)
    constructor
    · intro every
      have first : allowed s c := by
        by_contra refused
        exact broken s c (known c List.mem_cons_self) start refused (every [c] (by simp))
      have next := step s c (known c List.mem_cons_self) first start
      refine ⟨first, (ih _ later next).mp fun done within => ?_⟩
      exact every (c :: done) (List.cons_prefix_cons.mpr ⟨rfl, within⟩)
    · rintro ⟨first, rest⟩ done within
      cases done with
      | nil => exact holds s start
      | cons d done =>
        obtain ⟨rfl, rest_within⟩ := List.cons_prefix_cons.mp within
        have next := step s d (known d List.mem_cons_self) first start
        exact (ih _ later next).mpr rest done rest_within

theorem allSteps_iff (I : σ → Prop)
    (step : ∀ s c, allowed s c → I s → I (exec c s)) (holds : ∀ s, I s → P s)
    (broken : ∀ s c, I s → ¬allowed s c → ¬P (exec c s)) (cs : List γ) (s : σ) (start : I s) :
    (∀ done, done <+: cs → P (runAll exec s done)) ↔ AllSteps exec allowed s cs :=
  allSteps_iff_of (fun _ => True) I (fun s c _ => step s c) holds (fun s c _ => broken s c) cs s
    (fun _ _ => trivial) start

def AllRounds (body : α → Program σ ε Unit) (allowed : σ → α → Prop) : σ → List α → Prop
  | _, [] => True
  | s, a :: as => allowed s a ∧ ∀ t, (body a).run s = (.ok (), t) → AllRounds body allowed t as

theorem forEach_iff {body : α → Program σ ε Unit} {allowed : σ → α → Prop}
    (round : ∀ s a, P s → (P ((body a).run s).2 ↔ allowed s a)) :
    ∀ (as : List α) (s : σ), P s →
      ((∀ done, done <+: as → P ((forEach done body).run s).2) ↔ AllRounds body allowed s as) := by
  intro as
  induction as with
  | nil =>
    intro s start
    simp only [List.prefix_nil, forall_eq, AllRounds, iff_true]
    exact start
  | cons a as ih =>
    intro s start
    rcases run : (body a).run s with ⟨r, t⟩
    have here := round s a start
    rw [run] at here
    have single : ((forEach [a] body).run s).2 = t := by
      cases r with
      | error e => exact congrArg Prod.snd (bind_run_error run)
      | ok u => exact congrArg Prod.snd (bind_run_ok run)
    constructor
    · intro every
      have kept : P t := single ▸ every [a] (by simp)
      refine ⟨here.mp kept, fun t' next => ?_⟩
      rw [run] at next
      cases next
      refine (ih t kept).mp fun done within => ?_
      rw [← bind_run_ok (f := fun _ => forEach done body) run]
      exact every (a :: done) (List.cons_prefix_cons.mpr ⟨rfl, within⟩)
    · rintro ⟨first, rest⟩ done within
      cases done with
      | nil => exact start
      | cons b done =>
        obtain ⟨rfl, inner⟩ := List.cons_prefix_cons.mp within
        cases r with
        | error e =>
          change P ((body b >>= fun _ => forEach done body).run s).2
          rw [bind_run_error run]
          exact here.mpr first
        | ok u =>
          change P ((body b >>= fun _ => forEach done body).run s).2
          rw [bind_run_ok run]
          exact (ih t (here.mpr first)).mpr (rest t run) done inner

theorem logged_apart {event : α → β} (injective : Function.Injective event) {name : α → γ}
    {log : List β}
    (apart : ∀ x y, event x ∈ log → event y ∈ log → name x = name y → x = y)
    (fresh : ∀ x, event x ∈ log → name x ≠ name a) :
    ∀ x y, event x ∈ event a :: log → event y ∈ event a :: log → name x = name y → x = y := by
  intro x y first second same
  rcases List.mem_cons.mp first with here | older
  · obtain rfl := injective here
    rcases List.mem_cons.mp second with also | older
    · exact (injective also).symm
    · exact absurd same.symm (fresh y older)
  · rcases List.mem_cons.mp second with here | older'
    · obtain rfl := injective here
      exact absurd same (fresh x older)
    · exact apart x y older older' same

end StatefulProgram
