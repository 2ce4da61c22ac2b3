import Mathlib.Data.List.Basic
import Mathlib.Data.List.Infix

/-!
# Runs of a fallible step function

A program that reacts to a list of inputs is a step function into `Except`: an
input either moves the state on or stops the program with a fault. `Always`
says that a property holds in every state a run passes through, `Guarded` that
every step meets a condition on the state before it. The rules below are the
two directions in which an invariant and such a condition support each other.
-/
namespace Run

variable {σ α ε : Type*}

/-- The state after a list of inputs, or the fault that stopped the run. -/
def run (step : σ → α → Except ε σ) (s : σ) : List α → Except ε σ
  | [] => .ok s
  | a :: as =>
    match step s a with
    | .ok t => run step t as
    | .error e => .error e

/-- `P` holds in every state the run passes through, the first one included. -/
def Always (step : σ → α → Except ε σ) (P : σ → Prop) : σ → List α → Prop
  | s, [] => P s
  | s, a :: as => P s ∧ ∀ t, step s a = .ok t → Always step P t as

/-- Every input is offered in a state that meets `G`. -/
def Guarded (step : σ → α → Except ε σ) (G : σ → α → Prop) : σ → List α → Prop
  | _, [] => True
  | s, a :: as => G s a ∧ ∀ t, step s a = .ok t → Guarded step G t as

variable {step : σ → α → Except ε σ} {P Q : σ → Prop} {G H : σ → α → Prop}

@[simp] theorem run_nil (s : σ) : run step s [] = .ok s := rfl

theorem run_cons_ok {s t : σ} {a : α} (as : List α) (taken : step s a = .ok t) :
    run step s (a :: as) = run step t as := by
  simp only [run, taken]

theorem run_cons_error {s : σ} {a : α} {e : ε} (as : List α) (stopped : step s a = .error e) :
    run step s (a :: as) = .error e := by
  simp only [run, stopped]

/-- A completed run of `a :: as` is a first step followed by a run of `as`. -/
theorem run_cons_inv {s u : σ} {a : α} {as : List α} (done : run step s (a :: as) = .ok u) :
    ∃ t, step s a = .ok t ∧ run step t as = .ok u := by
  cases taken : step s a with
  | error e => simp only [run_cons_error as taken, reduceCtorEq] at done
  | ok t => exact ⟨t, rfl, by rwa [run_cons_ok as taken] at done⟩

theorem run_append {s t : σ} {as : List α} (bs : List α) (done : run step s as = .ok t) :
    run step s (as ++ bs) = run step t bs := by
  induction as generalizing s with
  | nil =>
    cases done
    rfl
  | cons a as ih =>
    obtain ⟨u, taken, rest⟩ := run_cons_inv done
    rw [List.cons_append, run_cons_ok _ taken]
    exact ih rest

theorem run_append_error {s : σ} {as : List α} {e : ε} (bs : List α)
    (stopped : run step s as = .error e) : run step s (as ++ bs) = .error e := by
  induction as generalizing s with
  | nil => cases stopped
  | cons a as ih =>
    cases taken : step s a with
    | error e' =>
      rw [run_cons_error as taken] at stopped
      rw [List.cons_append, run_cons_error _ taken, stopped]
    | ok t =>
      rw [run_cons_ok as taken] at stopped
      rw [List.cons_append, run_cons_ok _ taken]
      exact ih stopped

theorem run_single (s : σ) (a : α) : run step s [a] = step s a := by
  cases taken : step s a with
  | ok t => exact run_cons_ok [] taken
  | error e => exact run_cons_error [] taken

theorem Always.start {s : σ} {as : List α} (always : Always step P s as) : P s := by
  cases as with
  | nil => exact always
  | cons a as => exact always.1

theorem Always.mono {s : σ} {as : List α} (weaker : ∀ s, P s → Q s)
    (always : Always step P s as) : Always step Q s as := by
  induction as generalizing s with
  | nil => exact weaker s always
  | cons a as ih => exact ⟨weaker s always.1, fun t taken => ih (always.2 t taken)⟩

theorem Always.last {s t : σ} {as : List α} (always : Always step P s as)
    (done : run step s as = .ok t) : P t := by
  induction as generalizing s with
  | nil =>
    cases done
    exact always
  | cons a as ih =>
    obtain ⟨u, taken, rest⟩ := run_cons_inv done
    exact ih (always.2 u taken) rest

theorem Guarded.and {s : σ} {as : List α} (first : Guarded step G s as)
    (second : Guarded step H s as) : Guarded step (fun s a => G s a ∧ H s a) s as := by
  induction as generalizing s with
  | nil => trivial
  | cons a as ih =>
    exact ⟨⟨first.1, second.1⟩, fun t taken => ih (first.2 t taken) (second.2 t taken)⟩

theorem guarded_of_forall {s : σ} {as : List α} (holds : ∀ a ∈ as, ∀ s, G s a) :
    Guarded step G s as := by
  induction as generalizing s with
  | nil => trivial
  | cons a as ih =>
    exact ⟨holds a List.mem_cons_self s, fun t _ => ih fun b member => holds b (.tail a member)⟩

theorem Guarded.left {s : σ} {as bs : List α} (guarded : Guarded step G s (as ++ bs)) :
    Guarded step G s as := by
  induction as generalizing s with
  | nil => trivial
  | cons a as ih => exact ⟨guarded.1, fun t taken => ih (guarded.2 t taken)⟩

theorem Guarded.right {s t : σ} {as bs : List α} (done : run step s as = .ok t)
    (guarded : Guarded step G s (as ++ bs)) : Guarded step G t bs := by
  induction as generalizing s with
  | nil =>
    cases done
    exact guarded
  | cons a as ih =>
    obtain ⟨u, taken, rest⟩ := run_cons_inv done
    exact ih rest (guarded.2 u taken)

/-- The invariant rule: what holds at the start and survives every guarded step always holds. -/
theorem always_of_guarded {s : σ} {as : List α}
    (preserved : ∀ s a t, P s → G s a → step s a = .ok t → P t)
    (initial : P s) (guarded : Guarded step G s as) : Always step P s as := by
  induction as generalizing s with
  | nil => exact initial
  | cons a as ih =>
    exact ⟨initial, fun t taken => ih (preserved s a t initial guarded.1 taken) (guarded.2 t taken)⟩

theorem always_of_preserved {s : σ} {as : List α}
    (preserved : ∀ s a t, P s → step s a = .ok t → P t) (initial : P s) : Always step P s as := by
  induction as generalizing s with
  | nil => exact initial
  | cons a as ih => exact ⟨initial, fun t taken => ih (preserved s a t initial taken)⟩

/-- What every step preserves holds after a run. -/
theorem run_preserves {s t : σ} {as : List α} (preserved : ∀ s a t, P s → step s a = .ok t → P t)
    (initial : P s) (done : run step s as = .ok t) : P t := by
  induction as generalizing s with
  | nil =>
    cases done
    exact initial
  | cons a as ih =>
    obtain ⟨u, taken, rest⟩ := run_cons_inv done
    exact ih (preserved s a u initial taken) rest

/-- Where a step from a good state ends well exactly if it was guarded, a run is good
throughout exactly if it is guarded throughout. `I` is what the comparison may rely on. -/
theorem always_iff_guarded {I : σ → Prop} {s : σ} {as : List α}
    (kept : ∀ s a t, I s → P s → step s a = .ok t → I t)
    (exact : ∀ s a, I s → P s → ((∀ t, step s a = .ok t → P t) ↔ G s a))
    (invariant : I s) (initial : P s) : Always step P s as ↔ Guarded step G s as := by
  induction as generalizing s with
  | nil => exact ⟨fun _ => trivial, fun _ => initial⟩
  | cons a as ih =>
    constructor
    · rintro ⟨-, later⟩
      have guard := (exact s a invariant initial).mp (fun t taken => (later t taken).start)
      refine ⟨guard, fun t taken => ?_⟩
      exact (ih (kept s a t invariant initial taken) (later t taken).start).mp (later t taken)
    · rintro ⟨guard, later⟩
      refine ⟨initial, fun t taken => ?_⟩
      have good := (exact s a invariant initial).mpr guard t taken
      exact (ih (kept s a t invariant initial taken) good).mpr (later t taken)

/-- The progress rule: a run whose steps are all guarded is never stopped by a fault. -/
theorem run_ok_of_guarded {s : σ} {as : List α}
    (progress : ∀ s a, P s → G s a → ∃ t, step s a = .ok t ∧ P t)
    (initial : P s) (guarded : Guarded step G s as) : ∃ t, run step s as = .ok t ∧ P t := by
  induction as generalizing s with
  | nil => exact ⟨s, rfl, initial⟩
  | cons a as ih =>
    obtain ⟨t, taken, holds⟩ := progress s a initial guarded.1
    obtain ⟨u, done, last⟩ := ih holds (guarded.2 t taken)
    exact ⟨u, by rw [run_cons_ok as taken]; exact done, last⟩

/-- A result that is a good state or a fault that is allowed. -/
def Fine (P : σ → Prop) (E : ε → Prop) : Except ε σ → Prop
  | .ok t => P t
  | .error e => E e

theorem Fine.mono {E : ε → Prop} {x : Except ε σ} (fine : Fine P E x)
    (weaker : ∀ s, P s → Q s) : Fine Q E x := by
  cases x with
  | ok t => exact weaker t fine
  | error e => exact fine

theorem Fine.map {τ : Type*} {E : ε → Prop} {f : σ → τ} {Q : τ → Prop} {x : Except ε σ}
    (fine : Fine (fun s => Q (f s)) E x) : Fine Q E (x.map f) := by
  cases x with
  | ok t => exact fine
  | error e => exact fine

/-- Where every guarded step from a good state is fine, so is every part of a guarded run. -/
theorem fine_of_guarded {E : ε → Prop} {s : σ} {as : List α}
    (kept : ∀ s a, P s → G s a → Fine P E (step s a)) (initial : P s)
    (guarded : Guarded step G s as) : ∀ pre, pre <+: as → Fine P E (run step s pre) := by
  induction as generalizing s with
  | nil =>
    intro pre shorter
    rw [List.prefix_nil.mp shorter]
    exact initial
  | cons a as ih =>
    intro pre shorter
    cases pre with
    | nil => exact initial
    | cons b pre =>
      obtain ⟨rfl, inner⟩ := List.cons_prefix_cons.mp shorter
      have first := kept s b initial guarded.1
      cases taken : step s b with
      | error e =>
        rw [taken] at first
        rwa [run_cons_error pre taken]
      | ok t =>
        rw [taken] at first
        rw [run_cons_ok pre taken]
        exact ih first (guarded.2 t taken) pre inner

variable {τ σ' τ' : Type*} {R : σ → τ → Prop}

/-- The same fault, or results that are related. -/
def Agree (R : σ → τ → Prop) : Except ε σ → Except ε τ → Prop
  | .ok s, .ok t => R s t
  | .error e, .error e' => e = e'
  | _, _ => False

theorem Agree.cases {x : Except ε σ} {y : Except ε τ} (agree : Agree R x y) :
    (∃ e, x = .error e ∧ y = .error e) ∨ ∃ s t, x = .ok s ∧ y = .ok t ∧ R s t := by
  cases x with
  | error e =>
    cases y with
    | error e' => exact .inl ⟨e, rfl, congrArg _ (Eq.symm agree)⟩
    | ok t => exact agree.elim
  | ok s =>
    cases y with
    | error e' => exact agree.elim
    | ok t => exact .inr ⟨s, t, rfl, rfl, agree⟩

/-- What is done to both results in the same way keeps them related. -/
theorem Agree.map {R' : σ' → τ' → Prop} {f : σ → σ'} {g : τ → τ'} {x : Except ε σ} {y : Except ε τ}
    (agree : Agree R x y) (related : ∀ s t, R s t → R' (f s) (g t)) :
    Agree R' (x.map f) (y.map g) := by
  rcases agree.cases with ⟨e, rfl, rfl⟩ | ⟨s, t, rfl, rfl, holds⟩
  · rfl
  · exact related s t holds

theorem Agree.mono {R' : σ → τ → Prop} {x : Except ε σ} {y : Except ε τ} (agree : Agree R x y)
    (weaker : ∀ s t, R s t → R' s t) : Agree R' x y := by
  rcases agree.cases with ⟨e, rfl, rfl⟩ | ⟨s, t, rfl, rfl, holds⟩
  · rfl
  · exact weaker s t holds

/-- The simulation rule: where single steps agree, runs do. -/
theorem run_agree {step' : τ → α → Except ε τ} {s : σ} {t : τ} {as : List α}
    (steps : ∀ s t a, R s t → Agree R (step s a) (step' t a)) (related : R s t) :
    Agree R (run step s as) (run step' t as) := by
  induction as generalizing s t with
  | nil => exact related
  | cons a as ih =>
    rcases (steps s t a related).cases with ⟨e, stopped, stopped'⟩ | ⟨s', t', taken, taken', next⟩
    · rw [run_cons_error as stopped, run_cons_error as stopped']
      rfl
    · rw [run_cons_ok as taken, run_cons_ok as taken']
      exact ih next

/-- Where a step from a good state is fine exactly if it was guarded, every part of a run is fine
exactly if the run is guarded throughout. -/
theorem fine_iff_guarded {E : ε → Prop} {s : σ} {as : List α}
    (exact : ∀ s a, P s → (Fine P E (step s a) ↔ G s a)) (initial : P s) :
    (∀ pre, pre <+: as → Fine P E (run step s pre)) ↔ Guarded step G s as := by
  induction as generalizing s with
  | nil =>
    refine ⟨fun _ => trivial, fun _ pre shorter => ?_⟩
    rw [List.prefix_nil.mp shorter]
    exact initial
  | cons a as ih =>
    constructor
    · intro fine
      -- the part of length one speaks of the first step, the longer ones of the rest
      have start := fine [a] (List.cons_prefix_cons.mpr ⟨rfl, List.nil_prefix⟩)
      rw [run_single] at start
      refine ⟨(exact s a initial).mp start, fun t taken => ?_⟩
      rw [taken] at start
      refine (ih start).mp fun pre shorter => ?_
      have rest := fine (a :: pre) (List.cons_prefix_cons.mpr ⟨rfl, shorter⟩)
      rwa [run_cons_ok pre taken] at rest
    · rintro ⟨guard, later⟩ pre shorter
      have start := (exact s a initial).mpr guard
      cases pre with
      | nil => exact initial
      | cons b pre =>
        obtain ⟨rfl, inner⟩ := List.cons_prefix_cons.mp shorter
        cases taken : step s b with
        | error e =>
          rw [taken] at start
          rwa [run_cons_error pre taken]
        | ok t =>
          rw [taken] at start
          rw [run_cons_ok pre taken]
          exact (ih start).mpr (later t taken) pre inner

end Run
