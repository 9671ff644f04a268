/-
Deterministic machines over explicit operation lists: runs, invariants, and invariants of runs whose steps all meet
a side condition.

A machine is a step function `step : σ → α → σ`. An operation carries every choice the environment makes (which
packet arrives, what the clock reads, whether a send succeeds), so quantifying over operation lists quantifies over
schedules. `run` folds the step function; `Steps P s ops` says that every step of the run from `s` meets `P` in the
state just before it.

- `run_inv`: what every step keeps, every run keeps.
- `run_inv_of_steps`: what every step meeting `P` keeps, every run of such steps keeps; `run_inv_of_mem` where `P` is about
  the operation alone.
- `prefixes_iff_steps`: if moreover a step that does not meet `P` breaks what is asked of the states, then it holds along a
  run exactly when all steps meet `P`.
- `steps_append` / `Steps.left`: the side condition splits at any point of the run. `Steps.imp` weakens it, `Steps.and` puts two
  together.
- `trace`: what is observed of the steps of a run, in order.
- `count_add_le`: a measure bounds the steps that lower it; `run_le_sub`: and it has run out after as many of them.
- `answers_eq_iff`: two machines that answer, related step by step as long as `P` is met, answer alike exactly as long as it is.
-/
import Mathlib.Tactic

namespace Lib.Machine

variable {σ α : Type}

/-- run a list of operations from a state -/
def run (step : σ → α → σ) (s : σ) (ops : List α) : σ := ops.foldl step s

@[simp] theorem run_nil (step : σ → α → σ) (s : σ) : run step s [] = s := rfl

@[simp] theorem run_cons (step : σ → α → σ) (s : σ) (o : α) (ops : List α) :
    run step s (o :: ops) = run step (step s o) ops := rfl

theorem run_append (step : σ → α → σ) (s : σ) (a b : List α) :
    run step s (a ++ b) = run step (run step s a) b := by
  simp [run, List.foldl_append]

theorem run_snoc (step : σ → α → σ) (s : σ) (ops : List α) (o : α) :
    run step s (ops ++ [o]) = step (run step s ops) o := by
  simp [run_append]

/-- what every step keeps, every run keeps -/
theorem run_inv {step : σ → α → σ} {Inv : σ → Prop} (hstep : ∀ s o, Inv s → Inv (step s o)) {s : σ} (h : Inv s)
    (ops : List α) : Inv (run step s ops) := by
  induction ops generalizing s with
  | nil => exact h
  | cons o ops ih => exact ih (hstep s o h)

/-- every step of the run from `s` meets `P` in the state just before it -/
def Steps (step : σ → α → σ) (P : σ → α → Prop) : σ → List α → Prop
  | _, [] => True
  | s, o :: ops => P s o ∧ Steps step P (step s o) ops

instance decidableSteps (step : σ → α → σ) (P : σ → α → Prop) [∀ s o, Decidable (P s o)] :
    (s : σ) → (ops : List α) → Decidable (Steps step P s ops)
  | _, [] => .isTrue trivial
  | s, o :: ops =>
    have := decidableSteps step P (step s o) ops
    inferInstanceAs (Decidable (P s o ∧ Steps step P (step s o) ops))

theorem steps_append {step : σ → α → σ} {P : σ → α → Prop} {s : σ} {a b : List α} :
    Steps step P s (a ++ b) ↔ Steps step P s a ∧ Steps step P (run step s a) b := by
  induction a generalizing s with
  | nil => simp [Steps]
  | cons o a ih => simp only [List.cons_append, Steps, ih, run_cons, and_assoc]

theorem steps_of_forall {step : σ → α → σ} {P : σ → α → Prop} (h : ∀ s o, P s o) (s : σ) (ops : List α) : Steps step P s ops := by
  induction ops generalizing s with
  | nil => trivial
  | cons o ops ih => exact ⟨h s o, ih (step s o)⟩

/-- one operation over and over -/
theorem steps_replicate {step : σ → α → σ} {P : σ → α → Prop} {o : α} {k : Nat} {s : σ}
    (h : ∀ i < k, P (run step s (List.replicate i o)) o) : Steps step P s (List.replicate k o) := by
  induction k generalizing s with
  | zero => trivial
  | succ k ih =>
    refine ⟨h 0 (Nat.succ_pos k), ih fun i hi => ?_⟩
    have hlater := h (i + 1) (Nat.succ_lt_succ hi)
    rwa [List.replicate_succ, run_cons] at hlater

theorem Steps.imp {step : σ → α → σ} {P Q : σ → α → Prop} (hpq : ∀ s o, P s o → Q s o) {s : σ} {ops : List α}
    (h : Steps step P s ops) : Steps step Q s ops := by
  induction ops generalizing s with
  | nil => trivial
  | cons o ops ih => exact ⟨hpq s o h.1, ih h.2⟩

theorem Steps.and {step : σ → α → σ} {P Q : σ → α → Prop} {s : σ} {ops : List α} (hp : Steps step P s ops)
    (hq : Steps step Q s ops) : Steps step (fun s o => P s o ∧ Q s o) s ops := by
  induction ops generalizing s with
  | nil => trivial
  | cons o ops ih => exact ⟨⟨hp.1, hq.1⟩, ih hp.2 hq.2⟩

theorem Steps.left {step : σ → α → σ} {P : σ → α → Prop} {s : σ} {a b : List α} (h : Steps step P s b)
    (hab : a <+: b) : Steps step P s a := by
  obtain ⟨c, rfl⟩ := hab
  exact (steps_append.1 h).1

/-- some step of a run meets `Q`: the first one, or one of the rest -/
theorem exists_step_cons {step : σ → α → σ} {Q : σ → α → Prop} {s : σ} {o : α} {ops : List α} :
    (∃ a o' b, o :: ops = a ++ o' :: b ∧ Q (run step s a) o') ↔
      Q s o ∨ ∃ a o' b, ops = a ++ o' :: b ∧ Q (run step (step s o) a) o' := by
  constructor
  · rintro ⟨a, o', b, he, hq⟩
    cases a with
    | nil =>
      obtain ⟨rfl, rfl⟩ := List.cons.inj he
      exact .inl hq
    | cons o'' a =>
      obtain ⟨rfl, rfl⟩ := List.cons.inj he
      exact .inr ⟨a, o', b, rfl, hq⟩
  · rintro (hq | ⟨a, o', b, rfl, hq⟩)
    · exact ⟨[], o, ops, rfl, hq⟩
    · exact ⟨o :: a, o', b, rfl, hq⟩

/-- what every step meeting `P` keeps, every run of such steps keeps -/
theorem run_inv_of_steps {step : σ → α → σ} {P : σ → α → Prop} {Inv : σ → Prop}
    (hstep : ∀ s o, Inv s → P s o → Inv (step s o)) {s : σ} {ops : List α} (h : Inv s) (hops : Steps step P s ops) :
    Inv (run step s ops) := by
  induction ops generalizing s with
  | nil => exact h
  | cons o ops ih => exact ih (hstep s o h hops.1) hops.2

/-- the same for a side condition on the operation alone -/
theorem run_inv_of_mem {step : σ → α → σ} {P : α → Prop} {Inv : σ → Prop}
    (hstep : ∀ s o, Inv s → P o → Inv (step s o)) {s : σ} {ops : List α} (h : Inv s) (hops : ∀ o ∈ ops, P o) :
    Inv (run step s ops) := by
  induction ops generalizing s with
  | nil => exact h
  | cons o ops ih =>
    exact ih (hstep s o h (hops o List.mem_cons_self)) fun o' ho' => hops o' (List.mem_cons_of_mem _ ho')

/-- `Inv` is kept by steps meeting `P`, gives `Q`, and `Q` is lost at the first step that does not meet `P`: then `Q` holds
in every state of a run exactly when every step meets `P` -/
theorem prefixes_iff_steps {step : σ → α → σ} {R : α → Prop} {P : σ → α → Prop} {Inv Q : σ → Prop}
    (hstep : ∀ s o, R o → Inv s → P s o → Inv (step s o)) (hq : ∀ s, Inv s → Q s)
    (hback : ∀ s o, R o → Inv s → Q (step s o) → P s o) {s : σ} (h : Inv s) {ops : List α} (hops : ∀ o ∈ ops, R o) :
    (∀ a, a <+: ops → Q (run step s a)) ↔ Steps step P s ops := by
  induction ops generalizing s with
  | nil =>
    refine ⟨fun _ => trivial, ?_⟩
    intro _ a ha
    rw [List.prefix_nil.1 ha]
    exact hq s h
  | cons o ops ih =>
    have ho := hops o List.mem_cons_self
    have hrest : ∀ o' ∈ ops, R o' := fun o' ho' => hops o' (List.mem_cons_of_mem _ ho')
    constructor
    · intro hall
      have hp : P s o := hback s o ho h (hall [o] ⟨ops, rfl⟩)
      refine ⟨hp, (ih (hstep s o ho h hp) hrest).1 ?_⟩
      intro a ha
      exact hall (o :: a) (List.cons_prefix_cons.2 ⟨rfl, ha⟩)
    · rintro ⟨hp, hsteps⟩ a ha
      cases a with
      | nil => exact hq s h
      | cons o' a =>
        obtain ⟨rfl, ha'⟩ := List.cons_prefix_cons.1 ha
        exact (ih (hstep s _ ho h hp) hrest).2 hsteps a ha'

variable {τ β : Type}

/-! ## Observations -/

/-- what the steps of a run show, in order -/
def trace (step : σ → α → σ) (view : σ → α → List β) : σ → List α → List β
  | _, [] => []
  | s, o :: ops => view s o ++ trace step view (step s o) ops

/-! ## Counting steps -/

/-- how many steps of a run meet `P` -/
def count (step : σ → α → σ) (P : σ → α → Prop) [∀ s o, Decidable (P s o)] : σ → List α → Nat
  | _, [] => 0
  | s, o :: ops => (if P s o then 1 else 0) + count step P (step s o) ops

/-- a measure that no step raises, and that every step meeting `P` lowers, bounds the number of these steps -/
theorem count_add_le {step : σ → α → σ} {P : σ → α → Prop} [∀ s o, Decidable (P s o)] {Inv : σ → Prop} {m : σ → Nat}
    (hstep : ∀ s o, Inv s → Inv (step s o)) (hle : ∀ s o, Inv s → m (step s o) ≤ m s)
    (hlt : ∀ s o, Inv s → P s o → m (step s o) < m s) {s : σ} (h : Inv s) (ops : List α) :
    count step P s ops + m (run step s ops) ≤ m s := by
  induction ops generalizing s with
  | nil => exact (Nat.zero_add _).le
  | cons o ops ih =>
    have hrest : count step P (step s o) ops + m (run step (step s o) ops) ≤ m (step s o) := ih (hstep s o h)
    rw [count, run_cons]
    split_ifs with hp
    · have hlower := hlt s o h hp
      omega
    · have hkeep := hle s o h
      omega

/-- a measure that no step meeting `C` raises, and that such a step lowers until it is zero if its operation meets `P` -/
theorem run_le_sub_of_steps {step : σ → α → σ} {C : σ → α → Prop} {P : α → Bool} {Inv : σ → Prop} {m : σ → Nat}
    (hstep : ∀ s o, Inv s → C s o → Inv (step s o)) (hle : ∀ s o, Inv s → C s o → m (step s o) ≤ m s)
    (hlt : ∀ s o, Inv s → C s o → P o = true → m (step s o) ≤ m s - 1) {s : σ} (h : Inv s) {ops : List α}
    (hops : Steps step C s ops) : m (run step s ops) ≤ m s - ops.countP P := by
  induction ops generalizing s with
  | nil => exact Nat.le_refl _
  | cons o ops ih =>
    have hrest : m (run step (step s o) ops) ≤ m (step s o) - ops.countP P := ih (hstep s o h hops.1) hops.2
    rw [run_cons, List.countP_cons]
    split_ifs with hp
    · have hlower := hlt s o h hops.1 hp
      omega
    · have hkeep := hle s o h hops.1
      omega

theorem run_le_sub {step : σ → α → σ} {P : α → Bool} {Inv : σ → Prop} {m : σ → Nat}
    (hstep : ∀ s o, Inv s → Inv (step s o)) (hle : ∀ s o, Inv s → m (step s o) ≤ m s)
    (hlt : ∀ s o, Inv s → P o = true → m (step s o) ≤ m s - 1) {s : σ} (h : Inv s) (ops : List α) :
    m (run step s ops) ≤ m s - ops.countP P :=
  run_le_sub_of_steps (C := fun _ _ => True) (fun s o hs _ => hstep s o hs) (fun s o hs _ => hle s o hs)
    (fun s o hs _ => hlt s o hs) h (steps_of_forall (fun _ _ => trivial) s ops)

/-! ## Steps that answer -/

/-- the answers along a run -/
def answers (step : σ → α → β × σ) : σ → List α → List β
  | _, [] => []
  | s, o :: ops => (step s o).1 :: answers step (step s o).2 ops

/-- `R` relates the states of two machines, and is kept by the steps meeting `P`, which are those answered alike -/
theorem answers_eq_iff {step : σ → α → β × σ} {spec : τ → α → β × τ} {P : σ → α → Prop} {R : σ → τ → Prop}
    (hanswer : ∀ s t o, R s t → ((step s o).1 = (spec t o).1 ↔ P s o))
    (hnext : ∀ s t o, R s t → P s o → R (step s o).2 (spec t o).2) {s : σ} {t : τ} (h : R s t) (ops : List α) :
    answers step s ops = answers spec t ops ↔ Steps (fun s o => (step s o).2) P s ops := by
  induction ops generalizing s t with
  | nil => exact iff_of_true rfl trivial
  | cons o ops ih =>
    rw [answers, answers, List.cons.injEq, hanswer s t o h]
    constructor
    · rintro ⟨hp, hrest⟩
      exact ⟨hp, (ih (hnext s t o h hp)).1 hrest⟩
    · rintro ⟨hp, hrest⟩
      exact ⟨hp, (ih (hnext s t o h hp)).2 hrest⟩

end Lib.Machine
