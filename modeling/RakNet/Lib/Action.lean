/-
Effectful code as functions of an explicit state: `Action σ ε α` takes a state and gives an outcome and the state after.
An action that ends in an error or a panic keeps the state it had reached; nothing is rolled back.

- Actions are a lawful monad: a sequence may be bracketed anywhere.
- `Preserves f x`: `x` leaves the component `f` of the state as it was, however it ends. It goes through binds and
  branches, so a handler is checked one operation at a time.
- `Calm x`: `x` never panics. It goes through binds in the same way.
- `Faultless x`: `x` never returns an error.
- `Keeps I x`: `x` keeps the invariant `I` of the state, however it ends.
- `Yields Q x`: every value `x` returns meets `Q`.
-/
import RakNet.Lib.Wire

namespace Lib

open Wire

/-- a step on the state with an outcome -/
structure Action (σ ε α : Type) where
  run : σ → Outcome ε α × σ

namespace Action

variable {σ ε α β τ : Type}

instance : CoeFun (Action σ ε α) fun _ => σ → Outcome ε α × σ := ⟨run⟩

def bind (x : Action σ ε α) (f : α → Action σ ε β) : Action σ ε β := ⟨fun s =>
  match x s with
  | (.ok a, s') => f a s'
  | (.err e, s') => (.err e, s')
  | (.panic, s') => (.panic, s')⟩

instance : Monad (Action σ ε) where
  pure a := ⟨fun s => (.ok a, s)⟩
  bind := bind

@[simp] theorem pure_apply (a : α) (s : σ) : (pure a : Action σ ε α) s = (.ok a, s) := rfl

theorem bind_apply (x : Action σ ε α) (f : α → Action σ ε β) (s : σ) :
    (x >>= f) s = match x s with
      | (.ok a, s') => f a s'
      | (.err e, s') => (.err e, s')
      | (.panic, s') => (.panic, s') := rfl

theorem bind_of_ok {x : Action σ ε α} {f : α → Action σ ε β} {s s' : σ} {a : α} (h : x s = (.ok a, s')) :
    (x >>= f) s = f a s' := by
  rw [bind_apply, h]

theorem bind_of_err {x : Action σ ε α} {f : α → Action σ ε β} {s s' : σ} {e : ε} (h : x s = (.err e, s')) :
    (x >>= f) s = (.err e, s') := by
  rw [bind_apply, h]

/-- read the state -/
def get : Action σ ε σ := ⟨fun s => (.ok s, s)⟩

/-- update the state -/
def modify (g : σ → σ) : Action σ ε Unit := ⟨fun s => (.ok (), g s)⟩

/-- return an error -/
def throw (e : ε) : Action σ ε α := ⟨fun s => (.err e, s)⟩

/-- an outcome that does not depend on the state -/
def lift (x : Outcome ε α) : Action σ ε α := ⟨fun s => (x, s)⟩

@[ext] theorem ext {x y : Action σ ε α} (h : ∀ s, x s = y s) : x = y := by
  cases x
  cases y
  exact congrArg mk (funext h)

theorem bind_pure_self (x : Action σ ε α) : (x >>= pure) = x := by
  ext s : 1
  rw [bind_apply]
  cases x s with
  | mk r s' => cases r <;> rfl

theorem bind_bind {γ : Type} (x : Action σ ε α) (f : α → Action σ ε β) (g : β → Action σ ε γ) :
    (x >>= f >>= g) = (x >>= fun a => f a >>= g) := by
  ext s : 1
  simp only [bind_apply]
  cases x s with
  | mk r s' => cases r <;> rfl

instance : LawfulMonad (Action σ ε) := LawfulMonad.mk' _ bind_pure_self (fun _ _ => rfl) bind_bind

@[simp] theorem get_bind (f : σ → Action σ ε α) (s : σ) : (get >>= f) s = f s s := rfl
@[simp] theorem modify_bind (g : σ → σ) (f : Unit → Action σ ε α) (s : σ) : (modify g >>= f) s = f () (g s) := rfl
@[simp] theorem modify_apply (g : σ → σ) (s : σ) : (modify g : Action σ ε Unit) s = (.ok (), g s) := rfl
@[simp] theorem throw_apply (e : ε) (s : σ) : (throw e : Action σ ε α) s = (.err e, s) := rfl
theorem lift_ok_bind (a : α) (f : α → Action σ ε β) (s : σ) : (lift (.ok a) >>= f) s = f a s := rfl
@[simp] theorem lift_apply (x : Outcome ε α) (s : σ) : (lift x : Action σ ε α) s = (x, s) := rfl

/-! ## Components that stay -/

/-- the action leaves the component `f` of the state as it was -/
def Preserves (f : σ → τ) (x : Action σ ε α) : Prop := ∀ s, f (x s).2 = f s

theorem preserves_pure (f : σ → τ) (a : α) : Preserves f (pure a : Action σ ε α) := fun _ => rfl

theorem preserves_get (f : σ → τ) : Preserves f (get : Action σ ε σ) := fun _ => rfl

theorem preserves_throw (f : σ → τ) (e : ε) : Preserves f (throw e : Action σ ε α) := fun _ => rfl

theorem preserves_lift (f : σ → τ) (x : Outcome ε α) : Preserves f (lift x : Action σ ε α) := fun _ => rfl

theorem preserves_modify {f : σ → τ} {g : σ → σ} (h : ∀ s, f (g s) = f s) :
    Preserves f (modify g : Action σ ε Unit) := h

/-- what follows leaves the component alone, so the first part decides it -/
theorem component_bind {f : σ → τ} {x : Action σ ε α} {k : α → Action σ ε β} (hk : ∀ a, Preserves f (k a)) (s : σ) :
    f ((x >>= k) s).2 = f (x s).2 := by
  rw [bind_apply]
  cases x s with
  | mk r s' =>
    cases r with
    | ok a => exact hk a s'
    | err e => rfl
    | panic => rfl

theorem Preserves.bind {f : σ → τ} {x : Action σ ε α} {k : α → Action σ ε β} (hx : Preserves f x)
    (hk : ∀ a, Preserves f (k a)) : Preserves f (x >>= k) := fun s => (component_bind hk s).trans (hx s)

/-- a part of a component that stays -/
theorem Preserves.comp {υ : Type} {f : σ → τ} {x : Action σ ε α} (g : τ → υ) (hx : Preserves f x) :
    Preserves (fun s => g (f s)) x := fun s => congrArg g (hx s)

theorem Preserves.ite {f : σ → τ} {x y : Action σ ε α} {c : Prop} [Decidable c] (hx : Preserves f x)
    (hy : Preserves f y) : Preserves f (if c then x else y) := by
  split_ifs
  · exact hx
  · exact hy

/-! ## Actions that never panic -/

/-- the action panics in no state -/
def Calm (x : Action σ ε α) : Prop := ∀ s, (x s).1 ≠ .panic

theorem calm_pure (a : α) : Calm (pure a : Action σ ε α) := by
  intro s
  simp

theorem calm_modify (g : σ → σ) : Calm (modify g : Action σ ε Unit) := by
  intro s
  simp

theorem calm_throw (e : ε) : Calm (throw e : Action σ ε α) := by
  intro s
  simp

theorem calm_lift {x : Outcome ε α} (h : x ≠ .panic) : Calm (lift x : Action σ ε α) := fun _ => h

/-- whether a sequence panics is decided by its first part, if that returns no value -/
theorem panic_bind_iff {x : Action σ ε α} {k : α → Action σ ε β} (s : σ) :
    ((x >>= k) s).1 = .panic ↔
      (x s).1 = .panic ∨ ∃ a, (x s).1 = .ok a ∧ (k a (x s).2).1 = .panic := by
  rw [bind_apply]
  cases x s with
  | mk r s' => cases r <;> simp

/-- a sequence with a calm second part panics where its first part does -/
theorem panic_bind_calm_iff {x : Action σ ε α} {k : α → Action σ ε β} (hk : ∀ a, Calm (k a)) (s : σ) :
    ((x >>= k) s).1 = .panic ↔ (x s).1 = .panic := by
  rw [panic_bind_iff]
  apply or_iff_left
  rintro ⟨a, -, h⟩
  exact hk a _ h

theorem Calm.bind {x : Action σ ε α} {k : α → Action σ ε β} (hx : Calm x) (hk : ∀ a, Calm (k a)) :
    Calm (x >>= k) := by
  intro s h
  rcases (panic_bind_iff s).1 h with h1 | ⟨a, -, h2⟩
  · exact hx s h1
  · exact hk a _ h2

/-! ## Actions that never fail -/

/-- the action returns an error in no state -/
def Faultless (x : Action σ ε α) : Prop := ∀ s, (x s).1.isErr = false

theorem faultless_pure (a : α) : Faultless (pure a : Action σ ε α) := fun _ => rfl

theorem faultless_get : Faultless (get : Action σ ε σ) := fun _ => rfl

theorem faultless_modify (g : σ → σ) : Faultless (modify g : Action σ ε Unit) := fun _ => rfl

theorem faultless_lift {x : Outcome ε α} (h : x.isErr = false) : Faultless (lift x : Action σ ε α) := fun _ => h

/-- whether a sequence fails is decided by its first part, if that returns no value -/
theorem err_bind_iff {x : Action σ ε α} {k : α → Action σ ε β} (s : σ) :
    ((x >>= k) s).1.isErr = true ↔
      (x s).1.isErr = true ∨ ∃ a, (x s).1 = .ok a ∧ (k a (x s).2).1.isErr = true := by
  rw [bind_apply]
  cases x s with
  | mk r s' => cases r <;> simp [Outcome.isErr]

/-- a sequence with a faultless second part fails where its first part does -/
theorem err_bind_faultless_iff {x : Action σ ε α} {k : α → Action σ ε β} (hk : ∀ a, Faultless (k a)) (s : σ) :
    ((x >>= k) s).1.isErr = true ↔ (x s).1.isErr = true := by
  rw [err_bind_iff]
  apply or_iff_left
  rintro ⟨a, -, h⟩
  rw [hk a] at h
  cases h

theorem Faultless.bind {x : Action σ ε α} {k : α → Action σ ε β} (hx : Faultless x) (hk : ∀ a, Faultless (k a)) :
    Faultless (x >>= k) := by
  intro s
  rw [Bool.eq_false_iff]
  intro h
  have hfirst := (err_bind_faultless_iff hk s).1 h
  rw [hx s] at hfirst
  cases hfirst

theorem Faultless.ite {x y : Action σ ε α} {c : Prop} [Decidable c] (hx : Faultless x) (hy : Faultless y) :
    Faultless (if c then x else y) := by
  split_ifs
  · exact hx
  · exact hy

/-! ## Invariants -/

/-- the action keeps the invariant -/
def Keeps (I : σ → Prop) (x : Action σ ε α) : Prop := ∀ s, I s → I (x s).2

theorem keeps_pure (I : σ → Prop) (a : α) : Keeps I (pure a : Action σ ε α) := fun _ h => h

theorem keeps_get (I : σ → Prop) : Keeps I (get : Action σ ε σ) := fun _ h => h

theorem keeps_lift (I : σ → Prop) (x : Outcome ε α) : Keeps I (lift x : Action σ ε α) := fun _ h => h

/-- an invariant of a component is kept by what leaves the component alone -/
theorem Preserves.keeps {f : σ → τ} {x : Action σ ε α} (hx : Preserves f x) (I : τ → Prop) :
    Keeps (fun s => I (f s)) x := by
  intro s h
  rw [hx s]
  exact h

/-- what follows may use the value the first part returns, where it returned one -/
theorem Keeps.bind_of {I : σ → Prop} {x : Action σ ε α} {k : α → Action σ ε β} (hx : Keeps I x)
    (hk : ∀ s s' a, I s → x s = (.ok a, s') → I (k a s').2) : Keeps I (x >>= k) := by
  intro s h
  have hfirst := hx s h
  have hrest := hk s
  rw [bind_apply]
  cases hr : x s with
  | mk r s' =>
    rw [hr] at hfirst
    cases r with
    | ok a => exact hrest s' a h hr
    | err e => exact hfirst
    | panic => exact hfirst

theorem Keeps.bind {I : σ → Prop} {x : Action σ ε α} {k : α → Action σ ε β} (hx : Keeps I x)
    (hk : ∀ a, Keeps I (k a)) : Keeps I (x >>= k) := by
  refine hx.bind_of ?_
  intro s s' a h hr
  have hfirst := hx s h
  rw [hr] at hfirst
  exact hk a s' hfirst

theorem Keeps.ite {I : σ → Prop} {x y : Action σ ε α} {c : Prop} [Decidable c] (hx : Keeps I x) (hy : Keeps I y) :
    Keeps I (if c then x else y) := by
  split_ifs
  · exact hx
  · exact hy

/-! ## Values -/

/-- every value the action returns meets `Q` -/
def Yields (Q : α → Prop) (x : Action σ ε α) : Prop := ∀ s a s', x s = (.ok a, s') → Q a

theorem yields_pure {Q : α → Prop} {a : α} (h : Q a) : Yields Q (pure a : Action σ ε α) := by
  intro s b s' hb
  cases hb
  exact h

/-- the value of a sequence is one of its second part -/
theorem Yields.bind {Q : β → Prop} {x : Action σ ε α} {k : α → Action σ ε β} (hk : ∀ a, Yields Q (k a)) :
    Yields Q (x >>= k) := by
  intro s b s' hb
  rw [bind_apply] at hb
  cases hx : x s with
  | mk r s'' =>
    rw [hx] at hb
    cases r with
    | ok a => exact hk a s'' b s' hb
    | err e => simp at hb
    | panic => simp at hb

theorem Yields.lift_bind {Q : β → Prop} {x : Outcome ε α} {k : α → Action σ ε β} (hk : ∀ a, x = .ok a → Yields Q (k a)) :
    Yields Q (lift x >>= k) := by
  intro s b s' hb
  cases x with
  | ok a => exact hk a rfl s b s' hb
  | err e => cases hb
  | panic => cases hb

theorem Yields.ite {Q : α → Prop} {x y : Action σ ε α} {c : Prop} [Decidable c] (hx : Yields Q x) (hy : Yields Q y) :
    Yields Q (if c then x else y) := by
  split_ifs
  · exact hx
  · exact hy

end Action

end Lib
