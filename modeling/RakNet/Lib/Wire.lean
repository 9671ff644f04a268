/-
Byte buffers with read primitives that can fail in two ways.

`Outcome ε α` is what a call of a fallible function comes to: a value, an error value the caller can handle, or a
panic. A `Reader ε α` consumes a prefix of a byte buffer; its primitives `getU8`, `getU16`, `getU32`, `advance` panic
when the buffer is too short, so a reader that never panics has checked `remaining` before each of them.

The writers `putU16`, `putU32`, `putI64` are big-endian. Each `getX_putX` lemma says that reading after writing gives
the value back and leaves exactly what follows.

- `Takes x n`: a success of `x` consumes `n` bytes.
- `Consumes x P`: the bytes a success of `x` consumes are related to its value by `P`; `Consumes.bind` passes them on.
- `Reads x enc a`: `x` reads `a` from its encoding; it goes through binds, so a decoder is read off its encoder.
- `Safe x n m`: `x` does not panic on `n` bytes, and leaves `m` of them; `safe_guard` is the rule for a length check.
-/
import Mathlib.Tactic

namespace Lib.Wire

/-- a value, an error value, or a panic -/
inductive Outcome (ε α : Type) where
  | ok (a : α)
  | err (e : ε)
  | panic
deriving DecidableEq, Repr

namespace Outcome

variable {ε α β : Type}

def bind (x : Outcome ε α) (f : α → Outcome ε β) : Outcome ε β :=
  match x with
  | ok a => f a
  | err e => err e
  | panic => panic

instance : Monad (Outcome ε) where
  pure := ok
  bind := bind

/-- did the call return a value -/
def isOk : Outcome ε α → Bool
  | ok _ => true
  | _ => false

def isPanic : Outcome ε α → Bool
  | .panic => true
  | _ => false

def isErr : Outcome ε α → Bool
  | .err _ => true
  | _ => false

@[simp] theorem bind_ok (a : α) (f : α → Outcome ε β) : (Outcome.ok a >>= f) = f a := rfl
@[simp] theorem bind_err (e : ε) (f : α → Outcome ε β) : (Outcome.err e >>= f) = .err e := rfl
@[simp] theorem bind_panic (f : α → Outcome ε β) : ((Outcome.panic : Outcome ε α) >>= f) = .panic := rfl

theorem isOk_iff {x : Outcome ε α} : x.isOk = true ↔ ∃ a, x = .ok a := by
  cases x <;> simp [isOk]

/-- the call came back, with a value or with an error -/
def Returns (x : Outcome ε α) : Prop := (∃ a, x = ok a) ∨ ∃ e, x = err e

theorem returns_iff {x : Outcome ε α} : x.Returns ↔ x ≠ panic := by
  cases x with
  | ok a => exact iff_of_true (.inl ⟨a, rfl⟩) (by simp)
  | err e => exact iff_of_true (.inr ⟨e, rfl⟩) (by simp)
  | panic => simp [Returns]

/-- a call that does not panic fails exactly when it returns no value -/
theorem isErr_of_ne_panic {x : Outcome ε α} (h : x ≠ .panic) : x.isErr = !x.isOk := by
  cases x with
  | panic => exact absurd rfl h
  | _ => rfl

/-- a bind that returns a value got one from its first part -/
theorem bind_eq_ok {x : Outcome ε α} {f : α → Outcome ε β} {b : β} :
    (x >>= f) = .ok b ↔ ∃ a, x = .ok a ∧ f a = .ok b := by
  cases x <;> simp

theorem bind_bind {γ : Type} (x : Outcome ε α) (f : α → Outcome ε β) (g : β → Outcome ε γ) :
    (x >>= f >>= g) = x >>= fun a => f a >>= g := by
  cases x <;> rfl

end Outcome

abbrev Bytes := List UInt8

/-- a consumer of a prefix of a byte buffer -/
def Reader (ε α : Type) := Bytes → Outcome ε (α × Bytes)

namespace Reader

variable {ε α β : Type}

instance : Monad (Reader ε) where
  pure a := fun b => .ok (a, b)
  bind x f := fun b => x b >>= fun r => f r.1 r.2

@[simp] theorem pure_apply (a : α) (b : Bytes) : (pure a : Reader ε α) b = .ok (a, b) := rfl
@[simp] theorem bind_apply (x : Reader ε α) (f : α → Reader ε β) (b : Bytes) :
    (x >>= f) b = (x b >>= fun r => f r.1 r.2) := rfl

/-- a bind that succeeds succeeded in both parts -/
theorem bind_eq_ok {x : Reader ε α} {f : α → Reader ε β} {b r : Bytes} {c : β} :
    (x >>= f) b = .ok (c, r) ↔ ∃ a b', x b = .ok (a, b') ∧ f a b' = .ok (c, r) := by
  simp [Outcome.bind_eq_ok]

/-- run a reader on a whole buffer, dropping what it leaves -/
def run (x : Reader ε α) (b : Bytes) : Outcome ε α := x b >>= fun r => .ok r.1

/-- return an error value -/
def fail (e : ε) : Reader ε α := fun _ => .err e

@[simp] theorem fail_apply (e : ε) (b : Bytes) : (fail e : Reader ε α) b = .err e := rfl

/-- an outcome that does not depend on the buffer -/
def lift (x : Outcome ε α) : Reader ε α := fun b => x >>= fun a => .ok (a, b)

@[simp] theorem lift_apply (x : Outcome ε α) (b : Bytes) : lift x b = (x >>= fun a => .ok (a, b)) := rfl

/-- the number of bytes left -/
def remaining : Reader ε Nat := fun b => .ok (b.length, b)

@[simp] theorem remaining_apply (b : Bytes) : (remaining : Reader ε Nat) b = .ok (b.length, b) := rfl

/-- the bytes left, not consumed -/
def peek : Reader ε Bytes := fun b => .ok (b, b)

@[simp] theorem peek_apply (b : Bytes) : (peek : Reader ε Bytes) b = .ok (b, b) := rfl

def getU8 : Reader ε UInt8
  | [] => .panic
  | x :: b => .ok (x, b)

@[simp] theorem getU8_cons (x : UInt8) (b : Bytes) : (getU8 : Reader ε UInt8) (x :: b) = .ok (x, b) := rfl

def advance (n : Nat) : Reader ε Unit := fun b => if n ≤ b.length then .ok ((), b.drop n) else .panic

/-- `buf[..n]`, which does not advance -/
def slice (n : Nat) : Reader ε Bytes := fun b => if n ≤ b.length then .ok (b.take n, b) else .panic

/-- all of the buffer -/
@[simp] theorem slice_length (b : Bytes) : (slice b.length : Reader ε Bytes) b = .ok (b, b) := by
  simp [slice]

theorem advance_append (n : Nat) (a b : Bytes) (h : a.length = n) :
    (advance n : Reader ε Unit) (a ++ b) = .ok ((), b) := by
  subst h; simp [advance]

def getU16 : Reader ε UInt16
  | a :: b :: r => .ok (UInt16.ofNat (a.toNat * 2 ^ 8 + b.toNat), r)
  | _ => .panic

def getU32 : Reader ε UInt32
  | a :: b :: c :: d :: r =>
    .ok (UInt32.ofNat (a.toNat * 2 ^ 24 + b.toNat * 2 ^ 16 + c.toNat * 2 ^ 8 + d.toNat), r)
  | _ => .panic

/-- `copy_to_slice` of `n` bytes -/
def getBytes (n : Nat) : Reader ε (Vector UInt8 n) := fun b =>
  if h : n ≤ b.length then .ok (⟨(b.take n).toArray, by simp [h]⟩, b.drop n) else .panic

@[simp] theorem getBytes_append {n : Nat} (v : Vector UInt8 n) (b : Bytes) :
    (getBytes n : Reader ε (Vector UInt8 n)) (v.toList ++ b) = .ok (v, b) := by
  have hlen : n ≤ (v.toList ++ b).length := by simp
  have htake : (v.toList ++ b).take n = v.toList := by rw [List.take_left' (by simp)]
  have hdrop : (v.toList ++ b).drop n = b := by rw [List.drop_left' (by simp)]
  simp only [getBytes, dif_pos hlen, htake, hdrop, Outcome.ok.injEq, Prod.mk.injEq, and_true]
  exact Vector.toArray_inj.1 v.toArray.toArray_toList

/-- an `i64`, read as its 64 bits -/
def getI64 : Reader ε UInt64
  | a :: b :: c :: d :: e :: f :: g :: h :: r =>
    .ok (UInt64.ofNat (a.toNat * 2 ^ 56 + b.toNat * 2 ^ 48 + c.toNat * 2 ^ 40 + d.toNat * 2 ^ 32 +
      e.toNat * 2 ^ 24 + f.toNat * 2 ^ 16 + g.toNat * 2 ^ 8 + h.toNat), r)
  | _ => .panic

end Reader

/-- the byte of `n` that starts at bit `k` -/
def byteAt (n k : Nat) : UInt8 := UInt8.ofNat (n / 2 ^ k)

@[simp] theorem byteAt_toNat (n k : Nat) : (byteAt n k).toNat = n / 2 ^ k % 2 ^ 8 := by
  simp [byteAt]

def putU16 (x : UInt16) : Bytes := [byteAt x.toNat 8, byteAt x.toNat 0]

def putU32 (x : UInt32) : Bytes := [byteAt x.toNat 24, byteAt x.toNat 16, byteAt x.toNat 8, byteAt x.toNat 0]

def putI64 (x : UInt64) : Bytes :=
  [byteAt x.toNat 56, byteAt x.toNat 48, byteAt x.toNat 40, byteAt x.toNat 32, byteAt x.toNat 24, byteAt x.toNat 16,
    byteAt x.toNat 8, byteAt x.toNat 0]

@[simp] theorem length_putU16 (x : UInt16) : (putU16 x).length = 2 := rfl
@[simp] theorem length_putU32 (x : UInt32) : (putU32 x).length = 4 := rfl
@[simp] theorem length_putI64 (x : UInt64) : (putI64 x).length = 8 := rfl

namespace Reader

variable {ε : Type}

/-- the byte at bit `k`, and the bytes below it -/
theorem byte_add_below (n k : Nat) : n / 2 ^ k % 2 ^ 8 * 2 ^ k + n % 2 ^ k = n % 2 ^ (k + 8) := by
  rw [Nat.pow_add, Nat.mod_mul, Nat.mul_comm, Nat.add_comm]

theorem two_bytes (n : Nat) : n / 2 ^ 8 % 2 ^ 8 * 2 ^ 8 + n / 2 ^ 0 % 2 ^ 8 = n % 2 ^ 16 := by
  rw [Nat.pow_zero, Nat.div_one]
  exact byte_add_below n 8

theorem four_bytes (n : Nat) :
    n / 2 ^ 24 % 2 ^ 8 * 2 ^ 24 + n / 2 ^ 16 % 2 ^ 8 * 2 ^ 16 + n / 2 ^ 8 % 2 ^ 8 * 2 ^ 8 + n / 2 ^ 0 % 2 ^ 8 =
      n % 2 ^ 32 := by
  rw [Nat.add_assoc, two_bytes, Nat.add_assoc, byte_add_below n 16]
  exact byte_add_below n 24

theorem eight_bytes (n : Nat) :
    n / 2 ^ 56 % 2 ^ 8 * 2 ^ 56 + n / 2 ^ 48 % 2 ^ 8 * 2 ^ 48 + n / 2 ^ 40 % 2 ^ 8 * 2 ^ 40 +
      n / 2 ^ 32 % 2 ^ 8 * 2 ^ 32 + n / 2 ^ 24 % 2 ^ 8 * 2 ^ 24 + n / 2 ^ 16 % 2 ^ 8 * 2 ^ 16 +
      n / 2 ^ 8 % 2 ^ 8 * 2 ^ 8 + n / 2 ^ 0 % 2 ^ 8 = n % 2 ^ 64 := by
  rw [Nat.add_assoc, two_bytes, Nat.add_assoc, byte_add_below n 16, Nat.add_assoc, byte_add_below n 24, Nat.add_assoc,
    byte_add_below n 32, Nat.add_assoc, byte_add_below n 40, Nat.add_assoc, byte_add_below n 48]
  exact byte_add_below n 56

@[simp] theorem getU16_putU16 (x : UInt16) (r : Bytes) :
    (getU16 : Reader ε UInt16) (putU16 x ++ r) = .ok (x, r) := by
  simp only [putU16, List.cons_append, List.nil_append, getU16, byteAt_toNat, two_bytes]
  rw [Nat.mod_eq_of_lt x.toNat_lt, UInt16.ofNat_toNat]

@[simp] theorem getU32_putU32 (x : UInt32) (r : Bytes) :
    (getU32 : Reader ε UInt32) (putU32 x ++ r) = .ok (x, r) := by
  simp only [putU32, List.cons_append, List.nil_append, getU32, byteAt_toNat, four_bytes]
  rw [Nat.mod_eq_of_lt x.toNat_lt, UInt32.ofNat_toNat]

@[simp] theorem getI64_putI64 (x : UInt64) (r : Bytes) :
    (getI64 : Reader ε UInt64) (putI64 x ++ r) = .ok (x, r) := by
  simp only [putI64, List.cons_append, List.nil_append, getI64, byteAt_toNat, eight_bytes]
  rw [Nat.mod_eq_of_lt x.toNat_lt, UInt64.ofNat_toNat]

/-! ## Readers of a fixed size -/

/-- whenever `x` succeeds it has consumed exactly `n` bytes -/
def Takes {α : Type} (x : Reader ε α) (n : Nat) : Prop := ∀ b a r, x b = .ok (a, r) → b.length = n + r.length

variable {α β : Type}

theorem takes_pure (a : α) : Takes (pure a : Reader ε α) 0 := by
  intro b a r h
  simp only [pure_apply, Outcome.ok.injEq, Prod.mk.injEq] at h
  simp [h.2]

theorem takes_fail (e : ε) (n : Nat) : Takes (fail e : Reader ε α) n := by
  intro b a r h
  simp at h

theorem takes_lift (x : Outcome ε α) : Takes (lift x) 0 := by
  intro b a r h
  obtain ⟨a', -, h⟩ := Outcome.bind_eq_ok.1 h
  simp only [Outcome.ok.injEq, Prod.mk.injEq] at h
  simp [h.2]

theorem takes_remaining : Takes (remaining : Reader ε Nat) 0 := by
  intro b a r h
  simp only [remaining_apply, Outcome.ok.injEq, Prod.mk.injEq] at h
  simp [h.2]

theorem takes_peek : Takes (peek : Reader ε Bytes) 0 := by
  intro b a r h
  simp only [peek_apply, Outcome.ok.injEq, Prod.mk.injEq] at h
  simp [h.2]

theorem takes_getU8 : Takes (getU8 : Reader ε UInt8) 1 := by
  intro b a r h
  match b with
  | [] => simp [getU8] at h
  | x :: b =>
    simp only [getU8, Outcome.ok.injEq, Prod.mk.injEq] at h
    simp only [← h.2, List.length_cons]; omega

theorem takes_getU16 : Takes (getU16 : Reader ε UInt16) 2 := by
  intro b a r h
  match b with
  | [] | [_] => simp [getU16] at h
  | x :: y :: b =>
    simp only [getU16, Outcome.ok.injEq, Prod.mk.injEq] at h
    simp only [← h.2, List.length_cons]; omega

theorem takes_getU32 : Takes (getU32 : Reader ε UInt32) 4 := by
  intro b a r h
  match b with
  | [] | [_] | [_, _] | [_, _, _] => simp [getU32] at h
  | x :: y :: z :: w :: b =>
    simp only [getU32, Outcome.ok.injEq, Prod.mk.injEq] at h
    simp only [← h.2, List.length_cons]; omega

theorem takes_advance (n : Nat) : Takes (advance n : Reader ε Unit) n := by
  intro b a r h
  unfold advance at h
  split_ifs at h with hn
  simp only [Outcome.ok.injEq, Prod.mk.injEq] at h
  simp only [← h.2, List.length_drop]; omega

/-- sizes add along a bind -/
theorem Takes.bind {x : Reader ε α} {f : α → Reader ε β} {m n : Nat} (hx : Takes x m) (hf : ∀ a, Takes (f a) n) :
    Takes (x >>= f) (m + n) := by
  intro b c r h
  obtain ⟨a, b', h1, h2⟩ := bind_eq_ok.1 h
  rw [hx b a b' h1, hf a b' c r h2, Nat.add_assoc]

theorem Takes.ite {c : Prop} [Decidable c] {x y : Reader ε α} {n : Nat} (hx : Takes x n) (hy : Takes y n) :
    Takes (if c then x else y) n := by
  split_ifs
  · exact hx
  · exact hy

/-! ## What a success consumes -/

/-- whenever `x` succeeds, the bytes it consumed and its value are related by `P` -/
def Consumes (x : Reader ε α) (P : Bytes → α → Prop) : Prop :=
  ∀ b a r, x b = .ok (a, r) → ∃ e, b = e ++ r ∧ P e a

theorem consumes_pure {P : Bytes → α → Prop} {a : α} (h : P [] a) : Consumes (pure a : Reader ε α) P := by
  intro b a' r hb
  simp only [pure_apply, Outcome.ok.injEq, Prod.mk.injEq] at hb
  obtain ⟨rfl, rfl⟩ := hb
  exact ⟨[], rfl, h⟩

theorem consumes_fail (e : ε) (P : Bytes → α → Prop) : Consumes (fail e : Reader ε α) P := by
  intro b a r h
  simp at h

theorem consumes_getU8 : Consumes (getU8 : Reader ε UInt8) fun e x => e = [x] := by
  intro b x r h
  cases b with
  | nil => simp [getU8] at h
  | cons y b =>
    simp only [getU8, Outcome.ok.injEq, Prod.mk.injEq] at h
    obtain ⟨rfl, rfl⟩ := h
    exact ⟨[y], rfl, rfl⟩

theorem byteAt_eq {n k : Nat} {x : UInt8} (h : n / 2 ^ k % 2 ^ 8 = x.toNat) : byteAt n k = x :=
  UInt8.toNat_inj.1 ((byteAt_toNat n k).trans h)

/-- the number of two bytes, high byte first -/
theorem toNat_u16_of_bytes (x y : UInt8) :
    (UInt16.ofNat (x.toNat * 2 ^ 8 + y.toNat)).toNat = x.toNat * 2 ^ 8 + y.toNat := by
  have hx := x.toNat_lt
  have hy := y.toNat_lt
  rw [UInt16.toNat_ofNat', Nat.mod_eq_of_lt (by omega)]

theorem putU16_bytes (x y : UInt8) : putU16 (UInt16.ofNat (x.toNat * 2 ^ 8 + y.toNat)) = [x, y] := by
  have hx := x.toNat_lt
  have hy := y.toNat_lt
  rw [putU16, toNat_u16_of_bytes, byteAt_eq (x := x) (by omega), byteAt_eq (x := y) (by omega)]

theorem putU32_bytes (x y z w : UInt8) :
    putU32 (UInt32.ofNat (x.toNat * 2 ^ 24 + y.toNat * 2 ^ 16 + z.toNat * 2 ^ 8 + w.toNat)) = [x, y, z, w] := by
  have hx := x.toNat_lt
  have hy := y.toNat_lt
  have hz := z.toNat_lt
  have hw := w.toNat_lt
  have hn : (UInt32.ofNat (x.toNat * 2 ^ 24 + y.toNat * 2 ^ 16 + z.toNat * 2 ^ 8 + w.toNat)).toNat =
      x.toNat * 2 ^ 24 + y.toNat * 2 ^ 16 + z.toNat * 2 ^ 8 + w.toNat := by
    rw [UInt32.toNat_ofNat', Nat.mod_eq_of_lt (by omega)]
  rw [putU32, hn, byteAt_eq (x := x) (by omega), byteAt_eq (x := y) (by omega), byteAt_eq (x := z) (by omega),
    byteAt_eq (x := w) (by omega)]

theorem consumes_getU16 : Consumes (getU16 : Reader ε UInt16) fun e x => e = putU16 x := by
  intro b v r h
  match b with
  | [] | [_] => simp [getU16] at h
  | x :: y :: b =>
    simp only [getU16, Outcome.ok.injEq, Prod.mk.injEq] at h
    obtain ⟨rfl, rfl⟩ := h
    exact ⟨[x, y], rfl, (putU16_bytes x y).symm⟩

theorem consumes_getU32 : Consumes (getU32 : Reader ε UInt32) fun e x => e = putU32 x := by
  intro b v r h
  match b with
  | [] | [_] | [_, _] | [_, _, _] => simp [getU32] at h
  | x :: y :: z :: w :: b =>
    simp only [getU32, Outcome.ok.injEq, Prod.mk.injEq] at h
    obtain ⟨rfl, rfl⟩ := h
    exact ⟨[x, y, z, w], rfl, (putU32_bytes x y z w).symm⟩

/-- what the first part consumed comes before what the second consumes -/
theorem Consumes.bind {x : Reader ε α} {f : α → Reader ε β} {P : Bytes → α → Prop} {Q : Bytes → β → Prop}
    (hx : Consumes x P) (hf : ∀ a e, P e a → Consumes (f a) fun e' c => Q (e ++ e') c) : Consumes (x >>= f) Q := by
  intro b c r h
  obtain ⟨a, b', h1, h2⟩ := bind_eq_ok.1 h
  obtain ⟨e, rfl, hp⟩ := hx b a b' h1
  obtain ⟨e', rfl, hq⟩ := hf a e hp b' c r h2
  exact ⟨e ++ e', (List.append_assoc e e' r).symm, hq⟩

/-- a computation that reads nothing -/
theorem consumes_lift {x : Outcome ε α} {P : Bytes → α → Prop} (h : ∀ a, x = .ok a → P [] a) :
    Consumes (lift x) P := by
  intro b a r hb
  obtain ⟨a', hx, hb⟩ := Outcome.bind_eq_ok.1 hb
  simp only [Outcome.ok.injEq, Prod.mk.injEq] at hb
  obtain ⟨rfl, rfl⟩ := hb
  exact ⟨[], rfl, h a' hx⟩

theorem Consumes.ite {c : Prop} [Decidable c] {x y : Reader ε α} {P : Bytes → α → Prop} (hx : c → Consumes x P)
    (hy : ¬ c → Consumes y P) : Consumes (if c then x else y) P := by
  split_ifs with hc
  · exact hx hc
  · exact hy hc

/-- a length check -/
theorem Consumes.guard {y : Reader ε α} {P : Bytes → α → Prop} (hy : Consumes y P) (e : ε) (k : Nat) :
    Consumes (remaining >>= fun left => if left < k then fail e else y) P := by
  intro b a r h
  simp only [bind_apply, remaining_apply, Outcome.bind_ok] at h
  split_ifs at h
  · simp at h
  · exact hy b a r h

/-! ## Readers that read back what was written -/

/-- `x` reads `a` from the bytes `enc` and leaves what follows them -/
def Reads (x : Reader ε α) (enc : Bytes) (a : α) : Prop := ∀ r, x (enc ++ r) = .ok (a, r)

theorem reads_pure (a : α) : Reads (pure a : Reader ε α) [] a := fun _ => rfl

theorem reads_lift (a : α) : Reads (lift (.ok a) : Reader ε α) [] a := fun _ => rfl

theorem reads_getU8 (x : UInt8) : Reads (getU8 : Reader ε UInt8) [x] x := fun _ => rfl

theorem reads_getU16 (x : UInt16) : Reads (getU16 : Reader ε UInt16) (putU16 x) x := getU16_putU16 x

theorem reads_getU32 (x : UInt32) : Reads (getU32 : Reader ε UInt32) (putU32 x) x := getU32_putU32 x

theorem reads_getI64 (x : UInt64) : Reads (getI64 : Reader ε UInt64) (putI64 x) x := getI64_putI64 x

/-- encodings are read back one after another -/
theorem Reads.bind {x : Reader ε α} {f : α → Reader ε β} {e e' : Bytes} {a : α} {b : β} (hx : Reads x e a)
    (hf : Reads (f a) e' b) : Reads (x >>= f) (e ++ e') b := by
  intro r
  rw [bind_apply, List.append_assoc, hx, Outcome.bind_ok]
  exact hf r

/-- the last part, whose encoding is not followed by another one -/
theorem Reads.map {x : Reader ε α} {e : Bytes} {a : α} (hx : Reads x e a) (g : α → β) :
    Reads (x >>= fun a => pure (g a)) e (g a) := by
  intro r
  rw [bind_apply, hx, Outcome.bind_ok, pure_apply]

/-- a length check that the encoding passes -/
theorem Reads.guard {y : Reader ε α} {enc : Bytes} {a : α} {k : Nat} (hy : Reads y enc a) (e : ε) (hk : k ≤ enc.length) :
    Reads (remaining >>= fun left => if left < k then fail e else y) enc a := by
  intro r
  rw [bind_apply, remaining_apply, Outcome.bind_ok, if_neg (by rw [List.length_append]; omega)]
  exact hy r

theorem Reads.run {x : Reader ε α} {enc : Bytes} {a : α} (h : Reads x enc a) : run x enc = .ok a := by
  have hx := h []
  rw [List.append_nil] at hx
  rw [Reader.run, hx]
  rfl

/-! ## Readers that never run out of bytes -/

/-- on a buffer of at least `n` bytes `x` does not panic, and a success leaves at least `m` bytes -/
def Safe (x : Reader ε α) (n m : Nat) : Prop :=
  ∀ b, n ≤ b.length → x b ≠ .panic ∧ ∀ a r, x b = .ok (a, r) → m ≤ r.length

theorem safe_pure (a : α) (n : Nat) : Safe (pure a : Reader ε α) n n := by
  intro b hb
  refine ⟨by simp, ?_⟩
  intro a' r h
  simp only [pure_apply, Outcome.ok.injEq, Prod.mk.injEq] at h
  exact h.2 ▸ hb

theorem safe_fail (e : ε) (n m : Nat) : Safe (fail e : Reader ε α) n m := by
  intro b _
  simp

theorem safe_getU8 (n : Nat) : Safe (getU8 : Reader ε UInt8) (n + 1) n := by
  intro b hb
  match b with
  | [] => simp at hb
  | x :: b =>
    refine ⟨by simp, ?_⟩
    intro a r h
    have := takes_getU8 _ _ _ h
    omega

theorem safe_getU16 (n : Nat) : Safe (getU16 : Reader ε UInt16) (n + 2) n := by
  intro b hb
  match b with
  | [] | [_] => simp at hb
  | x :: y :: b =>
    refine ⟨by simp [getU16], ?_⟩
    intro a r h
    have := takes_getU16 _ _ _ h
    omega

theorem safe_getU32 (n : Nat) : Safe (getU32 : Reader ε UInt32) (n + 4) n := by
  intro b hb
  match b with
  | [] | [_] | [_, _] | [_, _, _] => simp at hb
  | x :: y :: z :: w :: b =>
    refine ⟨by simp [getU32], ?_⟩
    intro a r h
    have := takes_getU32 _ _ _ h
    omega

theorem safe_getI64 (n : Nat) : Safe (getI64 : Reader ε UInt64) (n + 8) n := by
  intro b hb
  match b with
  | [] | [_] | [_, _] | [_, _, _] | [_, _, _, _] | [_, _, _, _, _] | [_, _, _, _, _, _] | [_, _, _, _, _, _, _] =>
    simp at hb
  | _ :: _ :: _ :: _ :: _ :: _ :: _ :: _ :: b =>
    refine ⟨by simp [getI64], ?_⟩
    intro a r h
    simp only [getI64, Outcome.ok.injEq, Prod.mk.injEq] at h
    simp only [List.length_cons] at hb
    rw [← h.2]
    omega

theorem safe_advance (k n : Nat) : Safe (advance k : Reader ε Unit) (n + k) n := by
  intro b hb
  refine ⟨by simp [advance, show k ≤ b.length by omega], ?_⟩
  intro a r h
  have := takes_advance k _ _ _ h
  omega

theorem safe_slice {n k : Nat} (h : n ≤ k) : Safe (slice n : Reader ε Bytes) k k := by
  intro b hb
  have hn : n ≤ b.length := h.trans hb
  refine ⟨by simp [slice, hn], ?_⟩
  intro a r hr
  simp only [slice, if_pos hn, Outcome.ok.injEq, Prod.mk.injEq] at hr
  exact hr.2 ▸ hb

theorem safe_getBytes (k n : Nat) : Safe (getBytes k : Reader ε (Vector UInt8 k)) (n + k) n := by
  intro b hb
  have hk : k ≤ b.length := by omega
  refine ⟨by simp [getBytes, hk], ?_⟩
  intro a r h
  simp only [getBytes, dif_pos hk, Outcome.ok.injEq, Prod.mk.injEq] at h
  rw [← h.2, List.length_drop]
  omega

/-- what the first part leaves is enough for the second -/
theorem Safe.bind {x : Reader ε α} {f : α → Reader ε β} {n m k : Nat} (hx : Safe x n m) (hf : ∀ a, Safe (f a) m k) :
    Safe (x >>= f) n k := by
  intro b hb
  obtain ⟨hnp, hleft⟩ := hx b hb
  cases h : x b with
  | ok r =>
    simp only [bind_apply, h, Outcome.bind_ok]
    exact hf r.1 r.2 (hleft r.1 r.2 h)
  | err e => simp [h]
  | panic => exact absurd h hnp

theorem Safe.ite {c : Prop} [Decidable c] {x y : Reader ε α} {n m : Nat} (hx : Safe x n m) (hy : Safe y n m) :
    Safe (if c then x else y) n m := by
  split_ifs
  · exact hx
  · exact hy

theorem Safe.mono {x : Reader ε α} {n n' m m' : Nat} (h : Safe x n m) (hn : n ≤ n') (hm : m' ≤ m) : Safe x n' m' := by
  intro b hb
  obtain ⟨hnp, hleft⟩ := h b (hn.trans hb)
  exact ⟨hnp, fun a r hr => hm.trans (hleft a r hr)⟩

/-- a check of the bytes left guards what follows -/
theorem safe_guard {y : Reader ε α} {k m : Nat} (e : ε) (hy : Safe y k m) (n : Nat) :
    Safe (remaining >>= fun left => if left < k then fail e else y) n m := by
  intro b _
  simp only [bind_apply, remaining_apply, Outcome.bind_ok]
  split_ifs with h
  · simp
  · exact hy b (by omega)

/-- a check that there is a byte left -/
theorem safe_guard_empty {y : Reader ε α} {m : Nat} (e : ε) (hy : Safe y 1 m) (n : Nat) :
    Safe (remaining >>= fun left => if left = 0 then fail e else y) n m := by
  intro b _
  simp only [bind_apply, remaining_apply, Outcome.bind_ok]
  split_ifs with h
  · simp
  · exact hy b (Nat.one_le_iff_ne_zero.2 h)

/-- a reader that needs no bytes to start with does not panic -/
theorem Safe.run_ne_panic {x : Reader ε α} {m : Nat} (h : Safe x 0 m) (b : Bytes) : run x b ≠ .panic := by
  obtain ⟨hnp, -⟩ := h b (Nat.zero_le _)
  unfold run
  cases hx : x b with
  | ok r => simp
  | err e => simp
  | panic => exact absurd hx hnp

end Reader

end Lib.Wire
