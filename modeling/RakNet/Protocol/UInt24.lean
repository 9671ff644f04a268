/-
24-bit sequence numbers (`src/protocol/uint24.rs`).

`u32` values are natural numbers below 2^32 with the wrapping operations written out (`wrappingAdd`, `wrappingSub`);
a `U24` carries the bound the Rust type keeps by masking. `AtomicU24` holds a raw `u32` that `fetch_add` never masks:
only what it returns is masked.

- `AtomicU24.load_next`: a cell used with `fetch_add(1)` counts modulo 2^24, past 2^32 too.
- `seqLessThan_iff`: the signed 24-bit comparison is "the 24-bit distance from b to a is at least 2^23".
- `seqLessThan_of_lt`: below 2^23 it is the order of the natural numbers.
- `readU24_writeU24`: the little-endian read gives back what was written.
-/
import Mathlib.Data.Nat.Bitwise
import RakNet.Error

namespace RakNet

open Lib.Wire

/-! ## Wrapping u32 arithmetic -/

/-- `u32::wrapping_add` -/
def wrappingAdd (a b : Nat) : Nat := (a + b) % 2 ^ 32

/-- `u32::wrapping_sub` -/
def wrappingSub (a b : Nat) : Nat := (a + (2 ^ 32 - b)) % 2 ^ 32

/-- the mask of the 24 low bits -/
def mask24 : Nat := 0x00FFFFFF

theorem and_mask24 (n : Nat) : n &&& mask24 = n % 2 ^ 24 :=
  Nat.and_two_pow_sub_one_eq_mod n 24

/-- the masked difference the receive window and the comparison use -/
theorem wrappingSub_and_mask24 (a b : Nat) :
    wrappingSub a b &&& mask24 = (a + (2 ^ 32 - b)) % 2 ^ 24 := by
  rw [and_mask24, wrappingSub]; omega

/-! ## u24 -/

/-- a 24-bit unsigned integer -/
structure U24 where
  val : Nat
  isLt : val < 2 ^ 24
deriving DecidableEq, Repr

namespace U24

/-- `u24::new`: masks off the upper 8 bits -/
def new (v : Nat) : U24 := ⟨v &&& mask24, by rw [and_mask24]; exact Nat.mod_lt _ (by norm_num)⟩

/-- `u24::get` -/
def get (a : U24) : Nat := a.val

theorem get_lt (a : U24) : a.get < 2 ^ 24 := a.isLt

@[simp] theorem get_new (v : Nat) : (new v).get = v % 2 ^ 24 := and_mask24 v

@[ext] theorem ext {a b : U24} (h : a.get = b.get) : a = b := by
  cases a; cases b; cases h; rfl

@[simp] theorem new_get (a : U24) : new a.get = a := by
  ext; rw [get_new, Nat.mod_eq_of_lt a.get_lt]

theorem get_new_of_lt {v : Nat} (h : v < 2 ^ 24) : (new v).get = v := by
  rw [get_new, Nat.mod_eq_of_lt h]

/-- `u24::wrapping_add` -/
def wrappingAdd (a : U24) (rhs : Nat) : U24 := new (RakNet.wrappingAdd a.get rhs)

/-- `u24::wrapping_sub` -/
def wrappingSub (a : U24) (rhs : Nat) : U24 := new (RakNet.wrappingSub a.get rhs)

/-- `u24::checked_add`: the sum is a plain `+` of two `u32` -/
def checkedAdd (p : Profile) (a : U24) (rhs : Nat) : Result (Option U24) := do
  let result ← p.add 32 a.get rhs
  return if h : mask24 < result then none else some ⟨result, Nat.lt_succ_of_le (Nat.le_of_not_lt h)⟩

/-- `u24::checked_sub`: the difference is a plain `-` of two `u32`, taken without a mask -/
def checkedSub (p : Profile) (a : U24) (rhs : Nat) : Result (Option U24) :=
  if a.get < rhs then return none
  else do
    let result ← p.sub 32 a.get rhs
    return some (new result)

/-- `u24::saturating_add`: `u32::saturating_add` first -/
def saturatingAdd (a : U24) (rhs : Nat) : U24 :=
  let result := min (a.get + rhs) (2 ^ 32 - 1)
  if h : mask24 < result then ⟨mask24, by decide⟩ else ⟨result, Nat.lt_succ_of_le (Nat.le_of_not_lt h)⟩

/-- `u24::saturating_sub` -/
def saturatingSub (a : U24) (rhs : Nat) : U24 := ⟨a.get - rhs, (Nat.sub_le _ _).trans_lt a.get_lt⟩

end U24

/-! ## AtomicU24 -/

/-- the raw `u32` cell behind an `AtomicU24` -/
structure AtomicU24 where
  raw : Nat
deriving DecidableEq, Repr

namespace AtomicU24

def new (v : Nat) : AtomicU24 := ⟨v &&& mask24⟩

def load (a : AtomicU24) : U24 := U24.new a.raw

/-- `fetch_add`: returns the old value masked; the cell itself wraps at 2^32, not at 2^24 -/
def fetchAdd (a : AtomicU24) (v : Nat) : U24 × AtomicU24 := (U24.new a.raw, ⟨wrappingAdd a.raw v⟩)

/-- the cell after an increment loads as the successor modulo 2^24 -/
theorem load_fetchAdd_one (a : AtomicU24) : (a.fetchAdd 1).2.load = U24.new (a.load.get + 1) := by
  ext; simp only [fetchAdd, load, U24.get_new, wrappingAdd]; omega

/-- a count in the cell goes up by one -/
theorem load_next {a : AtomicU24} {n : Nat} (h : a.load = U24.new n) : (a.fetchAdd 1).2.load = U24.new (n + 1) := by
  rw [load_fetchAdd_one, h]
  ext
  rw [U24.get_new, U24.get_new, U24.get_new]
  omega

/-- `store`: replaces the whole cell -/
def store (_ : AtomicU24) (v : U24) : AtomicU24 := ⟨v.get⟩

def swap (a : AtomicU24) (v : U24) : U24 × AtomicU24 := (U24.new a.raw, ⟨v.get⟩)

/-- `fetch_sub`: wraps at 2^32, as `fetch_add` does -/
def fetchSub (a : AtomicU24) (v : Nat) : U24 × AtomicU24 := (U24.new a.raw, ⟨wrappingSub a.raw v⟩)

/-- `compare_exchange`: it is the whole cell that is compared -/
def compareExchange (a : AtomicU24) (current new : U24) : Except U24 U24 × AtomicU24 :=
  if a.raw = current.get then (.ok (U24.new a.raw), ⟨new.get⟩) else (.error (U24.new a.raw), a)

@[simp] theorem fetchAdd_fst (a : AtomicU24) (v : Nat) : (a.fetchAdd v).1 = a.load := rfl

end AtomicU24

/-! ## Little-endian bytes -/

/-- `write_u24_le` -/
def writeU24 (v : U24) : Bytes :=
  [UInt8.ofNat (v.get &&& 0xFF), UInt8.ofNat ((v.get >>> 8) &&& 0xFF), UInt8.ofNat ((v.get >>> 16) &&& 0xFF)]

/-- `read_u24_le`: indexes the first three bytes of the slice and does not advance it -/
def readU24 {ε : Type} : Bytes → Outcome ε U24
  | a :: b :: c :: _ => .ok (U24.new (a.toNat ||| (b.toNat <<< 8) ||| (c.toNat <<< 16)))
  | _ => .panic

@[simp] theorem length_writeU24 (v : U24) : (writeU24 v).length = 3 := rfl

theorem or_shift_bytes {a b c : Nat} (ha : a < 2 ^ 8) (hb : b < 2 ^ 8) :
    a ||| (b <<< 8) ||| (c <<< 16) = a + b * 2 ^ 8 + c * 2 ^ 16 := by
  rw [Nat.or_comm a, ← Nat.shiftLeft_add_eq_or_of_lt ha, Nat.or_comm, ← Nat.shiftLeft_add_eq_or_of_lt]
  · simp only [Nat.shiftLeft_eq]; omega
  · simp only [Nat.shiftLeft_eq]; omega

theorem byte_toNat (n : Nat) : (UInt8.ofNat (n &&& 0xFF)).toNat = n % 2 ^ 8 := by
  have h : n &&& 0xFF = n % 2 ^ 8 := Nat.and_two_pow_sub_one_eq_mod n 8
  rw [h, UInt8.toNat_ofNat']
  exact Nat.mod_mod _ _

@[simp] theorem readU24_writeU24 {ε : Type} (v : U24) (r : Bytes) :
    (readU24 (writeU24 v ++ r) : Outcome ε U24) = .ok v := by
  have h := v.get_lt
  have hv : (UInt8.ofNat (v.get &&& 0xFF)).toNat ||| (UInt8.ofNat ((v.get >>> 8) &&& 0xFF)).toNat <<< 8 |||
      (UInt8.ofNat ((v.get >>> 16) &&& 0xFF)).toNat <<< 16 = v.get := by
    rw [or_shift_bytes (UInt8.toNat_lt _) (UInt8.toNat_lt _)]
    simp only [byte_toNat, Nat.shiftRight_eq_div_pow]
    omega
  simp only [writeU24, List.cons_append, List.nil_append, readU24, hv, U24.new_get]

/-- an index is looked at, and then skipped -/
theorem reads_u24 {ε α : Type} {f : U24 → Reader ε α} {v : U24} {e : Bytes} {a : α} (hf : Reader.Reads (f v) e a) :
    Reader.Reads (Reader.peek >>= fun b => Reader.lift (readU24 b) >>= fun i => Reader.advance 3 >>= fun _ => f i)
      (writeU24 v ++ e) a := by
  intro r
  simp only [Reader.bind_apply, Reader.peek_apply, Reader.lift_apply, Outcome.bind_ok, List.append_assoc,
    readU24_writeU24, Reader.advance_append 3 (writeU24 v) (e ++ r) (length_writeU24 v)]
  exact hf r

/-- the number of three bytes, low byte first -/
def u24Of (a b c : UInt8) : U24 := U24.new (a.toNat + b.toNat * 2 ^ 8 + c.toNat * 2 ^ 16)

theorem readU24_bytes {ε : Type} (a b c : UInt8) (rest : Bytes) :
    (readU24 (a :: b :: c :: rest) : Outcome ε U24) = .ok (u24Of a b c) := by
  rw [readU24, or_shift_bytes a.toNat_lt b.toNat_lt, u24Of]

theorem writeU24_u24Of (a b c : UInt8) : writeU24 (u24Of a b c) = [a, b, c] := by
  have ha := a.toNat_lt
  have hb := b.toNat_lt
  have hc := c.toNat_lt
  have hv : (u24Of a b c).get = a.toNat + b.toNat * 2 ^ 8 + c.toNat * 2 ^ 16 := U24.get_new_of_lt (by omega)
  have hbyte : ∀ {n : Nat} {x : UInt8}, n % 2 ^ 8 = x.toNat → UInt8.ofNat (n &&& 0xFF) = x := fun h =>
    UInt8.toNat_inj.1 ((byte_toNat _).trans h)
  rw [writeU24, hv, Nat.shiftRight_eq_div_pow, Nat.shiftRight_eq_div_pow, hbyte (x := a) (by omega),
    hbyte (x := b) (by omega), hbyte (x := c) (by omega)]

/-- a number is three bytes -/
theorem u24Of_surjective (v : U24) : ∃ a b c, v = u24Of a b c := by
  obtain ⟨a, b, c, hbytes⟩ : ∃ a b c, writeU24 v = [a, b, c] := ⟨_, _, _, rfl⟩
  have hread := readU24_writeU24 (ε := Unit) v []
  rw [hbytes, List.append_nil, readU24_bytes] at hread
  exact ⟨a, b, c, (Outcome.ok.inj hread).symm⟩

/-- an index that is looked at and skipped was three bytes -/
theorem consumes_u24 {ε α : Type} {f : U24 → Reader ε α} {Q : Bytes → α → Prop}
    (hf : ∀ v, Reader.Consumes (f v) fun e c => Q (writeU24 v ++ e) c) :
    Reader.Consumes (Reader.peek >>= fun b => Reader.lift (readU24 b) >>= fun i => Reader.advance 3 >>= fun _ => f i)
      Q := by
  intro b c r h
  match b with
  | [] | [_] | [_, _] => simp [readU24] at h
  | x :: y :: z :: b =>
    have hskip := Reader.advance_append (ε := ε) 3 [x, y, z] b rfl
    simp only [List.cons_append, List.nil_append] at hskip
    simp only [Reader.bind_apply, Reader.peek_apply, Reader.lift_apply, Outcome.bind_ok, readU24_bytes, hskip] at h
    obtain ⟨e, rfl, hq⟩ := hf _ b c r h
    refine ⟨writeU24 (u24Of x y z) ++ e, ?_, hq⟩
    rw [writeU24_u24Of]
    rfl

/-- three bytes are enough, and they stay in the buffer -/
theorem safe_readU24 {ε α : Type} {f : U24 → Reader ε α} {n m : Nat} (hf : ∀ v, Reader.Safe (f v) (n + 3) m) :
    Reader.Safe (Reader.peek >>= fun b => Reader.lift (readU24 b) >>= f) (n + 3) m := by
  intro b hb
  match b with
  | [] | [_] | [_, _] => simp at hb
  | x :: y :: z :: b =>
    simp only [Reader.bind_apply, Reader.peek_apply, Reader.lift_apply, Outcome.bind_ok, readU24]
    exact hf _ _ hb

/-! ## Comparison in sequence space -/

/-- a `u32` reinterpreted as an `i32` -/
def asI32 (n : Nat) : Int := if n < 2 ^ 31 then n else n - 2 ^ 32

/-- `seq_less_than`: the sign of the 24-bit difference -/
def seqLessThan (a b : Nat) : Bool :=
  let diff := wrappingSub a b &&& mask24
  let signedDiff := if diff &&& 0x00800000 ≠ 0 then asI32 (diff ||| 0xFF000000) else asI32 diff
  decide (signedDiff < 0)

/-- `seq_in_range` -/
def seqInRange (seq start last : Nat) : Bool :=
  if start ≤ last then decide (start ≤ seq) && decide (seq ≤ last) else decide (start ≤ seq) || decide (seq ≤ last)

theorem and_bit23 {d : Nat} (hd : d < 2 ^ 24) : d &&& 0x00800000 ≠ 0 ↔ 2 ^ 23 ≤ d := by
  rw [show (0x00800000 : Nat) = 2 ^ 23 from rfl, Nat.and_two_pow, Nat.testBit_eq_decide_div_mod_eq]
  by_cases h : d / 2 ^ 23 % 2 = 1
  · simp only [h, decide_true, Bool.toNat_true]; omega
  · simp only [h, decide_false, Bool.toNat_false]; omega

theorem or_signExtend {d : Nat} (hd : d < 2 ^ 24) : d ||| 0xFF000000 = d + 0xFF000000 := by
  have h := Nat.shiftLeft_add_eq_or_of_lt hd 0xFF
  rw [Nat.or_comm, show (0xFF000000 : Nat) = 0xFF <<< 24 from rfl, ← h, Nat.add_comm]

theorem seqLessThan_iff (a b : Nat) :
    seqLessThan a b = true ↔ 2 ^ 23 ≤ (a + (2 ^ 32 - b)) % 2 ^ 24 := by
  have hd : (a + (2 ^ 32 - b)) % 2 ^ 24 < 2 ^ 24 := Nat.mod_lt _ (by norm_num)
  simp only [seqLessThan, wrappingSub_and_mask24, and_bit23 hd, decide_eq_true_eq]
  split_ifs with h
  · rw [or_signExtend hd]
    simp only [asI32]
    rw [if_neg (by omega)]
    omega
  · simp only [asI32]
    rw [if_pos (by omega)]
    omega

/-- below 2^23 sequence order is the order of the naturals -/
theorem seqLessThan_of_lt {a b : Nat} (ha : a < 2 ^ 23) (hb : b < 2 ^ 23) : seqLessThan a b = decide (a < b) := by
  rw [Bool.eq_iff_iff, seqLessThan_iff, decide_eq_true_eq]
  omega

example : seqLessThan 0x00FFFFFE 5 = true ∧ seqLessThan 5 0x00FFFFFE = false := by decide

end RakNet
