/-
24-bit arithmetic against the integers (`src/protocol/uint24.rs`).

An integer becomes a `U24` in three ways: by its residue modulo 2^24, by being in range or not, or by clamping. These are what
the wrapping, checked and saturating methods are for.

- `arithmetic_exact_iff`: the six methods compute the exact sum and difference, as long as the sum fits a `u32`. Beyond that
  `checked_add` adds with a plain `+`: a `dev` build panics, a `release` build wraps and returns a sum that is too small.
- `seqLessThan_window`: on 2^23 consecutive numbers, at whatever base, sequence order is a strict total order, and shifting
  both numbers does not change it.
- `seqLessThan_doc_iff`: it is the order `docs/PROTOCOL.md` defines except for numbers exactly half the circle apart. Those
  come before each other, both ways.
- `register_iff`: an `AtomicU24` answers as a register of 24 bits does until a `compare_exchange` asks for the current value of
  a cell that has been carried past 2^24.
-/
import Mathlib.Tactic
import RakNet.Lib.Machine
import RakNet.Lib.Serial
import RakNet.Protocol.UInt24

namespace RakNet

open Lib Lib.Serial Lib.Wire

/-! ## Integers as 24-bit values -/

namespace U24

/-- the residue of an integer modulo 2^24 -/
def ofInt (z : ℤ) : U24 := ⟨(z % 2 ^ 24).toNat, by omega⟩

/-- an integer, if it is in range -/
def ofInt? (z : ℤ) : Option U24 := if h : 0 ≤ z ∧ z ≤ 2 ^ 24 - 1 then some ⟨z.toNat, by omega⟩ else none

/-- an integer clamped to the range -/
def clamp (z : ℤ) : U24 := ⟨(max 0 (min z (2 ^ 24 - 1))).toNat, by omega⟩

theorem get_ofInt (z : ℤ) : ((ofInt z).get : ℤ) = z % 2 ^ 24 := Int.toNat_of_nonneg (Int.emod_nonneg z (by norm_num))

theorem get_clamp (z : ℤ) : ((clamp z).get : ℤ) = max 0 (min z (2 ^ 24 - 1)) := Int.toNat_of_nonneg (le_max_left _ _)

/-- equal as integers -/
theorem ext_int {a b : U24} (h : (a.get : ℤ) = b.get) : a = b := ext (Int.ofNat_inj.1 h)

theorem ofInt?_of_mem {z : ℤ} {a : U24} (h : (a.get : ℤ) = z) : ofInt? z = some a := by
  have ha := a.get_lt
  have hz : 0 ≤ z ∧ z ≤ 2 ^ 24 - 1 := by omega
  rw [ofInt?, dif_pos hz, Option.some.injEq]
  apply ext_int
  rw [h]
  exact Int.toNat_of_nonneg hz.1

theorem ofInt?_of_not_mem {z : ℤ} (h : z < 0 ∨ 2 ^ 24 ≤ z) : ofInt? z = none := by
  rw [ofInt?, dif_neg (by omega)]

/-! ## The six methods -/

theorem wrappingAdd_eq (a : U24) (rhs : Nat) : a.wrappingAdd rhs = ofInt (a.get + rhs) := by
  apply ext_int
  rw [get_ofInt, wrappingAdd, get_new, RakNet.wrappingAdd]
  omega

theorem wrappingSub_eq (a : U24) {rhs : Nat} (h : rhs < 2 ^ 32) : a.wrappingSub rhs = ofInt (a.get - rhs) := by
  apply ext_int
  rw [get_ofInt, wrappingSub, get_new, RakNet.wrappingSub]
  omega

theorem saturatingAdd_eq (a : U24) (rhs : Nat) : a.saturatingAdd rhs = clamp (a.get + rhs) := by
  apply ext_int
  rw [get_clamp, saturatingAdd]
  split_ifs with hlarge
  · unfold mask24 at hlarge
    show ((0x00FFFFFF : Nat) : ℤ) = _
    omega
  · unfold mask24 at hlarge
    show ((min (a.get + rhs) (2 ^ 32 - 1) : Nat) : ℤ) = _
    omega

theorem saturatingSub_eq (a : U24) (rhs : Nat) : a.saturatingSub rhs = clamp (a.get - rhs) := by
  have ha := a.get_lt
  apply ext_int
  rw [get_clamp]
  show ((a.get - rhs : Nat) : ℤ) = _
  omega

/-- the guard keeps the subtraction from underflowing -/
theorem checkedSub_eq (p : Profile) (a : U24) (rhs : Nat) : a.checkedSub p rhs = .ok (ofInt? (a.get - rhs)) := by
  rw [checkedSub]
  split_ifs with hlt
  · rw [ofInt?_of_not_mem (.inl (by omega))]
    rfl
  · have ha := a.get_lt
    have hget : ((new (a.get - rhs)).get : ℤ) = a.get - rhs := by
      rw [get_new_of_lt (by omega)]
      omega
    rw [ofInt?_of_mem hget, p.sub_of_le (by omega)]
    rfl

theorem checkedAdd_of_lt (p : Profile) {a : U24} {rhs : Nat} (h : a.get + rhs < 2 ^ 32) :
    a.checkedAdd p rhs = .ok (ofInt? (a.get + rhs)) := by
  rw [checkedAdd, p.add_of_lt h, Outcome.bind_ok]
  show Outcome.ok _ = _
  congr 1
  split_ifs with hlarge
  · exact (ofInt?_of_not_mem (.inr (by unfold mask24 at hlarge; omega))).symm
  · exact (ofInt?_of_mem rfl).symm

/-- past 2^32 the sum of a `release` build is a 24-bit number again -/
theorem checkedAdd_of_le (p : Profile) {a : U24} {rhs : Nat} (hr : rhs < 2 ^ 32) (h : 2 ^ 32 ≤ a.get + rhs) :
    a.checkedAdd p rhs = match p with
      | .dev => .panic
      | .release => .ok (some (new (a.get + rhs))) := by
  have ha := a.get_lt
  cases p with
  | dev =>
    have hsum : Profile.dev.add 32 a.get rhs = .panic := if_neg (by omega)
    rw [checkedAdd, hsum]
    rfl
  | release =>
    have hsum : Profile.release.add 32 a.get rhs = .ok ((a.get + rhs) % 2 ^ 32) := if_neg (by omega)
    rw [checkedAdd, hsum, Outcome.bind_ok, dif_neg (by unfold mask24; omega)]
    show Outcome.ok (some _) = Outcome.ok (some _)
    congr 2
    ext
    rw [get_new]
    show (a.get + rhs) % 2 ^ 32 = _
    omega

/-- the six methods as exact arithmetic -/
structure Exact (p : Profile) (a : U24) (rhs : Nat) : Prop where
  wrappingAdd : a.wrappingAdd rhs = ofInt (a.get + rhs)
  wrappingSub : a.wrappingSub rhs = ofInt (a.get - rhs)
  checkedAdd : a.checkedAdd p rhs = .ok (ofInt? (a.get + rhs))
  checkedSub : a.checkedSub p rhs = .ok (ofInt? (a.get - rhs))
  saturatingAdd : a.saturatingAdd rhs = clamp (a.get + rhs)
  saturatingSub : a.saturatingSub rhs = clamp (a.get - rhs)

theorem arithmetic_exact_iff (p : Profile) (a : U24) (rhs : UInt32) :
    Exact p a rhs.toNat ↔ a.get + rhs.toNat < 2 ^ 32 := by
  have hr := rhs.toNat_lt
  constructor
  · intro h
    by_contra hlarge
    have hsum := h.checkedAdd
    rw [checkedAdd_of_le p hr (by omega), ofInt?_of_not_mem (.inr (by omega))] at hsum
    cases p with
    | dev => cases hsum
    | release => cases hsum
  · intro h
    exact ⟨wrappingAdd_eq a _, wrappingSub_eq a hr, checkedAdd_of_lt p h, checkedSub_eq p a _, saturatingAdd_eq a _,
      saturatingSub_eq a _⟩

/-- 1 + (2^32 - 1): a debug build panics, a release build returns 0 -/
theorem checkedAdd_overflow :
    (new 1).checkedAdd .dev 0xFFFFFFFF = .panic ∧ (new 1).checkedAdd .release 0xFFFFFFFF = .ok (some (new 0)) ∧
      ∀ p, ¬ Exact p (new 1) 0xFFFFFFFF := by
  refine ⟨by decide, by decide, ?_⟩
  intro p h
  have hsum := h.checkedAdd
  revert hsum
  cases p <;> decide

end U24

/-! ## Sequence order -/

/-- sequence order is the serial order of 24 bits -/
theorem seqLessThan_iff_before {a b : Nat} (hb : b < 2 ^ 24) : seqLessThan a b = true ↔ Before (2 ^ 24) a b := by
  rw [seqLessThan_iff]
  unfold Before ahead
  omega

/-- among the 2^23 numbers from a base on it is the order of the distances from the base -/
theorem seqLessThan_from (base : Nat) {i j : Nat} (hi : i < 2 ^ 23) (hj : j < 2 ^ 23) :
    seqLessThan ((base + i) % 2 ^ 24) ((base + j) % 2 ^ 24) = true ↔ i < j := by
  have hahead : ∀ k, k < 2 ^ 23 → ahead (2 ^ 24) base ((base + k) % 2 ^ 24) = k := fun k hk => ahead_add (by omega)
  have hwithin : ∀ k, k < 2 ^ 23 → Within (2 ^ 24) base ((base + k) % 2 ^ 24) := by
    intro k hk
    rw [Within, hahead k hk]
    omega
  calc seqLessThan ((base + i) % 2 ^ 24) ((base + j) % 2 ^ 24) = true
      ↔ Before (2 ^ 24) ((base + i) % 2 ^ 24) ((base + j) % 2 ^ 24) := seqLessThan_iff_before (Nat.mod_lt _ (by norm_num))
    _ ↔ ahead (2 ^ 24) base ((base + i) % 2 ^ 24) < ahead (2 ^ 24) base ((base + j) % 2 ^ 24) :=
        before_iff (hwithin i hi) (hwithin j hj)
    _ ↔ i < j := by rw [hahead i hi, hahead j hj]

theorem seqLessThan_shift (a b d : UInt32) :
    seqLessThan (wrappingAdd a.toNat d.toNat) (wrappingAdd b.toNat d.toNat) = seqLessThan a.toNat b.toNat := by
  have ha := a.toNat_lt
  have hb := b.toNat_lt
  rw [Bool.eq_iff_iff, seqLessThan_iff, seqLessThan_iff]
  unfold wrappingAdd
  omega

theorem seqLessThan_window (base : U24) :
    (∀ i j : Fin (2 ^ 23), seqLessThan ((base.get + i) % 2 ^ 24) ((base.get + j) % 2 ^ 24) = true ↔ i < j) ∧
      IsStrictTotalOrder {s : Nat // ∃ i : Fin (2 ^ 23), s = (base.get + i) % 2 ^ 24} (fun a b => seqLessThan a b = true) ∧
      ∀ a b d : UInt32,
        seqLessThan (wrappingAdd a.toNat d.toNat) (wrappingAdd b.toNat d.toNat) = seqLessThan a.toNat b.toNat := by
  have hlt : ∀ i j : Fin (2 ^ 23), seqLessThan ((base.get + i) % 2 ^ 24) ((base.get + j) % 2 ^ 24) = true ↔ i < j :=
    fun i j => seqLessThan_from base.get i.isLt j.isLt
  refine ⟨hlt, ?_, seqLessThan_shift⟩
  refine { trichotomous := ?_, irrefl := ?_, trans := ?_ }
  · rintro ⟨_, i, rfl⟩ ⟨_, j, rfl⟩ hij hji
    rw [hlt] at hij hji
    rw [le_antisymm (not_lt.1 hji) (not_lt.1 hij)]
  · rintro ⟨_, i, rfl⟩ h
    exact lt_irrefl i ((hlt i i).1 h)
  · rintro ⟨_, i, rfl⟩ ⟨_, j, rfl⟩ ⟨_, k, rfl⟩ hij hjk
    exact (hlt i k).2 (((hlt i j).1 hij).trans ((hlt j k).1 hjk))

/-- the comparison as `docs/PROTOCOL.md` defines it -/
def seqLessThanDoc (a b : Nat) : Bool :=
  decide (a < b) && decide (b - a < 0x800000) || decide (b < a) && decide (0x800000 < a - b)

/-- exactly 2^23 apart -/
def HalfApart (a b : U24) : Prop := a.get + 2 ^ 23 = b.get ∨ b.get + 2 ^ 23 = a.get

instance (a b : U24) : Decidable (HalfApart a b) := inferInstanceAs (Decidable (_ ∨ _))

theorem seqLessThanDoc_iff (a b : Nat) :
    seqLessThanDoc a b = true ↔ (a < b ∧ b - a < 2 ^ 23) ∨ (b < a ∧ 2 ^ 23 < a - b) := by
  simp only [seqLessThanDoc, Bool.or_eq_true, Bool.and_eq_true, decide_eq_true_eq, Nat.reducePow]

/-- off the half circle the two definitions agree -/
theorem seqLessThan_eq_doc {a b : U24} (h : ¬ HalfApart a b) : seqLessThan a.get b.get = seqLessThanDoc a.get b.get := by
  have ha := a.get_lt
  have hb := b.get_lt
  unfold HalfApart at h
  rw [Bool.eq_iff_iff, seqLessThan_iff, seqLessThanDoc_iff]
  omega

/-- at the half circle each number comes before the other -/
theorem seqLessThan_both_iff (a b : U24) :
    (seqLessThan a.get b.get = true ∧ seqLessThan b.get a.get = true) ↔ HalfApart a b := by
  have ha := a.get_lt
  have hb := b.get_lt
  unfold HalfApart
  rw [seqLessThan_iff, seqLessThan_iff]
  omega

theorem seqLessThan_doc_iff (a b : U24) :
    (seqLessThan a.get b.get = seqLessThanDoc a.get b.get ∧
      ¬ (seqLessThan a.get b.get = true ∧ seqLessThan b.get a.get = true)) ↔ ¬ HalfApart a b := by
  rw [seqLessThan_both_iff]
  exact ⟨fun h => h.2, fun h => ⟨seqLessThan_eq_doc h, h⟩⟩

/-- 0 and 2^23 -/
theorem seqLessThan_half : seqLessThan 0 0x800000 = true ∧ seqLessThanDoc 0 0x800000 = false ∧
    seqLessThan 0x800000 0 = true ∧ seqLessThanDoc 0x800000 0 = false := by decide

/-! ## A register of 24 bits -/

namespace AtomicU24

/-- the operations and their arguments -/
inductive Op where
  | load
  | store (v : U24)
  | swap (v : U24)
  | fetchAdd (v : UInt32)
  | fetchSub (v : UInt32)
  | compareExchange (current new : U24)
deriving DecidableEq

inductive Answer where
  | done
  | value (v : U24)
  | result (r : Except U24 U24)
deriving DecidableEq

def step (a : AtomicU24) : Op → Answer × AtomicU24
  | .load => (.value a.load, a)
  | .store v => (.done, a.store v)
  | .swap v => (.value (a.swap v).1, (a.swap v).2)
  | .fetchAdd v => (.value (a.fetchAdd v.toNat).1, (a.fetchAdd v.toNat).2)
  | .fetchSub v => (.value (a.fetchSub v.toNat).1, (a.fetchSub v.toNat).2)
  | .compareExchange current new => (.result (a.compareExchange current new).1, (a.compareExchange current new).2)

/-- what a register holding an integer modulo 2^24 does -/
def registerStep (x : U24) : Op → Answer × U24
  | .load => (.value x, x)
  | .store v => (.done, v)
  | .swap v => (.value x, v)
  | .fetchAdd v => (.value x, U24.ofInt (x.get + v.toNat))
  | .fetchSub v => (.value x, U24.ofInt (x.get - v.toNat))
  | .compareExchange current new => if x = current then (.result (.ok x), new) else (.result (.error x), x)

/-- comparing with the cell is the same as comparing with what it loads as -/
def SameComparison (a : AtomicU24) : Op → Prop
  | .compareExchange current _ => a.raw < 2 ^ 24 ∨ a.load ≠ current
  | _ => True

instance (a : AtomicU24) : (o : Op) → Decidable (SameComparison a o)
  | .compareExchange _ _ => inferInstanceAs (Decidable (_ ∨ _))
  | .load | .store _ | .swap _ | .fetchAdd _ | .fetchSub _ => .isTrue trivial

theorem get_load (a : AtomicU24) : a.load.get = a.raw % 2 ^ 24 := U24.get_new a.raw

theorem load_of_get (v : U24) : load ⟨v.get⟩ = v := U24.new_get v

theorem raw_fetchAdd (a : AtomicU24) (v : Nat) : (a.fetchAdd v).2.raw = (a.raw + v) % 2 ^ 32 := rfl

theorem raw_fetchSub (a : AtomicU24) (v : Nat) : (a.fetchSub v).2.raw = (a.raw + (2 ^ 32 - v)) % 2 ^ 32 := rfl

theorem load_fetchAdd (a : AtomicU24) (v : Nat) : (a.fetchAdd v).2.load = U24.ofInt (a.load.get + v) := by
  apply U24.ext_int
  rw [U24.get_ofInt, get_load, get_load, raw_fetchAdd]
  omega

theorem load_fetchSub (a : AtomicU24) {v : Nat} (h : v < 2 ^ 32) :
    (a.fetchSub v).2.load = U24.ofInt (a.load.get - v) := by
  apply U24.ext_int
  rw [U24.get_ofInt, get_load, get_load, raw_fetchSub]
  omega

/-- the cell is the loaded value when it holds no more than 24 bits -/
theorem raw_eq_iff (a : AtomicU24) (current : U24) :
    a.raw = current.get ↔ a.raw < 2 ^ 24 ∧ a.load = current := by
  have hc := current.get_lt
  constructor
  · intro h
    refine ⟨h ▸ hc, ?_⟩
    ext
    rw [get_load, h, Nat.mod_eq_of_lt hc]
  · rintro ⟨hlt, rfl⟩
    rw [get_load, Nat.mod_eq_of_lt hlt]

theorem compareExchange_of_eq {a : AtomicU24} {current : U24} (h : a.raw = current.get) (new : U24) :
    a.compareExchange current new = (.ok a.load, ⟨new.get⟩) := if_pos h

theorem compareExchange_of_ne {a : AtomicU24} {current : U24} (h : a.raw ≠ current.get) (new : U24) :
    a.compareExchange current new = (.error a.load, a) := if_neg h

/-- only a comparison can be answered otherwise than by the register -/
theorem step_answer_iff (a : AtomicU24) (o : Op) : (step a o).1 = (registerStep a.load o).1 ↔ SameComparison a o := by
  cases o with
  | compareExchange current new =>
    rw [step, registerStep, SameComparison]
    by_cases hraw : a.raw = current.get
    · obtain ⟨hlt, hload⟩ := (raw_eq_iff a current).1 hraw
      rw [compareExchange_of_eq hraw, if_pos hload]
      exact iff_of_true rfl (.inl hlt)
    · rw [compareExchange_of_ne hraw]
      rw [raw_eq_iff, not_and] at hraw
      split_ifs with hload
      · refine iff_of_false (fun h => by cases h) ?_
        rintro (hlt | hne)
        · exact hraw hlt hload
        · exact hne hload
      · exact iff_of_true rfl (.inr hload)
  | _ => exact iff_of_true rfl trivial

/-- and then it leaves the value the register holds -/
theorem load_step {a : AtomicU24} {o : Op} (h : SameComparison a o) : (step a o).2.load = (registerStep a.load o).2 := by
  cases o with
  | load => rfl
  | store v => exact load_of_get v
  | swap v => exact load_of_get v
  | fetchAdd v => exact load_fetchAdd a v.toNat
  | fetchSub v => exact load_fetchSub a v.toNat_lt
  | compareExchange current new =>
    rw [step, registerStep]
    by_cases hraw : a.raw = current.get
    · rw [compareExchange_of_eq hraw, if_pos ((raw_eq_iff a current).1 hraw).2]
      exact load_of_get new
    · rw [compareExchange_of_ne hraw, if_neg]
      rintro hload
      rcases h with hlt | hne
      · exact hraw ((raw_eq_iff a current).2 ⟨hlt, hload⟩)
      · exact hne hload

theorem register_iff (v : UInt32) (ops : List Op) :
    Machine.answers step (new v.toNat) ops = Machine.answers registerStep (U24.new v.toNat) ops ↔
      Machine.Steps (fun a o => (step a o).2) SameComparison (new v.toNat) ops := by
  refine Machine.answers_eq_iff ?_ ?_ ?_ ops (R := fun a x => a.load = x)
  · rintro a x o rfl
    exact step_answer_iff a o
  · rintro a x o rfl h
    exact load_step h
  · exact U24.new_get (U24.new v.toNat)

/-- a cell carried past 2^24 loads as 0, and is not exchanged for 0 -/
theorem register_fails :
    Machine.answers step (new 0xFFFFFF) [.fetchAdd 1, .load, .compareExchange (U24.new 0) (U24.new 5)] =
        [.value (U24.new 0xFFFFFF), .value (U24.new 0), .result (.error (U24.new 0))] ∧
      Machine.answers registerStep (U24.new 0xFFFFFF) [.fetchAdd 1, .load, .compareExchange (U24.new 0) (U24.new 5)] =
        [.value (U24.new 0xFFFFFF), .value (U24.new 0), .result (.ok (U24.new 0))] := by decide

end AtomicU24

end RakNet
