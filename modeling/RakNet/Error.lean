/-
Errors (`src/error.rs`), and what an arithmetic overflow does in the two build profiles of `Cargo.toml`.

A `dev` build checks unsigned arithmetic and panics; a `release` build sets no `overflow-checks` and wraps. Code that
adds or subtracts without a checked or wrapping method takes the profile as a parameter, so every result holds for
both builds unless it says otherwise.
-/
import RakNet.Lib.Wire

namespace RakNet

open Lib.Wire

/-- the variants of `Error` the modelled functions return -/
inductive Error where
  | io (msg : String)
  | invalidPacket (msg : String)
  | invalidMagic
  | connectionClosed
  | timeout
deriving DecidableEq, Repr

/-- `Result<T>`, or a panic -/
abbrev Result := Outcome Error

inductive Profile where
  | dev
  | release
deriving DecidableEq, Repr

namespace Profile

/-- `a + b` on an unsigned integer of `w` bits -/
def add (p : Profile) (w a b : Nat) : Result Nat :=
  if a + b < 2 ^ w then .ok (a + b)
  else match p with
    | dev => .panic
    | release => .ok ((a + b) % 2 ^ w)

/-- `a - b` on an unsigned integer of `w` bits -/
def sub (p : Profile) (w a b : Nat) : Result Nat :=
  if b ≤ a then .ok (a - b)
  else match p with
    | dev => .panic
    | release => .ok ((a + 2 ^ w - b) % 2 ^ w)

/-- `a * b` on an unsigned integer of `w` bits -/
def mul (p : Profile) (w a b : Nat) : Result Nat :=
  if a * b < 2 ^ w then .ok (a * b)
  else match p with
    | dev => .panic
    | release => .ok (a * b % 2 ^ w)

theorem add_of_lt (p : Profile) {w a b : Nat} (h : a + b < 2 ^ w) : p.add w a b = .ok (a + b) := if_pos h

/-- a sum that is returned fits its type -/
theorem lt_of_add_eq_ok {p : Profile} {w a b n : Nat} (h : p.add w a b = .ok n) : n < 2 ^ w := by
  unfold add at h
  split_ifs at h with hlt
  · cases h
    exact hlt
  · cases p with
    | dev => cases h
    | release =>
      cases h
      exact Nat.mod_lt _ (Nat.two_pow_pos w)

/-- an addition that gives no value panics -/
theorem add_of_not_isOk {p : Profile} {w a b : Nat} (h : (p.add w a b).isOk = false) : p.add w a b = .panic := by
  unfold add at *
  split_ifs at * with hlt
  · cases h
  · cases p with
    | dev => rfl
    | release => cases h

theorem mul_of_lt (p : Profile) {w a b : Nat} (h : a * b < 2 ^ w) : p.mul w a b = .ok (a * b) := if_pos h

theorem sub_of_le (p : Profile) {w a b : Nat} (h : b ≤ a) : p.sub w a b = .ok (a - b) := if_pos h

end Profile

end RakNet
