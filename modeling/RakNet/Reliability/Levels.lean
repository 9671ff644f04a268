/-
Reliability levels (`src/reliability/levels.rs`), encoded in the top three bits of a frame's flag byte.
-/
import RakNet.Lib.Wire

namespace RakNet

inductive Reliability where
  | unreliable
  | unreliableSequenced
  | reliable
  | reliableOrdered
  | reliableSequenced
deriving DecidableEq, Repr

namespace Reliability

def fromU8 (value : UInt8) : Option Reliability :=
  if value = 0 then some unreliable
  else if value = 1 then some unreliableSequenced
  else if value = 2 then some reliable
  else if value = 3 then some reliableOrdered
  else if value = 4 then some reliableSequenced
  else none

def toU8 : Reliability → UInt8
  | unreliable => 0
  | unreliableSequenced => 1
  | reliable => 2
  | reliableOrdered => 3
  | reliableSequenced => 4

def isReliable : Reliability → Bool
  | reliable | reliableOrdered | reliableSequenced => true
  | _ => false

def isSequenced : Reliability → Bool
  | unreliableSequenced | reliableSequenced => true
  | _ => false

def isOrdered : Reliability → Bool
  | reliableOrdered | reliableSequenced => true
  | _ => false

/-- a level that was read is written with the same bits -/
theorem toU8_of_fromU8 {value : UInt8} {r : Reliability} (h : fromU8 value = some r) : r.toU8 = value := by
  unfold fromU8 at h
  split_ifs at h with h0 h1 h2 h3 h4
  all_goals
    cases h
    symm
    assumption

end Reliability

end RakNet
