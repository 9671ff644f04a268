/-
Connection states (`src/state/connection.rs`) and their atomic transitions.
-/
import Mathlib.Tactic

namespace RakNet

inductive ConnectionState where
  | connecting
  | connected
  | disconnecting
  | disconnected
deriving DecidableEq, Repr

namespace ConnectionState

def isClosed (s : ConnectionState) : Bool := s == disconnected

/-- `can_transition_to`: staying put, and the edges of the state machine -/
def canTransitionTo (s next : ConnectionState) : Bool :=
  if s = next then true
  else match s, next with
    | connecting, connected => true
    | connecting, disconnected => true
    | connected, disconnecting => true
    | connected, disconnected => true
    | disconnecting, disconnected => true
    | _, _ => false

/-- `transition`: a compare-and-swap, tried only along an edge; false when it fails -/
def transition (s expected next : ConnectionState) : Bool × ConnectionState :=
  if !expected.canTransitionTo next then (false, s)
  else if s = expected then (true, next)
  else (false, s)

end ConnectionState

end RakNet
