/-!
# Identifiers and time

`uuid4()` is a name: the run of the handler that drew it and the place in the
code it was drawn at, so that two draws never collide.
-/

namespace SignalSync

inductive Uuid
  /-- A row that was there before. -/
  | given (n : Nat)
  | thread (run : Nat)
  | conversation (run : Nat)
  | assembly (run : Nat) (route : Uuid)
  | parsedAction (run : Nat) (route : Uuid)
  | intent (run : Nat) (route : Uuid) (leg target : Nat)
  | trade (run : Nat)
deriving DecidableEq, Repr

instance (n : Nat) : OfNat Uuid n := ⟨.given n⟩

/-- Microseconds. -/
abbrev Time := Nat

abbrev seconds (n : Nat) : Time := n * 1000000

end SignalSync
