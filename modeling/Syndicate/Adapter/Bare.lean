import Syndicate.Adapter.Basic

/-! An adapter that only declares things about itself and has no operation of its own. What it
does not declare is what every adapter starts from: no capabilities and no limit. -/

namespace Syndicate

structure Bare where
  id? : Option Value := none
  /-- What it declares to be able to do, as a row of scalars. -/
  declared : Value := .list []
  maxLength : Value := unlimited

namespace Bare

def name : String := "BareAdapter"

/-- A member that must be given and was not. -/
def missing (member : String) : Failure := .error (.notImplemented (.text name) (.text member))

def id (b : Bare) : Outcome Value :=
  match b.id? with
  | some v => .ok v
  | none => .error (missing "id")

/-- The capabilities, each of them once. -/
def capabilities (b : Bare) : Outcome (List Value) := do
  pure (Value.distinct (← Value.asSet (← b.declared.items)))

end Bare

end Syndicate
