import Syndicate.Conditions
import Syndicate.Delay

/-! Rules: the conditions under which an item is published, and the destinations it goes to. -/

namespace Syndicate

structure Destination where
  adapter : String
  delay : Value := .int 0
  /-- Null when the adapter's own channel is meant. -/
  channel : Value := .null

structure Rule where
  name : Option String
  conditions : Conditions := {}
  publish : List Destination := []

def Destination.ofValue (v : Value) : Outcome Destination := do
  let es ← v.entries "get"
  let adapter := Entries.get es "adapter"
  if adapter.truthy then
    pure {
      adapter := ← adapter.shown
      delay := (Entries.get? es "delay").getD (.int 0)
      channel := Conditions.ifTruthy (Entries.get es "channel") }
  else failShowing v (.config (.destinationUnnamed es))

def destinationsOf : List Value → Outcome (List Destination)
  | [] => .ok []
  | v :: vs => do pure ((← Destination.ofValue v) :: (← destinationsOf vs))

namespace Rule

/-- A name in text, unless it is null. -/
def nameOf : Value → Outcome (Option String)
  | .null => .ok none
  | v => do pure (some (← v.shown))

/-- The destinations that a value lists; what counts as false lists none. -/
def publishOf (v : Value) : Outcome (List Destination) := do
  destinationsOf (← if v.truthy then v.items else .ok [])

def ofEntries (es : Entries) : Outcome Rule := do
  let name ← nameOf (Entries.get es "name")
  let conditions ← Conditions.ofValue (Entries.get es "if")
  let publish ← publishOf (Entries.get es "publish")
  pure ⟨name, conditions, publish⟩

def ofValue (v : Value) : Outcome Rule := do ofEntries (← v.entries "get")

/-- Whether an entry is switched on, which it is unless it says otherwise. -/
def isEnabled (es : Entries) : Bool := ((Entries.get? es "enabled").getD (.bool true)).truthy

/-- Reads every delay of a row of destinations, so that a bad one is found. -/
def checkDelays (now : Instant) : List Destination → Outcome Unit
  | [] => .ok ()
  | d :: ds => do
    let _ ← Delay.parse now d.delay
    checkDelays now ds

/-- A rule from the configuration, which must have a name and readable delays; nothing if it is
switched off. -/
def load (now : Instant) (v : Value) : Outcome (Option Rule) := do
  let es ← v.entries "get"
  if !isEnabled es then pure none
  else if !(Entries.get es "name").truthy then failShowing v (.config (.ruleUnnamed es))
  else
    let rule ← ofEntries es
    checkDelays now rule.publish
    pure (some rule)

def loadEach (now : Instant) : List Value → Outcome (List Rule)
  | [] => .ok []
  | v :: vs => do
    let rule ← load now v
    pure (rule.toList ++ (← loadEach now vs))

/-- The rules of a configuration that are switched on, in order. -/
def loadAll (now : Instant) (v : Value) : Outcome (List Rule) := do loadEach now (← v.items)

end Rule

end Syndicate
