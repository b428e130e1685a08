import Syndicate.Content

/-! The conditions of a rule. Each one that is there must hold: one of the tags is among the
item's, the type and the language are the item's, and the item has media or has none. -/

namespace Syndicate

/-- Null stands for a condition that is not there. An empty list of tags is there, and no item
meets it. -/
structure Conditions where
  tags : Value := .null
  type : Value := .null
  lang : Value := .null
  hasMedia : Value := .null

namespace Conditions

/-- The value itself, or null when it counts as false. -/
def ifTruthy (v : Value) : Value := if v.truthy then v else .null

/-- Tags as a list: a text is a single tag. -/
def tagsOf : Value → Outcome Value
  | .null => .ok .null
  | .text s => .ok (.list [.text s])
  | v => do pure (.list (← v.items))

/-- Whether media are asked for; of the two spellings the first wins by being there. -/
def hasMediaOf (es : Entries) : Value :=
  match (Entries.get? es "hasMedia").getD (Entries.get es "has_media") with
  | .null => .null
  | v => .bool v.truthy

def ofEntries (es : Entries) : Outcome Conditions := do
  pure {
    tags := ← tagsOf (Entries.get es "tags")
    type := ifTruthy (Entries.get es "type")
    lang := ifTruthy (Entries.get es "lang")
    hasMedia := hasMediaOf es }

/-- Conditions from a mapping; what counts as false sets none. -/
def ofValue (v : Value) : Outcome Conditions := do
  ofEntries (← if v.truthy then v.entries "get" else .ok [])

def isEmpty (k : Conditions) : Bool :=
  k.tags.isNull && k.type.isNull && k.lang.isNull && k.hasMedia.isNull

/-- Whether two rows of scalars have a member in common. -/
def share (xs ys : List Value) : Bool := xs.any fun x => ys.any fun y => x.alike y

def tagsMeet (k : Conditions) (tags : List Value) : Outcome Bool :=
  if k.tags.isNull then .ok true
  else do
    let wanted ← (← k.tags.items) |> Value.asSet
    pure (share wanted (← Value.asSet tags))

/-- Whether a condition that may be missing equals a value. -/
def agrees (condition v : Value) : Bool := condition.isNull || v.same condition

/-- Whether an item meets the conditions. -/
def meet (k : Conditions) (c : Content) : Outcome Bool := do
  pure ((← k.tagsMeet c.tags) && agrees k.type c.type && agrees k.lang c.lang &&
    agrees k.hasMedia (.bool c.hasMedia))

/-- Whether what is given meets the conditions; empty ones do not look at it. -/
def accept (k : Conditions) (s : Source) : Outcome Bool :=
  if k.isEmpty then .ok true else do k.meet (← s.content)

end Conditions

end Syndicate
