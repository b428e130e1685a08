import Syndicate.Content

/-! The check that an item passes before any rule is looked at. -/

namespace Syndicate

structure Verdict where
  valid : Bool
  errors : List String

/-- A check of an item, which may itself fail on an ill-typed one. -/
abbrev Validator := Content → Outcome Verdict

namespace Validator

def noBody : String :=
  "content must have at least text or one media field (photo, video, document, audio)"

/-- Whether a text holds more than blanks. -/
def hasText (v : Value) : Outcome Bool :=
  if !v.truthy then .ok false
  else match v with
    | .text s => .ok (Text.trim s.toList ≠ [])
    | _ => faulty (.noMember v.kindName "strip")

def ofErrors (errors : List String) : Verdict := ⟨errors.isEmpty, errors⟩

/-- The usual check: an item has a text or a media field. -/
def body : Validator := fun c => do
  pure (ofErrors (if !(← hasText c.text) && !c.hasMedia then [noBody] else []))

/-- Asks for a language and a type. -/
def classified : Validator := fun c =>
  .ok (ofErrors
    ((if c.lang.truthy then [] else ["lang is required"]) ++
     (if c.type.truthy then [] else ["type is required"])))

def acceptAll : Validator := fun _ => .ok ⟨true, []⟩

/-- Rejects every item and does not say why. -/
def rejectAll : Validator := fun _ => .ok ⟨false, []⟩

end Validator

end Syndicate
