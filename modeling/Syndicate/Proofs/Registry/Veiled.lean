import Syndicate.Proofs.Dispatch.Veiled
import Syndicate.Proofs.Entries
import Syndicate.Proofs.Registry

/-! Two configurations that differ in the tokens of their adapters only. What is read of an entry
and logged of it is the same in both, and so are the adapters, but for their tokens. -/

namespace Syndicate

/-- A text that is not empty. -/
def Value.IsToken (v : Value) : Prop := ∃ k, k ≠ "" ∧ v = .text k

namespace Registry

/-- The same token from the surroundings, or one each. -/
inductive TokenVeiled : Option String → Option String → Prop
  | same (token : Option String) : TokenVeiled token token
  | differ {k l : String} (hk : k ≠ "") (hl : l ≠ "") : TokenVeiled (some k) (some l)

/-- The same fields of an entry, or a token each. -/
def FieldsVeiled (es fs : Entries) : Prop :=
  Entries.SameBut "bot_token" (fun v w => v.IsToken ∧ w.IsToken) es fs

theorem FieldsVeiled.refl (es : Entries) : FieldsVeiled es es := Entries.SameBut.refl _ _ es

inductive EntryVeiled : Value → Value → Prop
  | same (entry : Value) : EntryVeiled entry entry
  | map {es fs : Entries} (h : FieldsVeiled es fs) : EntryVeiled (.map es) (.map fs)

/-- The same sections for adapters, but for the tokens in their entries. -/
inductive SectionVeiled : Value → Value → Prop
  | map {es fs : Entries} (h : List.Forall₂ (Beside EntryVeiled) es fs) :
    SectionVeiled (.map es) (.map fs)

end Registry

/-- The same configuration, but for the tokens of adapters. -/
def Config.Veiled (config config' : Entries) : Prop :=
  Entries.SameBut "adapters" Registry.SectionVeiled config config'

namespace Registry

variable {token token' : Option String} {es fs : Entries} {name : String} {key : Value}

/-! ### Entries -/

section Fields

variable (ht : TokenVeiled token token') (h : FieldsVeiled es fs)

section
include h

end

include ht h

end Fields

/-! ### Rows of entries -/

section Rows

variable (ht : TokenVeiled token token')
include ht

end Rows

/-! ### Configurations -/

variable {config config' : Entries} (h : Config.Veiled config config')
include h

end Registry

end Syndicate
