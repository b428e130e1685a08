import Syndicate.Proofs.Delay.Escape

/-! Blanks around a delay in text. They do not matter for what a form means, since a text is trimmed
before its form is looked for; but zero is recognised before that, and has no form. -/

namespace Syndicate

/-! ### Trimming -/

namespace Text

variable {kind : Char → Bool} {p cs q : List Char}

/-- What stands around a text and is of the kind is trimmed with the text. -/
theorem trimOf_padded (hp : ∀ c ∈ p, kind c = true) (hq : ∀ c ∈ q, kind c = true) :
    trimOf kind (p ++ cs ++ q) = trimOf kind cs := by
  unfold trimOf
  rw [List.append_assoc, List.dropWhile_append_of_pos hp, List.dropWhile_append]
  split
  · -- nothing is left of the text, nor of what follows it
    rename_i hnone
    rw [List.dropWhile_eq_nil_iff.2 hq, List.isEmpty_iff.1 hnone]
  · rw [List.reverse_append, List.dropWhile_append_of_pos]
    simpa using hq

end Text

namespace Delay

variable {now : Instant} {v : Value} {s t p q : String} {x : Outcome Nat}

/-! ### The literal in an error -/

/-- The same failure, but a delay that is refused is refused under another name. -/
def naming (v : Value) : Failure → Failure
  | .error (.invalidDelay _) => .error (.invalidDelay v)
  | f => f

theorem mapError_naming_of_uses (h : Uses x) : x.mapError (naming v) = x := by
  rcases x with (e | f) | n
  · exact (h e rfl).elim
  · rfl
  · rfl

/-- What a form comes to depends on the literal for the name in the error only. -/
theorem milliseconds_naming (f : Form) : f.milliseconds now (.text t) =
    (f.milliseconds now (.text s)).mapError (naming (.text t)) := by
  have hrefuse : refuse (.text t) = (refuse (.text s)).mapError (naming (.text t)) := rfl
  cases f with
  | span ds u =>
    exact (mapError_naming_of_uses (.bind (count_uses ds) fun _ => .pure _)).symm
  | daysAndTime ds h m =>
    rw [Form.milliseconds, Form.milliseconds]
    split
    · exact (mapError_naming_of_uses (.bind (count_uses ds) fun _ => .pure _)).symm
    · exact hrefuse
  | weekday name h m =>
    rw [Form.milliseconds, Form.milliseconds]
    split
    · exact (mapError_naming_of_uses
        (.bind (weekdayNumber_uses name) fun w => untilWeekday_uses w h m)).symm
    · exact hrefuse

/-- Texts with the same trimmed form come to the same, zero apart. -/
theorem parse_naming (now : Instant) (htrim : Text.trim t.toList = Text.trim s.toList)
    (hs : s ≠ "0") (ht : t ≠ "0") :
    parse now (.text t) = (parse now (.text s)).mapError (naming (.text t)) := by
  by_cases hf : ∃ f : Form, f.Spells (Text.trim s.toList)
  · obtain ⟨f, hf⟩ := hf
    rw [parse_spells hf, parse_spells (htrim ▸ hf)]
    exact milliseconds_naming f
  · rw [parse_formless hs fun f h => hf ⟨f, h⟩, parse_formless ht fun f h => hf ⟨f, htrim ▸ h⟩]
    rfl

/-! ### Padding -/

/-- Two literals come to the same number of milliseconds, or each is refused by its own name. -/
def Concurs (now : Instant) (v w : Value) : Prop :=
  (∃ n, parse now v = .ok n ∧ parse now w = .ok n) ∨
    (parse now v = fail (.invalidDelay v) ∧ parse now w = fail (.invalidDelay w))

theorem not_escapes_of_concurs {w : Value} (h : Concurs now v w) : ¬ Escapes now w := by
  rw [← breaks_parse]
  obtain ⟨n, -, h⟩ | ⟨-, h⟩ := h
  · rw [h]
    exact not_breaks_ok n
  · rw [h]
    exact not_breaks_fail _

/-- But for its own name, zero is a text without a form. -/
theorem parse_trimmed_zero (now : Instant) (htrim : Text.trim t.toList = ['0']) (ht : t ≠ "0") :
    parse now (.text t) = fail (.invalidDelay (.text t)) := by
  have hnone : Form.ofChars? ['0'] = none := by decide
  refine parse_formless ht (fun f hf => ?_) now
  rw [htrim] at hf
  rw [Form.ofChars?_eq_some.2 hf] at hnone
  cases hnone

section

variable (hp : ∀ c ∈ p.toList, Text.isBlank c = true) (hq : ∀ c ∈ q.toList, Text.isBlank c = true)
include hp hq

theorem trim_padded : Text.trim (p ++ s ++ q).toList = Text.trim s.toList := by
  rw [String.toList_append, String.toList_append]
  exact Text.trimOf_padded hp hq

/-- A padded text is zero only if it is zero without the padding. -/
theorem eq_zero_of_padded (h : p ++ s ++ q = "0") : s = "0" ∧ p = "" ∧ q = "" := by
  have hchars : p.toList ++ s.toList ++ q.toList = ['0'] := by
    rw [← String.toList_append, ← String.toList_append, h]
    rfl
  have hno : ∀ r : String, (∀ c ∈ r.toList, Text.isBlank c = true) → r.toList ≠ ['0'] := by
    intro r hr hzero
    have hblank : Text.isBlank '0' = true := hr '0' (by rw [hzero]; exact List.mem_singleton_self _)
    have hdigit : Text.isBlank '0' = false := by decide
    rw [hdigit] at hblank
    cases hblank
  obtain ⟨-, hq'⟩ | ⟨hfront, hq'⟩ := List.append_eq_singleton_iff.1 hchars
  · exact absurd hq' (hno q hq)
  · obtain ⟨hp', hs⟩ | ⟨hp', -⟩ := List.append_eq_singleton_iff.1 hfront
    · exact ⟨String.toList_inj.1 hs, String.toList_eq_nil_iff.1 hp', String.toList_eq_nil_iff.1 hq'⟩
    · exact absurd hp' (hno p hp)

/-- Blanks around a delay are ignored if and only if they are not put around zero, and the delay
does not break. -/
theorem parse_padded_iff (now : Instant) (s : String) :
    Concurs now (.text (p ++ s ++ q)) (.text s) ↔
      (s = "0" → p = "" ∧ q = "") ∧ ¬ Escapes now (.text s) := by
  have htrim : Text.trim (p ++ s ++ q).toList = Text.trim s.toList := trim_padded hp hq
  constructor
  · intro h
    refine ⟨?_, not_escapes_of_concurs h⟩
    rintro rfl
    by_contra hpad
    have hne : p ++ "0" ++ q ≠ "0" := fun h => hpad (eq_zero_of_padded hp hq h).2
    have hrefused := parse_trimmed_zero now htrim hne
    obtain ⟨n, hn, -⟩ | ⟨-, hzero⟩ := h
    · rw [hrefused] at hn
      cases hn
    · cases hzero
  · rintro ⟨hzero, hsound⟩
    by_cases hs : s = "0"
    · obtain ⟨rfl, rfl⟩ := hzero hs
      subst hs
      exact .inl ⟨0, rfl, rfl⟩
    · have hpadded := parse_naming now htrim hs fun h => hs (eq_zero_of_padded hp hq h).1
      rcases hparse : parse now (.text s) with (e | f) | n
      · obtain rfl := parse_failsWith e hparse
        rw [hparse] at hpadded
        exact .inr ⟨hpadded, hparse⟩
      · exact absurd (breaks_parse.1 ⟨f, hparse⟩) hsound
      · rw [hparse] at hpadded
        exact .inl ⟨n, hpadded, hparse⟩

end

theorem parse_padded_offset :
    ((∀ c ∈ " \t".toList, Text.isBlank c = true) ∧ (∀ c ∈ "\u3000".toList, Text.isBlank c = true)) ∧
    Concurs brink (.text (" \t" ++ "1d 09:30" ++ "\u3000")) (.text "1d 09:30") := by
  have hfront : (" \t".toList.all Text.isBlank) = true := by decide
  have hback : ("\u3000".toList.all Text.isBlank) = true := by decide
  have hp := List.all_eq_true.1 hfront
  have hq := List.all_eq_true.1 hback
  have hsound : ¬ Escapes brink (.text "1d 09:30") := by
    have hparse : parse brink (.text "1d 09:30") = .ok 120600000 := by rfl
    rw [← breaks_parse, hparse]
    exact not_breaks_ok _
  exact ⟨⟨hp, hq⟩, (parse_padded_iff hp hq brink "1d 09:30").2 ⟨by decide, hsound⟩⟩

/-- With a blank before it, zero is no delay. -/
theorem not_concurs_blankZero : ¬ Concurs brink (.text (" " ++ "0" ++ "")) (.text "0") := by
  have hrefused : parse brink (.text (" " ++ "0" ++ "")) = fail (.invalidDelay (.text " 0")) :=
    parse_trimmed_zero brink (by decide) (by decide)
  rintro (⟨n, hn, -⟩ | ⟨-, hzero⟩)
  · rw [hrefused] at hn
    cases hn
  · cases hzero

end Delay

end Syndicate
