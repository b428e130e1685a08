import Syndicate.Config
import Syndicate.Proofs.Failure

/-! Which configuration and content files break. A file that is missing, is not in the form asked
for, or holds no mapping is a problem of the domain; one that is there and cannot be read as text is
none, nor is a reader that fails itself, or an ill-typed field of an item. -/

namespace Syndicate

/-! ### Files -/

namespace Files

variable {fs : Files} {path : String}

/-- A path leads to something whose text cannot be read. -/
def Unread (fs : Files) (path : String) : Prop :=
  hasNull path = true ∨ match fs.find path with
    | .file bytes => Text.ofBytes? bytes = none
    | .missing => False
    | _ => True

theorem text_uses : Uses (fs.text path) := by
  refine FailsWith.bind ?_ fun bytes => ?_
  · unfold bytes
    split
    · exact .faulty _
    · split
      · exact .ok _
      · exact .faulty _
  · split
    · exact .ok _
    · exact .faulty _

theorem unread_iff : (∃ f, fs.text path = .error (.fault f) ∧ f ≠ .noSuchFile) ↔
    fs.Unread path := by
  unfold Unread text bytes
  cases hasNull path with
  | true => simp [bind, Except.bind, faulty]
  | false =>
    cases fs.find path with
    | file bytes =>
      simp only [bind, Except.bind, Bool.false_eq_true, ↓reduceIte, false_or]
      cases Text.ofBytes? bytes <;> simp [faulty]
    | directory => simp [bind, Except.bind, faulty, Found.trouble?]
    | missing => simp [bind, Except.bind, faulty, Found.trouble?]
    | notDirectory => simp [bind, Except.bind, faulty, Found.trouble?]
    | tooLong => simp [bind, Except.bind, faulty, Found.trouble?]

end Files

/-! ### Items -/

namespace Content

variable {es : Entries}

/-- The fields of an item are ill-typed: its options, or its tags. -/
def Misfits (es : Entries) : Prop :=
  (Entries.get es "options").Misshapen ∨
    (Entries.get es "tags").truthy = true ∧ (Entries.get es "tags").isRow = false

theorem breaks_tagsOf (v : Value) : Breaks (tagsOf v) ↔ v.truthy = true ∧ v.isRow = false := by
  unfold tagsOf
  cases hv : v.truthy with
  | false => simp
  | true => cases v <;> simp_all [Value.items, Value.isRow]

theorem tagsOf_uses (v : Value) : Uses (tagsOf v) := by
  unfold tagsOf
  split
  · exact .ok _
  · split
    · exact .ok _
    · exact Value.items_uses

theorem ofEntries_uses (es : Entries) : Uses (ofEntries es) :=
  FailsWith.bind Value.section_uses fun _ => FailsWith.bind (tagsOf_uses _) fun _ => .pure _

theorem breaks_ofEntries : Breaks (ofEntries es) ↔ Misfits es := by
  have htags : ∀ options : Entries, Breaks (do
      let tags ← tagsOf (Entries.get es "tags")
      pure (Content.mk {
        text := Entries.get es "text"
        photo := Entries.get es "photo"
        video := Entries.get es "video"
        document := Entries.get es "document"
        audio := Entries.get es "audio"
        type := Entries.get es "type"
        lang := Entries.get es "lang" } tags (keepOptions options))) ↔
      (Entries.get es "tags").truthy = true ∧ (Entries.get es "tags").isRow = false := fun _ => by
    rw [breaks_bind, breaks_tagsOf]
    simp
  have hoptions : Breaks (optionsOf (Entries.get es "options")) ↔ _ := Value.breaks_section
  rw [Misfits, ← hoptions]
  exact Uses.breaks_bind Value.section_uses htags

theorem ofValue_map (es : Entries) : ofValue (.map es) = ofEntries es := by
  cases es <;> rfl

theorem breaks_ofValue_map : Breaks (ofValue (.map es)) ↔ Misfits es := by
  rw [ofValue_map, breaks_ofEntries]

end Content

/-- Readers make a value of a text or say that it is malformed, and do nothing else. -/
structure Readers.IsDocumented (readers : Readers) : Prop where
  config : ∀ text f, readers.config text ≠ .error (.fault f)
  yaml : ∀ text f, readers.yaml text ≠ .error (.fault f)
  json : ∀ text f, readers.json text ≠ .error (.fault f)

namespace Config

variable {fs : Files} {path : String} {problem : ConfigProblem} {readers : Readers}

/-! ### Reading -/

theorem orMissing_of_ne {f : Fault} (h : f ≠ .noSuchFile) :
    orMissing problem (.fault f) = .fault f := by
  cases f <;> first | rfl | exact absurd rfl h

/-- A file that is missing is no break. -/
theorem breaks_withMissing : Breaks (withMissing problem (fs.text path)) ↔ fs.Unread path := by
  rw [← Files.unread_iff, withMissing]
  rcases fs.text path with (e | f) | text
  · simp [Breaks, Except.mapError, orMissing]
  · by_cases hf : f = .noSuchFile
    · simp [Breaks, Except.mapError, orMissing, hf]
    · simp [Breaks, Except.mapError, orMissing_of_ne hf, hf]
  · simp [Breaks, Except.mapError]

theorem withMissing_ok {text : String} :
    withMissing problem (fs.text path) = .ok text ↔ fs.text path = .ok text := by
  unfold withMissing
  cases fs.text path <;> simp [Except.mapError]

theorem withMissing_failsWith :
    FailsWith (· = .config problem) (withMissing problem (fs.text path)) := by
  intro e h
  unfold withMissing at h
  cases ht : fs.text path with
  | ok text => rw [ht] at h; cases h
  | error f =>
    rw [ht] at h
    have h : orMissing problem f = .error e := Except.error.inj h
    cases f with
    | error e' => exact (Files.text_uses e' ht).elim
    | fault f =>
      by_cases hf : f = .noSuchFile
      · rw [hf] at h
        exact (Failure.error.inj h).symm
      · rw [orMissing_of_ne hf] at h
        cases h

/-! ### Configuration files -/

/-- A configuration breaks: its file cannot be read as text, or the reader fails. -/
inductive LoadBreaks (fs : Files) (path : String) (readers : Readers) : Prop
  | unread (h : fs.Unread path)
  | reader {text : String} {f : Fault} (htext : fs.text path = .ok text)
    (h : readers.config text = .error (.fault f))

theorem breaks_load : Breaks (load fs path readers) ↔ LoadBreaks fs path readers := by
  unfold load
  rw [breaks_bind, breaks_withMissing]
  constructor
  · rintro (h | ⟨text, htext, h⟩)
    · exact .unread h
    · split at h
      · exact absurd h (not_breaks_fail _)
      · exact .reader (withMissing_ok.1 htext) ‹_›
      · exact absurd h (not_breaks_pure _)
      · exact absurd h (not_breaks_pure _)
      · exact absurd h (not_breaks_fail _)
  · rintro (h | ⟨htext, h⟩)
    · exact .inl h
    · refine .inr ⟨_, withMissing_ok.2 htext, ?_⟩
      rw [h]
      exact breaks_faulty _

theorem load_failsWith : FailsWith (∃ p, · = .config p) (load fs path readers) := by
  refine .bind (fun e h => ⟨_, withMissing_failsWith e h⟩) fun text => ?_
  split
  · exact .fail ⟨_, rfl⟩
  · exact .faulty _
  · exact .pure _
  · exact .pure _
  · exact .fail ⟨_, rfl⟩

/-! ### Content files -/

/-- The reader of a content file fails, and not on a wrong value. -/
def Misread (readers : Readers) (path text : String) : Prop :=
  ∃ f, contentReader readers path text = .error (.fault f) ∧ f.isWrongValue = false

theorem breaks_parseContent {text : String} :
    Breaks (parseContent readers path text) ↔ Misread readers path text := by
  unfold parseContent Misread
  rcases contentReader readers path text with (detail | f) | v
  · simp
  · cases hf : f.isWrongValue <;> simp [hf]
  · simp

theorem parseContent_failsWith {text : String} :
    FailsWith Error.IsInput (parseContent readers path text) := by
  unfold parseContent
  split
  · exact .ok _
  · exact .fail trivial
  · split
    · exact .fail trivial
    · exact .faulty _

/-- A content breaks: its file cannot be read as text, the reader fails, or a field of its item is
ill-typed. -/
inductive ContentBreaks (fs : Files) (path : String) (readers : Readers) : Prop
  | unread (h : fs.Unread (Files.tidy path))
  | reader {text : String} (htext : fs.text (Files.tidy path) = .ok text)
    (h : Misread readers path text)
  | misfits {text : String} {es : Entries} (htext : fs.text (Files.tidy path) = .ok text)
    (hes : parseContent readers path text = .ok (.map es)) (h : Content.Misfits es)

theorem breaks_loadContent :
    Breaks (loadContent fs path readers) ↔ ContentBreaks fs path readers := by
  unfold loadContent
  rw [breaks_bind, breaks_withMissing]
  constructor
  · rintro (h | ⟨text, htext, h⟩)
    · exact .unread h
    · rw [withMissing_ok] at htext
      rcases breaks_bind.1 h with h | ⟨v, hv, h⟩
      · exact .reader htext (breaks_parseContent.1 h)
      · split at h
        · exact .misfits htext hv (Content.breaks_ofValue_map.1 h)
        · exact absurd h (not_breaks_fail _)
  · rintro (h | ⟨htext, h⟩ | ⟨htext, hes, h⟩)
    · exact .inl h
    · exact .inr ⟨_, withMissing_ok.2 htext, breaks_bind.2 (.inl (breaks_parseContent.2 h))⟩
    · refine .inr ⟨_, withMissing_ok.2 htext, breaks_bind.2 (.inr ⟨_, hes, ?_⟩)⟩
      exact Content.breaks_ofValue_map.2 h

theorem loadContent_failsWith : FailsWith Error.IsInput (loadContent fs path readers) := by
  refine .bind (fun e h => ?_) fun text => .bind parseContent_failsWith fun v => ?_
  · rw [withMissing_failsWith e h]
    trivial
  · split
    · rw [Content.ofValue_map]
      exact (Content.ofEntries_uses _).failsWith
    · exact .fail trivial

/-! ### Documented readers -/

section Documented

variable (h : readers.IsDocumented)
include h

theorem loadBreaks_iff : LoadBreaks fs path readers ↔ fs.Unread path := by
  constructor
  · rintro (hunread | ⟨-, hfault⟩)
    · exact hunread
    · exact absurd hfault (h.config _ _)
  · exact .unread

theorem not_misread {text : String} : ¬Misread readers path text := by
  rintro ⟨f, hf, -⟩
  unfold contentReader at hf
  split at hf
  · exact h.json _ _ hf
  · exact h.yaml _ _ hf

end Documented

end Config

end Syndicate
