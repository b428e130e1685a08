import Syndicate.Proofs.Conditions

/-! Conditions given by their fields, and the same ones given as a mapping. A mapping leaves out a type
or a language that is empty, and the fields do not: they ask for an item whose type or language is
empty. -/

namespace Syndicate.Conditions

variable {k : Conditions} {c : Content} {s : Source} {v w : Value} {key : String}

/-- Each field is null or of its kind: a list of texts, a text, a text, and a truth value. -/
structure IsTyped (k : Conditions) : Prop where
  tags : k.tags = .null ∨ ∃ xs, k.tags = .list xs ∧ Value.AllTexts xs
  type : k.type = .null ∨ ∃ s, k.type = .text s
  lang : k.lang = .null ∨ ∃ s, k.lang = .text s
  hasMedia : k.hasMedia = .null ∨ ∃ b, k.hasMedia = .bool b

/-- The fields as a mapping, with whether media are asked for under a key of choice. -/
def toEntries (k : Conditions) (key : String) : Entries :=
  [(.text "tags", k.tags), (.text "type", k.type), (.text "lang", k.lang), (.text key, k.hasMedia)]

/-- The conditions without a type or a language that is empty. -/
def filled (k : Conditions) : Conditions :=
  { k with type := ifTruthy k.type, lang := ifTruthy k.lang }

theorem hasMediaOf_toEntries (hk : k.IsTyped) (hkey : key ∈ mediaKeys) :
    hasMediaOf (k.toEntries key) = k.hasMedia := by
  have hvalue : (Entries.get? (k.toEntries key) "hasMedia").getD
      (Entries.get (k.toEntries key) "has_media") = k.hasMedia := by
    simp only [mediaKeys, List.mem_cons, List.not_mem_nil, or_false] at hkey
    obtain rfl | rfl := hkey <;> rfl
  rw [hasMediaOf_eq, hvalue]
  obtain h | ⟨b, h⟩ := hk.hasMedia <;> rw [h] <;> rfl

theorem ofEntries_toEntries (hk : k.IsTyped) (hkey : key ∈ mediaKeys) :
    ofEntries (k.toEntries key) = .ok k.filled := by
  have htags : tagsOf (Entries.get (k.toEntries key) "tags") = .ok k.tags := by
    show tagsOf k.tags = .ok k.tags
    obtain h | ⟨xs, h, -⟩ := hk.tags <;> rw [h] <;> rfl
  rw [ofEntries, htags, hasMediaOf_toEntries hk hkey]
  rfl

theorem judge_toEntries (hk : k.IsTyped) (hkey : key ∈ mediaKeys) :
    judge (.map (k.toEntries key)) s = k.filled.accept s := by
  rw [judge_map, ofEntries_toEntries hk hkey]
  rfl

/-- An empty text asks for one where it is not left out. -/
theorem agrees_iff_ifTruthy (hv : v = .null ∨ ∃ s, v = .text s) :
    agrees v w = true ↔ agrees (ifTruthy v) w = true ∧ (v = .text "" → w = .text "") := by
  obtain rfl | ⟨s, rfl⟩ := hv
  · simp [ifTruthy, Value.truthy]
  · by_cases hs : s = ""
    · subst hs
      simp [ifTruthy, Value.truthy, agrees, Value.isNull, Value.same_text]
    · simp [ifTruthy, Value.truthy, hs]

/-- The type and the language of an item are empty where that is asked for. -/
def EmptiesMet (k : Conditions) (c : Content) : Prop :=
  (k.type = .text "" → c.type = .text "") ∧ (k.lang = .text "" → c.lang = .text "")

theorem meet_eq_filled_iff (hk : k.IsTyped) (c : Content) :
    k.meet c = k.filled.meet c ↔ (k.filled.meet c = .ok true → k.EmptiesMet c) := by
  have htags : k.filled.tagsMeet c.tags = k.tagsMeet c.tags := rfl
  have htype := agrees_iff_ifTruthy (w := c.type) hk.type
  have hlang := agrees_iff_ifTruthy (w := c.lang) hk.lang
  rw [meet, meet, htags]
  cases k.tagsMeet c.tags with
  | error f =>
    refine iff_of_true rfl fun h => ?_
    cases h
  | ok met =>
    show Except.ok _ = Except.ok _ ↔ (Except.ok _ = Except.ok true → _)
    rw [Except.ok.injEq, Except.ok.injEq, Bool.eq_iff_iff]
    simp only [Bool.and_eq_true, filled, htype, hlang]
    constructor
    · intro h hall
      obtain ⟨⟨⟨-, -, htype⟩, -, hlang⟩, -⟩ := h.2 hall
      exact ⟨htype, hlang⟩
    · intro h
      refine ⟨?_, fun hall => ?_⟩
      · rintro ⟨⟨⟨htags, htype, -⟩, hlang, -⟩, hmedia⟩
        exact ⟨⟨⟨htags, htype⟩, hlang⟩, hmedia⟩
      · obtain ⟨htype', hlang'⟩ := h hall
        obtain ⟨⟨⟨htags, htype⟩, hlang⟩, hmedia⟩ := hall
        exact ⟨⟨⟨htags, htype, htype'⟩, hlang, hlang'⟩, hmedia⟩

/-- What cannot be read meets empty conditions only. -/
theorem accept_of_unread {f : Failure} (hs : s.content = .error f) (k : Conditions) :
    k.accept s = if k.isEmpty then .ok true else .error f := by
  rw [accept, hs]
  rfl

/-- The fields and the mapping are judged alike, failures included, unless the mapping is met by an
item that cannot be read, or whose type or language is not the empty one that the fields ask for. -/
theorem accept_eq_judge_iff (hk : k.IsTyped) (hkey : key ∈ mediaKeys) (s : Source) :
    k.accept s = judge (.map (k.toEntries key)) s ↔
      (judge (.map (k.toEntries key)) s = .ok true → k.type = .text "" ∨ k.lang = .text "" →
        ∃ c, s.content = .ok c ∧ k.EmptiesMet c) := by
  rw [judge_toEntries hk hkey]
  by_cases hempty : k.type = .text "" ∨ k.lang = .text ""
  · cases hs : s.content with
    | ok c =>
      rw [accept_eq_meet hs, accept_eq_meet hs, meet_eq_filled_iff hk]
      refine imp_congr_right fun _ => ⟨fun h _ => ⟨c, rfl, h⟩, fun h => ?_⟩
      obtain ⟨d, hd, h⟩ := h hempty
      cases hd
      exact h
    | error f =>
      have hasks : k.isEmpty = false := by
        obtain h | h := hempty <;> simp [isEmpty, h, Value.isNull]
      rw [accept_of_unread hs, accept_of_unread hs, hasks]
      cases k.filled.isEmpty <;> simp [hempty]
  · have hfilled : k.filled = k := by
      obtain ⟨htype, hlang⟩ := not_or.1 hempty
      have hsame : ∀ v, v = .null ∨ (∃ s, v = .text s) → v ≠ .text "" → ifTruthy v = v := by
        rintro v (rfl | ⟨s, rfl⟩) hv
        · rfl
        · have hs : s ≠ "" := fun h => hv (by rw [h])
          simp [ifTruthy, Value.truthy, hs]
      rw [filled, hsame _ hk.type htype, hsame _ hk.lang hlang]
    rw [hfilled]
    exact iff_of_true rfl fun _ h => absurd h hempty

/-- Conditions that ask for an empty type, and an item that has one. -/
def untyped : Conditions := { tags := .list [.text "public"], type := .text "" }

def unsorted : Content := { text := .text "hi", type := .text "", tags := [.text "public"] }

theorem accept_eq_judge_unsorted : (untyped.IsTyped ∧ "has_media" ∈ mediaKeys) ∧
    untyped.accept (.item unsorted) =
      judge (.map (untyped.toEntries "has_media")) (.item unsorted) := by
  have htags : Value.AllTexts [.text "public"] := fun x hx => ⟨_, List.mem_singleton.1 hx⟩
  have htyped : untyped.IsTyped := ⟨.inr ⟨_, rfl, htags⟩, .inr ⟨_, rfl⟩, .inl rfl, .inl rfl⟩
  have hkey : "has_media" ∈ mediaKeys := by decide
  refine ⟨⟨htyped, hkey⟩, (accept_eq_judge_iff htyped hkey _).2 fun _ _ => ⟨unsorted, rfl, ?_, ?_⟩⟩
  · exact fun _ => rfl
  · exact nofun

/-- An item without a type does not have the empty one that the fields ask for, and the mapping asks
for none. -/
theorem accept_ne_judge_untyped : ({ type := .text "" } : Conditions).accept (.item {}) ≠
    judge (.map (({ type := .text "" } : Conditions).toEntries "hasMedia")) (.item {}) := by
  have hfields : ({ type := .text "" } : Conditions).accept (.item {}) = .ok false := by rfl
  have hmapping : judge (.map (({ type := .text "" } : Conditions).toEntries "hasMedia"))
      (.item {}) = .ok true := by rfl
  rw [hfields, hmapping]
  nofun

end Syndicate.Conditions
