import Syndicate.Proofs.Entries
import Syndicate.Proofs.Evaluation

/-! When an item meets conditions that are given as a mapping: one of the tags asked for is among its
own, its type and language are those asked for, and it has media or none as asked. What is absent or
null asks nothing; an empty text asks nothing as a type or a language, but no tags to choose from are
never met. -/

namespace Syndicate

/-! ### Values -/

namespace Value

variable {v w : Value} {xs ys : List Value}

/-- The tags that a value lists; a text is a single one. -/
def tags : Value → List Value
  | .text s => [.text s]
  | .list xs => xs
  | _ => []

/-- Whether all values of a row are texts. -/
def AllTexts (xs : List Value) : Prop := ∀ x ∈ xs, ∃ s, x = .text s

/-- Tags in text: none, a single one, or a list of them. -/
inductive IsTags : Value → Prop
  | null : IsTags .null
  | text (s : String) : IsTags (.text s)
  | list {xs : List Value} (h : AllTexts xs) : IsTags (.list xs)

theorem IsTags.allTexts (h : v.IsTags) : AllTexts v.tags := by
  cases h with
  | null => exact fun x hx => absurd hx List.not_mem_nil
  | text s => exact fun x hx => ⟨s, List.mem_singleton.1 hx⟩
  | list h => exact h

theorem asSet_of_allTexts (h : AllTexts xs) : asSet xs = .ok xs := by
  refine if_pos (List.all_eq_true.2 fun x hx => ?_)
  obtain ⟨s, rfl⟩ := h x hx
  rfl

theorem isNull_iff : v.isNull = true ↔ v = .null := by
  cases v <;> simp [isNull]

theorem same_text {s : String} : v.same (.text s) = true ↔ v = .text s := by
  have halike : v.alike (.text s) = v.same (.text s) := by
    cases v <;> simp [alike, isOneNan]
  rw [← halike, alike_text_right]

theorem same_bool (a b : Bool) : (Value.bool a).same (.bool b) = (a == b) := by
  cases a <;> cases b <;> rfl

end Value

namespace Conditions

variable {v w : Value} {k : Conditions} {c d : Content} {s : Source} {xs ys : List Value}
  {a b es fs : Entries} {key : String}

/-! ### One condition -/

theorem share_iff (h : Value.AllTexts xs) : share xs ys = true ↔ ∃ x ∈ xs, x ∈ ys := by
  simp only [share, List.any_eq_true]
  refine exists_congr fun x => and_congr_right fun hx => ?_
  obtain ⟨t, rfl⟩ := h x hx
  simp [Entries.alike_text]

theorem agrees_null (w : Value) : agrees .null w = true := rfl

theorem agrees_ifTruthy :
    agrees (ifTruthy v) w = true ↔ v.truthy = false ∨ w.same v = true := by
  unfold ifTruthy
  cases hv : v.truthy with
  | false => simp [agrees_null]
  | true =>
    have hnull : v.isNull = false := by
      cases v with
      | null => cases hv
      | _ => rfl
    simp [agrees, hnull]

/-- One of the tags asked for is among those of an item, if any are asked for. -/
def TagsMet (c : Content) (v : Value) : Prop := v = .null ∨ ∃ t ∈ v.tags, t ∈ c.tags

/-- A field of an item is as asked, if anything is asked of it. -/
def FieldMet (field v : Value) : Prop := v.truthy = false ∨ field.same v = true

/-- An item has media or has none as asked, if it is asked. -/
def MediaMet (c : Content) (v : Value) : Prop :=
  v = .null ∨ (v.truthy = true ↔ ∃ m ∈ c.media, m.2.truthy = true)

/-- The keys that say whether media are asked for. -/
def mediaKeys : List String := ["hasMedia", "has_media"]

/-- An item has all that a mapping of conditions asks for. -/
structure MetBy (es : Entries) (c : Content) : Prop where
  tags : TagsMet c (Entries.get es "tags")
  type : FieldMet c.type (Entries.get es "type")
  lang : FieldMet c.lang (Entries.get es "lang")
  media : ∀ key ∈ mediaKeys, MediaMet c (Entries.get es key)

/-- A mapping of conditions asks for tags in text, and for media under one key only. -/
structure WellStated (es : Entries) : Prop where
  tags : (Entries.get es "tags").IsTags
  media : Entries.get? es "hasMedia" = none ∨ Entries.get? es "has_media" = none

/-- The tags of conditions as they are kept. -/
def keptTags (v : Value) : Value := if v.isNull then .null else .list v.tags

theorem tagsOf_isTags (h : v.IsTags) : tagsOf v = .ok (keptTags v) := by
  cases h <;> rfl

theorem tagsMeet_iff (hk : k.tags = keptTags v) (hv : v.IsTags) (hc : Value.AllTexts c.tags) :
    ∃ met, k.tagsMeet c.tags = .ok met ∧ (met = true ↔ TagsMet c v) := by
  unfold TagsMet
  cases hnull : v.isNull with
  | true =>
    rw [keptTags, if_pos hnull] at hk
    exact ⟨true, tagsMeet_null hk _, by simp [Value.isNull_iff.1 hnull]⟩
  | false =>
    rw [keptTags, if_neg (by simp [hnull])] at hk
    have hne : v ≠ .null := by
      rintro rfl
      cases hnull
    refine ⟨share v.tags c.tags, ?_, by simp [share_iff hv.allTexts, hne]⟩
    rw [tagsMeet_list hk, Value.asSet_of_allTexts hv.allTexts, Value.asSet_of_allTexts hc]
    rfl

/-- Whether media are asked for as it is kept. -/
def keptMedia (v : Value) : Value := if v.isNull then .null else .bool v.truthy

theorem hasMediaOf_eq (es : Entries) : hasMediaOf es =
    keptMedia ((Entries.get? es "hasMedia").getD (Entries.get es "has_media")) := by
  unfold hasMediaOf keptMedia
  generalize (Entries.get? es "hasMedia").getD (Entries.get es "has_media") = v
  cases v <;> rfl

theorem agrees_media (v : Value) :
    agrees (keptMedia v) (.bool c.hasMedia) = true ↔ MediaMet c v := by
  have hmedia : c.hasMedia = true ↔ ∃ m ∈ c.media, m.2.truthy = true := List.any_eq_true
  unfold MediaMet keptMedia
  cases hnull : v.isNull with
  | true => simp [Value.isNull_iff.1 hnull, agrees_null]
  | false =>
    have hne : v ≠ .null := by
      rintro rfl
      cases hnull
    rw [if_neg Bool.false_ne_true, agrees, Value.same_bool, ← hmedia, ← Bool.eq_iff_iff]
    simp only [Value.isNull, Bool.false_or, beq_iff_eq, hne, false_or]
    exact eq_comm

/-- Asked under one key only, the other one asks nothing. -/
theorem agrees_hasMediaOf
    (h : Entries.get? es "hasMedia" = none ∨ Entries.get? es "has_media" = none) :
    agrees (hasMediaOf es) (.bool c.hasMedia) = true ↔
      ∀ key ∈ mediaKeys, MediaMet c (Entries.get es key) := by
  have hnull : MediaMet c .null := .inl rfl
  rw [hasMediaOf_eq, agrees_media]
  simp only [mediaKeys, List.forall_mem_cons, List.not_mem_nil, false_implies, implies_true,
    and_true]
  obtain h | h := h
  · simp only [Entries.get, h, Option.getD_none, hnull, true_and]
  · simp only [Entries.get, h, Option.getD_none, hnull, and_true]

/-! ### All of them -/

/-- Whether what is given meets conditions that are still to be read. -/
def judge (v : Value) (s : Source) : Outcome Bool := ofValue v >>= fun k => k.accept s

theorem ofValue_map (es : Entries) : ofValue (.map es) = ofEntries es := by
  cases es <;> rfl

theorem judge_map (es : Entries) (s : Source) :
    judge (.map es) s = ofEntries es >>= fun k => k.accept s := by
  rw [judge, ofValue_map]

/-- Empty conditions do not look at an item, but any item meets them. -/
theorem accept_eq_meet (hc : s.content = .ok c) (k : Conditions) : k.accept s = k.meet c := by
  unfold accept
  split
  · rename_i hempty
    simp only [isEmpty, Bool.and_eq_true, Value.isNull_iff] at hempty
    obtain ⟨⟨⟨htags, htype⟩, hlang⟩, hmedia⟩ := hempty
    rw [meet, tagsMeet_null htags, htype, hlang, hmedia]
    rfl
  · rw [hc]
    rfl

/-- Conditions in a mapping as they are kept. -/
def kept (es : Entries) : Conditions where
  tags := keptTags (Entries.get es "tags")
  type := ifTruthy (Entries.get es "type")
  lang := ifTruthy (Entries.get es "lang")
  hasMedia := hasMediaOf es

theorem judge_eq_meet (hc : s.content = .ok c) (hes : WellStated es) :
    judge (.map es) s = (kept es).meet c := by
  have hkept : ofEntries es = .ok (kept es) := by
    rw [ofEntries, tagsOf_isTags hes.tags]
    rfl
  rw [judge_map, hkept, ← accept_eq_meet hc]
  rfl

/-- An item is found to meet well stated conditions if and only if it has all that they ask for. -/
theorem meet_kept (hes : WellStated es) (htags : Value.AllTexts c.tags) :
    ∃ met, (kept es).meet c = .ok met ∧ (met = true ↔ MetBy es c) := by
  obtain ⟨met, hmet, hiff⟩ := tagsMeet_iff (k := kept es) rfl hes.tags htags
  refine ⟨_, by rw [meet, hmet]; rfl, ?_⟩
  simp only [Bool.and_eq_true, hiff, kept, agrees_ifTruthy, agrees_hasMediaOf hes.media]
  constructor
  · rintro ⟨⟨⟨htags, htype⟩, hlang⟩, hmedia⟩
    exact ⟨htags, htype, hlang, hmedia⟩
  · rintro ⟨htags, htype, hlang, hmedia⟩
    exact ⟨⟨⟨htags, htype⟩, hlang⟩, hmedia⟩

/-! ### The same tags in another order -/

theorem TagsMet.congr (h : TagsMet c v) (hnull : v = .null → w = .null)
    (hvw : ∀ t ∈ v.tags, t ∈ w.tags) (hcd : ∀ t ∈ c.tags, t ∈ d.tags) : TagsMet d w :=
  h.imp hnull fun ⟨t, ht, hc⟩ => ⟨t, hvw t ht, hcd t hc⟩

/-- Conditions that differ in the order of the tags they ask for, in how often they name one, and in
the order of their keys. -/
structure Reordered (es fs : Entries) : Prop where
  isTags : (Entries.get fs "tags").IsTags
  null : Entries.get fs "tags" = .null ↔ Entries.get es "tags" = .null
  tags : ∀ t, t ∈ (Entries.get fs "tags").tags ↔ t ∈ (Entries.get es "tags").tags
  rest : ∀ key, key ≠ "tags" → Entries.get? fs key = Entries.get? es key

theorem Reordered.get (h : Reordered es fs) (hkey : key ≠ "tags") :
    Entries.get fs key = Entries.get es key := by
  rw [Entries.get, Entries.get, h.rest key hkey]

theorem Reordered.wellStated (h : Reordered es fs) (hes : WellStated es) : WellStated fs where
  tags := h.isTags
  media := by
    rw [h.rest "hasMedia" (by decide), h.rest "has_media" (by decide)]
    exact hes.media

/-- Only the set of its tags matters of an item, besides the fields. -/
theorem Reordered.metBy (h : Reordered es fs) (hbody : d.toBody = c.toBody)
    (htags : ∀ t, t ∈ d.tags ↔ t ∈ c.tags) : MetBy fs d ↔ MetBy es c := by
  have hmedia : ∀ v, MediaMet d v ↔ MediaMet c v := fun v => by rw [MediaMet, hbody]; rfl
  have hother : ∀ key ∈ mediaKeys, key ≠ "tags" := by decide
  constructor
  · rintro ⟨ht, htype, hlang, hm⟩
    rw [h.get (by decide), hbody] at htype hlang
    refine ⟨ht.congr h.null.1 (fun t => (h.tags t).1) fun t => (htags t).1, htype, hlang, ?_⟩
    intro key hkey
    rw [← hmedia, ← h.get (hother key hkey)]
    exact hm key hkey
  · rintro ⟨ht, htype, hlang, hm⟩
    refine ⟨ht.congr h.null.2 (fun t => (h.tags t).2) fun t => (htags t).2, ?_, ?_, ?_⟩
    · rwa [h.get (by decide), hbody]
    · rwa [h.get (by decide), hbody]
    · intro key hkey
      rw [hmedia, h.get (hother key hkey)]
      exact hm key hkey

/-! ### Conditions put together -/

/-- A mapping has the conditions of two others, which ask about different fields. -/
structure Joins (a b es : Entries) : Prop where
  both : ∀ key ∈ "tags" :: "type" :: "lang" :: mediaKeys,
    Entries.get? es key = (Entries.get? a key).or (Entries.get? b key)
  apart : ∀ key ∈ ["tags", "type", "lang"], Entries.get? a key = none ∨ Entries.get? b key = none
  media : (∀ key ∈ mediaKeys, Entries.get? a key = none) ∨
    ∀ key ∈ mediaKeys, Entries.get? b key = none

namespace Joins

variable (h : Joins a b es)
include h

theorem apart_at (hkey : key ∈ "tags" :: "type" :: "lang" :: mediaKeys) :
    Entries.get? a key = none ∨ Entries.get? b key = none := by
  obtain hfield | hmedia :=
    List.mem_append.1 (show key ∈ ["tags", "type", "lang"] ++ mediaKeys from hkey)
  · exact h.apart key hfield
  · exact h.media.imp (· key hmedia) (· key hmedia)

/-- What nothing asks for is met where one of them is silent. -/
theorem at_iff (key : String) (hkey : key ∈ "tags" :: "type" :: "lang" :: mediaKeys)
    {P : Value → Prop} (hnull : P .null) :
    P (Entries.get es key) ↔ P (Entries.get a key) ∧ P (Entries.get b key) := by
  simp only [Entries.get, h.both key hkey]
  obtain hnone | hnone := h.apart_at hkey
  · simp [hnone, hnull]
  · simp [hnone, hnull]

theorem metBy_iff : MetBy es c ↔ MetBy a c ∧ MetBy b c := by
  have htags := h.at_iff "tags" (by decide) (P := TagsMet c) (.inl rfl)
  have htype := h.at_iff "type" (by decide) (P := FieldMet c.type) (.inl rfl)
  have hlang := h.at_iff "lang" (by decide) (P := FieldMet c.lang) (.inl rfl)
  have hmedia : ∀ key ∈ mediaKeys, (MediaMet c (Entries.get es key) ↔
      MediaMet c (Entries.get a key) ∧ MediaMet c (Entries.get b key)) := fun key hkey =>
    h.at_iff key (List.mem_append_right ["tags", "type", "lang"] hkey) (.inl rfl)
  constructor
  · rintro ⟨ht, hy, hl, hm⟩
    exact ⟨⟨(htags.1 ht).1, (htype.1 hy).1, (hlang.1 hl).1,
        fun key hkey => ((hmedia key hkey).1 (hm key hkey)).1⟩,
      ⟨(htags.1 ht).2, (htype.1 hy).2, (hlang.1 hl).2,
        fun key hkey => ((hmedia key hkey).1 (hm key hkey)).2⟩⟩
  · rintro ⟨ha, hb⟩
    exact ⟨htags.2 ⟨ha.tags, hb.tags⟩, htype.2 ⟨ha.type, hb.type⟩, hlang.2 ⟨ha.lang, hb.lang⟩,
      fun key hkey => (hmedia key hkey).2 ⟨ha.media key hkey, hb.media key hkey⟩⟩

theorem wellStated (ha : WellStated a) (hb : WellStated b) : WellStated es where
  tags := (h.at_iff "tags" (by decide) .null).2 ⟨ha.tags, hb.tags⟩
  media := by
    rw [h.both "hasMedia" (by decide), h.both "has_media" (by decide)]
    obtain hnone | hnone := h.media
    · rw [hnone "hasMedia" (by decide), hnone "has_media" (by decide)]
      simpa using hb.media
    · rw [hnone "hasMedia" (by decide), hnone "has_media" (by decide)]
      simpa using ha.media

end Joins

/-! ### Judging an item -/

/-- The judgement of an item by well stated conditions is whether it has all that they ask for. It
is the same for the item and for a mapping that it is read from, and in whatever order and how often
the tags are given on either side; and conditions on different fields are met together if and only
if each of them is met. -/
theorem judge_metBy (hes : WellStated es) (hc : s.content = .ok c)
    (htags : Value.AllTexts c.tags) :
    (∃ met, judge (.map es) s = .ok met ∧ (met = true ↔ MetBy es c)) ∧
    judge (.map es) (.item c) = judge (.map es) s ∧
    (∀ fs t d, Reordered es fs → t.content = .ok d → d.toBody = c.toBody →
      (∀ x, x ∈ d.tags ↔ x ∈ c.tags) → judge (.map fs) t = judge (.map es) s) ∧
    ∀ fs joint, WellStated fs → Joins es fs joint → (judge (.map joint) s = .ok true ↔
      judge (.map es) s = .ok true ∧ judge (.map fs) s = .ok true) := by
  have hmet : ∀ {fs}, WellStated fs → (judge (.map fs) s = .ok true ↔ MetBy fs c) := by
    intro fs hfs
    obtain ⟨met, hmeet, hiff⟩ := meet_kept hfs htags
    rw [judge_eq_meet hc hfs, hmeet, Except.ok.injEq, hiff]
  obtain ⟨met, hmeet, hiff⟩ := meet_kept hes htags
  refine ⟨⟨met, by rw [judge_eq_meet hc hes, hmeet], hiff⟩, ?_, ?_, ?_⟩
  · rw [judge_eq_meet hc hes, judge_eq_meet rfl hes]
  · intro fs t d hfs ht hbody hsame
    have hd : Value.AllTexts d.tags := fun x hx => htags x ((hsame x).1 hx)
    obtain ⟨met', hmeet', hiff'⟩ := meet_kept (hfs.wellStated hes) hd
    rw [hfs.metBy hbody hsame, ← hiff, ← Bool.eq_iff_iff] at hiff'
    rw [judge_eq_meet hc hes, judge_eq_meet ht (hfs.wellStated hes), hmeet, hmeet', hiff']
  · intro fs joint hfs hjoin
    rw [hmet (hjoin.wellStated hes hfs), hjoin.metBy_iff, hmet hes, hmet hfs]

/-- Conditions on tags and media, conditions on the language, and an item for both. -/
def illustrated : Entries :=
  [(.text "tags", .list [.text "news", .text "public"]), (.text "hasMedia", .bool true)]

def ukrainian : Entries := [(.text "lang", .text "uk")]

def portrait : Content :=
  { photo := .text "p.jpg", lang := .text "uk", tags := [.text "public", .text "public"] }

theorem judge_metBy_portrait :
    (WellStated illustrated ∧ (Source.raw (.map portrait.toEntries)).content = .ok portrait ∧
      Value.AllTexts portrait.tags) ∧
    (∃ met, judge (.map illustrated) (.raw (.map portrait.toEntries)) = .ok met ∧
      (met = true ↔ MetBy illustrated portrait)) ∧
    (judge (.map (illustrated ++ ukrainian)) (.raw (.map portrait.toEntries)) = .ok true ↔
      judge (.map illustrated) (.raw (.map portrait.toEntries)) = .ok true ∧
        judge (.map ukrainian) (.raw (.map portrait.toEntries)) = .ok true) := by
  have htexts : ∀ ss : List String, Value.AllTexts (ss.map .text) := fun ss x hx =>
    (List.mem_map.1 hx).imp fun _ h => h.2.symm
  have hillustrated : WellStated illustrated := ⟨.list (htexts ["news", "public"]), .inr rfl⟩
  have hukrainian : WellStated ukrainian := ⟨.null, .inl rfl⟩
  have hread : (Source.raw (.map portrait.toEntries)).content = .ok portrait := by rfl
  have htags : Value.AllTexts portrait.tags := htexts ["public", "public"]
  have hjoins : Joins illustrated ukrainian (illustrated ++ ukrainian) :=
    ⟨fun key _ => Entries.get?_append _ _ key, by decide, .inr (by decide)⟩
  have hjudge := judge_metBy hillustrated hread htags
  exact ⟨⟨hillustrated, hread, htags⟩, hjudge.1, hjudge.2.2.2 _ _ hukrainian hjoins⟩

/-- Where there are no tags to choose from, no item has one of them. -/
example : judge (.map [(.text "tags", .list [])]) (.item portrait) = .ok false := by rfl

end Conditions

end Syndicate
