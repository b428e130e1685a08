import Mathlib.Data.List.Pairwise
import Syndicate.Proofs.Config
import Syndicate.Proofs.Content.Copied

/-! Items read from mappings whose keys come in another order. Only options can tell the orders
apart: an option that is there under both its spellings has the value of the one that comes last. -/

namespace Syndicate

/-! ### Bindings in another order -/

namespace Entries

variable {α : Type} {es fs done done' : List (Value × α)} {e f : Value × α}

/-- Neither of two keys is found under the other. -/
def Unlike (k l : Value) : Prop := k.alike l = false ∧ l.alike k = false

instance : DecidableRel Unlike := fun _ _ => instDecidableAnd

instance : Std.Symm Unlike := ⟨fun _ _ => And.symm⟩

/-- No two bindings are of one key, as in any mapping. -/
def Distinct (es : List (Value × α)) : Prop := (es.map Prod.fst).Pairwise Unlike

instance : DecidablePred (Distinct : List (Value × α) → Prop) := fun es =>
  inferInstanceAs (Decidable ((es.map Prod.fst).Pairwise Unlike))

namespace Distinct

theorem apart (h : Distinct es) : es.Pairwise fun e f => f.1.alike e.1 = false :=
  (List.pairwise_map.1 h).imp And.right

theorem perm (h : Distinct es) (hp : es.Perm fs) : Distinct fs :=
  (hp.map Prod.fst).pairwise h And.symm

theorem eq_of_alike (h : Distinct es) (he : e ∈ es) (hf : f ∈ es)
    (halike : e.1.alike f.1 = true) : e = f := by
  by_contra hne
  have hapart := (List.pairwise_map.1 h).forall he hf hne
  exact Bool.false_ne_true (hapart.1.symm.trans halike)

end Distinct

/-- What is under a text, where no text stands twice. -/
theorem get?_eq_some_iff {es : Entries} {k : String} {v : Value}
    (h : es.Pairwise fun e f => f.1.alike e.1 = false) :
    get? es k = some v ↔ (.text k, v) ∈ es := by
  rw [get?_eq_under]
  induction h with
  | nil => simp [under]
  | @cons e es hhead _ ih =>
    obtain ⟨l, w⟩ := e
    by_cases hl : l = .text k
    · subst hl
      have hrest : (.text k, v) ∉ es := fun hmem =>
        Bool.false_ne_true ((hhead _ hmem).symm.trans (alike_text.2 rfl))
      rw [under_cons_same, Option.some.injEq, List.mem_cons, Prod.mk.injEq]
      simp [hrest, eq_comm]
    · rw [under_cons_of_ne hl, ih, List.mem_cons, Prod.mk.injEq]
      simp [Ne.symm hl]

/-- What is under a text does not depend on the order. -/
theorem get?_perm {es fs : Entries} (hes : es.Pairwise fun e f => f.1.alike e.1 = false)
    (hfs : fs.Pairwise fun e f => f.1.alike e.1 = false) (h : es.Perm fs) (k : String) :
    get? fs k = get? es k := by
  ext v
  rw [get?_eq_some_iff hfs, get?_eq_some_iff hes, h.mem_iff]

/-- Where one value is under a text in both orders, both go on with another value there. -/
theorem put_text_perm {es fs : Entries} {k : String} (h : es.Perm fs)
    (hk : get? fs k = get? es k) (v : Value) :
    (put es (.text k) v).Perm (put fs (.text k) v) := by
  have hput : ∀ {es : Entries} {w : Value}, get? es k = some w → ∃ rest,
      es.Perm ((.text k, w) :: rest) ∧ (put es (.text k) v).Perm ((.text k, v) :: rest) := by
    intro es w hw
    induction es with
    | nil => cases hw
    | cons e es ih =>
      obtain ⟨l, x⟩ := e
      rw [get?_eq_under] at hw
      by_cases hl : l = .text k
      · subst hl
        rw [under_cons_same, Option.some.injEq] at hw
        rw [put, if_pos (alike_text.2 rfl), hw]
        exact ⟨es, .rfl, .rfl⟩
      · rw [under_cons_of_ne hl, ← get?_eq_under] at hw
        obtain ⟨rest, hes, hafter⟩ := ih hw
        rw [put, if_neg fun halike => hl (alike_text.1 halike)]
        exact ⟨(l, x) :: rest, (hes.cons _).trans (.swap ..), (hafter.cons _).trans (.swap ..)⟩
  cases hes : get? es k with
  | none =>
    rw [put_of_get?_eq_none hes, put_of_get?_eq_none (hk.trans hes)]
    exact h.append_right _
  | some w =>
    obtain ⟨rest, hold, hnew⟩ := hput hes
    obtain ⟨rest', hold', hnew'⟩ := hput (hk.trans hes)
    have hrest : rest.Perm rest' := ((hold.symm.trans h).trans hold').cons_inv
    exact hnew.trans ((hrest.cons _).trans hnew'.symm)

/-! ### Binding keys one after the other -/

/-- Bindings of one key are one binding. -/
def Coherent (es : List (Value × α)) : Prop :=
  ∀ e ∈ es, ∀ f ∈ es, e.1.alike f.1 = true → e = f

theorem Coherent.mono (h : Coherent es) (hs : fs ⊆ es) : Coherent fs :=
  fun e he f hf => h e (hs he) f (hs hf)

/-- A binding that is there already stays where it is. -/
theorem put_of_coherent (h : Coherent (e :: done)) :
    put done e.1 e.2 = if done.any (e.1.alike ·.1) then done else done ++ [e] := by
  induction done with
  | nil => rfl
  | cons d done ih =>
    have hrest : Coherent (e :: done) := h.mono (List.cons_subset_cons _ (List.subset_cons_self ..))
    rw [put, ih hrest, List.any_cons]
    cases halike : e.1.alike d.1 with
    | true =>
      obtain rfl : e = d := h e (by simp) d (by simp) halike
      simp
    | false =>
      simp only [Bool.false_eq_true, ↓reduceIte, Bool.false_or]
      split <;> rfl

theorem put_subset (h : Coherent (e :: done)) : put done e.1 e.2 ⊆ e :: done := by
  rw [put_of_coherent h]
  split
  · exact List.subset_cons_self ..
  · simp

theorem put_perm (h : done.Perm done') (hc : Coherent (e :: done)) :
    (put done e.1 e.2).Perm (put done' e.1 e.2) := by
  have hc' : Coherent (e :: done') := hc.mono (h.symm.cons e).subset
  rw [put_of_coherent hc, put_of_coherent hc', h.any_eq]
  split
  · exact h
  · exact h.append_right _

/-- Two bindings may change places. -/
theorem put_swap (h : Coherent (e :: f :: done)) :
    (put (put done e.1 e.2) f.1 f.2).Perm (put (put done f.1 f.2) e.1 e.2) := by
  have hput : ∀ {e f : Value × α}, Coherent (e :: f :: done) → f.1.alike e.1 = false →
      put (put done e.1 e.2) f.1 f.2 =
        if done.any (f.1.alike ·.1) then put done e.1 e.2 else put done e.1 e.2 ++ [f] := by
    intro e f h hfe
    have he : Coherent (e :: done) := h.mono (by simp)
    have hf : Coherent (f :: put done e.1 e.2) :=
      h.mono (List.Subset.trans (List.cons_subset_cons f (put_subset he)) (by simp))
    have hany : (put done e.1 e.2).any (f.1.alike ·.1) = done.any (f.1.alike ·.1) := by
      rw [put_of_coherent he]
      split <;> simp [hfe]
    rw [put_of_coherent hf, hany]
  by_cases hsame : e = f
  · rw [hsame]
  · have hef : e.1.alike f.1 = false :=
      Bool.eq_false_iff.2 fun ha => hsame (h e (by simp) f (by simp) ha)
    have hfe : f.1.alike e.1 = false :=
      Bool.eq_false_iff.2 fun ha => hsame (h f (by simp) e (by simp) ha).symm
    have h' : Coherent (f :: e :: done) := h.mono (by simp)
    rw [hput h hfe, hput h' hef, put_of_coherent (h.mono (by simp)),
      put_of_coherent (h.mono (by simp))]
    split
    · split <;> exact .rfl
    · split
      · exact .rfl
      · rw [List.append_assoc, List.append_assoc]
        exact List.perm_append_comm.append_left done

/-- Binds the keys of a row one after the other. -/
def putAll (done es : List (Value × α)) : List (Value × α) :=
  es.foldl (fun done e => put done e.1 e.2) done

theorem coherent_put (h : Coherent (done ++ e :: es)) : Coherent (put done e.1 e.2 ++ es) := by
  have hput : put done e.1 e.2 ⊆ e :: done := put_subset (h.mono (by simp))
  refine h.mono fun d hd => ?_
  have hmem : d ∈ put done e.1 e.2 → d = e ∨ d ∈ done := fun hd => List.mem_cons.1 (hput hd)
  simp only [List.mem_append, List.mem_cons] at hd ⊢
  tauto

theorem putAll_congr (h : done.Perm done') (hc : Coherent (done ++ es)) :
    (putAll done es).Perm (putAll done' es) := by
  induction es generalizing done done' with
  | nil => exact h
  | cons e es ih => exact ih (put_perm h (hc.mono (by simp))) (coherent_put hc)

/-- Where bindings of one key are one binding, their order does not matter. -/
theorem putAll_perm (h : es.Perm fs) (hd : done.Perm done') (hc : Coherent (done ++ es)) :
    (putAll done es).Perm (putAll done' fs) := by
  induction h generalizing done done' with
  | nil => exact hd
  | cons e _ ih => exact ih (put_perm hd (hc.mono (by simp))) (coherent_put hc)
  | swap e f es =>
    -- the two collections differ as well, so the swap is first made over `done` alone
    have hstart : Coherent (f :: e :: done) := hc.mono (by simp)
    have hswap := put_swap hstart
    have hmiddle := put_perm (e := f) (put_perm hd (hstart.mono (by simp)))
      (hstart.mono (List.cons_subset_cons f (put_subset (hstart.mono (by simp)))))
    exact putAll_congr (hswap.trans hmiddle) (coherent_put (coherent_put hc))
  | trans hes _ ih ih' =>
    have hc' := hc.mono ((hes.symm.append_left _).subset)
    exact (ih .rfl hc).trans (ih' hd hc')

end Entries

/-! ### Items -/

namespace Content

/-- Two items are equal: they are the same but for the order of their options. -/
structure Shuffled (c d : Content) : Prop where
  body : d.toBody = c.toBody
  tags : d.tags = c.tags
  options : c.options.Perm d.options
  looked : ∀ key, d.option? key = c.option? key

namespace Shuffled

variable {c d : Content}

theorem refl (c : Content) : Shuffled c c := ⟨rfl, rfl, .rfl, fun _ => rfl⟩

theorem option (h : Shuffled c d) (key : String) : d.option key = c.option key :=
  congrArg (·.getD .null) (h.looked key)

theorem setOption (h : Shuffled c d) (key : String) (v : Value) :
    Shuffled (c.setOption key v) (d.setOption key v) := by
  refine ⟨h.body, h.tags, Entries.put_text_perm h.options (h.looked key) v, fun other => ?_⟩
  by_cases ho : other = key
  · rw [ho]
    exact (Entries.get?_put_same ..).trans (Entries.get?_put_same ..).symm
  · exact (Entries.get?_put_of_ne _ v ho).trans
      ((h.looked other).trans (Entries.get?_put_of_ne _ v ho).symm)

end Shuffled

/-! ### Options -/

section Options

variable {os os' : Entries}

/-- An option is there under both its spellings with different values. -/
def Crossed (os : Entries) : Prop := ∃ second first v w, (second, first) ∈ aliases ∧
  Entries.get? os second = some v ∧ Entries.get? os first = some w ∧ v ≠ w

/-- Bindings under first spellings, also where two fall together. -/
def spelled (os : Entries) : Entries := os.map fun e => (optionKey e.1, e.2)

theorem keepOptions_eq_putAll (os : Entries) : keepOptions os = Entries.putAll [] (spelled os) := by
  rw [keepOptions, Entries.putAll, spelled, List.foldl_map]

theorem optionKey_second {s t : String} (h : (s, t) ∈ aliases) :
    optionKey (.text s) = .text t ∧ optionKey (.text t) = .text t := by
  simp only [aliases, List.mem_cons, Prod.mk.injEq, List.not_mem_nil, or_false] at h
  obtain ⟨rfl, rfl⟩ | ⟨rfl, rfl⟩ | ⟨rfl, rfl⟩ | ⟨rfl, rfl⟩ := h <;> exact ⟨rfl, rfl⟩

theorem optionKey_cases (k : Value) :
    optionKey k = k ∨ ∃ s t, (s, t) ∈ aliases ∧ k = .text s ∧ optionKey k = .text t := by
  cases k with
  | text s =>
    cases h : aliases.lookup s with
    | none => exact .inl (by simp [optionKey, h])
    | some t =>
      obtain ⟨before, after, haliases, -⟩ := List.lookup_eq_some_iff.1 h
      exact .inr ⟨s, t, haliases ▸ List.mem_append_right _ List.mem_cons_self, rfl,
        by simp [optionKey, h]⟩
  | _ => exact .inl rfl

/-- A first spelling belongs to one second spelling. -/
theorem second_unique {s s' t : String} (h : (s, t) ∈ aliases) (h' : (s', t) ∈ aliases) :
    s = s' := by
  have hall : ∀ p ∈ aliases, ∀ q ∈ aliases, p.2 = q.2 → p.1 = q.1 := by decide
  exact hall _ h _ h' rfl

/-- Only the two spellings of an option fall together, and then their values are the same. -/
theorem coherent_spelled (hd : Entries.Distinct os) (hc : ¬ Crossed os) :
    Entries.Coherent (spelled os) := by
  have hvalue : ∀ {s t : String} {e f : Value × Value}, (s, t) ∈ aliases → e ∈ os → f ∈ os →
      e.1 = .text s → f.1 = .text t → e.2 = f.2 := by
    intro s t e f hst he hf hes hft
    by_contra hne
    refine hc ⟨s, t, e.2, f.2, hst, ?_, ?_, hne⟩
    · exact (Entries.get?_eq_some_iff hd.apart).2 (hes ▸ he)
    · exact (Entries.get?_eq_some_iff hd.apart).2 (hft ▸ hf)
  intro x hx y hy halike
  obtain ⟨e, he, rfl⟩ := List.mem_map.1 hx
  obtain ⟨f, hf, rfl⟩ := List.mem_map.1 hy
  dsimp only at halike
  -- a key keeps its spelling or takes the first one; when just one of two does, both are in `os`
  rcases optionKey_cases e.1 with hek | ⟨s, t, hst, hes, het⟩
  · rcases optionKey_cases f.1 with hfk | ⟨s', t', hst', hfs, hft⟩
    · rw [hek, hfk] at halike
      rw [hd.eq_of_alike he hf halike]
    · rw [hek, hft] at halike
      have heq := alike_text_right.1 halike
      rw [hek, hft, heq, hvalue hst' hf he hfs heq]
  · rw [het] at halike
    have hfkey := Entries.alike_text.1 halike
    rcases optionKey_cases f.1 with hfk | ⟨s', t', hst', hfs, hft⟩
    · rw [hfk] at hfkey
      rw [het, hfk, hfkey, hvalue hst he hf hes hfkey]
    · rw [hft] at hfkey
      obtain rfl : t' = t := Value.text.inj hfkey
      obtain rfl := second_unique hst hst'
      rw [hd.eq_of_alike he hf (hes ▸ hfs ▸ Entries.alike_text.2 rfl)]

/-- Options are kept alike in any order, unless one is there in both spellings with different values. -/
theorem keepOptions_perm (hd : Entries.Distinct os) (hc : ¬ Crossed os) (h : os.Perm os') :
    (keepOptions os).Perm (keepOptions os') := by
  rw [keepOptions_eq_putAll, keepOptions_eq_putAll]
  exact Entries.putAll_perm (h.map _) .rfl (coherent_spelled hd hc)

/-- Of both spellings of an option the one that comes last counts. -/
theorem get?_keepOptions_last {key first : String} (h : optionKey (.text key) = .text first)
    (os : Entries) (v : Value) :
    Entries.get? (keepOptions (os ++ [(.text key, v)])) first = some v := by
  rw [keepOptions, List.foldl_append, List.foldl_cons, List.foldl_nil, h]
  exact Entries.get?_put_same ..

theorem exists_last {key : String} {v : Value} (h : Entries.get? os key = some v) :
    ∃ rest, os.Perm (rest ++ [(.text key, v)]) := by
  rw [get?_eq_under, under, Option.map_eq_some_iff] at h
  obtain ⟨e, he, rfl⟩ := h
  have hkey : e.1 = .text key := alike_text_right.1 (by simpa using List.find?_some he)
  obtain ⟨before, after, rfl⟩ := List.append_of_mem (List.mem_of_find?_eq_some he)
  refine ⟨before ++ after, List.perm_middle.trans ?_⟩
  rw [← hkey]
  exact (List.perm_append_singleton ..).symm

/-- Options under two spellings come out differently in two orders. -/
theorem Crossed.disagree (h : Crossed os) : ∃ before after key, os.Perm before ∧ os.Perm after ∧
    Entries.get? (keepOptions before) key ≠ Entries.get? (keepOptions after) key := by
  obtain ⟨second, first, v, w, halias, hv, hw, hne⟩ := h
  obtain ⟨hsecond, hfirst⟩ := optionKey_second halias
  obtain ⟨rest, hbefore⟩ := exists_last hv
  obtain ⟨rest', hafter⟩ := exists_last hw
  refine ⟨_, _, first, hbefore, hafter, ?_⟩
  rw [get?_keepOptions_last hsecond, get?_keepOptions_last hfirst, ne_eq, Option.some.injEq]
  exact hne

end Options

/-! ### Reading -/

section Reading

variable {es es' os : Entries}

/-- Two mappings with the same bindings, in any order. -/
def SomeOrder (v w : Value) : Prop := ∃ os os', v = .map os ∧ w = .map os' ∧ os.Perm os'

/-- A mapping with its keys in another order, and the keys of its options. -/
def Reorders (es es' : Entries) : Prop :=
  ∃ fs, Entries.SameBut "options" SomeOrder es fs ∧ fs.Perm es'

/-- In a mapping and in its options no two bindings are of one key. -/
structure Keyed (es : Entries) : Prop where
  distinct : Entries.Distinct es
  options : ∀ os, Entries.get es "options" = .map os → Entries.Distinct os

/-- An item can be read, and one of its options is there under both spellings with different
values. -/
def IsCrossed (es : Entries) : Prop :=
  (ofEntries es).isOk = true ∧ ∃ os, Entries.get es "options" = .map os ∧ Crossed os

/-- The plain fields of a mapping. -/
def bodyOf (es : Entries) : Body where
  text := Entries.get es "text"
  photo := Entries.get es "photo"
  video := Entries.get es "video"
  document := Entries.get es "document"
  audio := Entries.get es "audio"
  type := Entries.get es "type"
  lang := Entries.get es "lang"

theorem ofEntries_eq (es : Entries) : ofEntries es = (do
    let os ← optionsOf (Entries.get es "options")
    let tags ← tagsOf (Entries.get es "tags")
    pure { bodyOf es with tags := tags, options := keepOptions os }) := rfl

theorem optionsOf_ok {v : Value} (h : optionsOf v = .ok os) : os = [] ∨ v = .map os := by
  unfold optionsOf at h
  split at h
  · cases v with
    | map es =>
      obtain rfl : es = os := Except.ok.inj h
      exact .inr rfl
    | _ => cases h
  · exact .inl (Except.ok.inj h).symm

namespace Reorders

variable (h : Reorders es es') (hk : Entries.Distinct es)
include h hk

/-- Only the options may be others, and they are the same in some order. -/
theorem get_eq : (∀ key ≠ "options", Entries.get es' key = Entries.get es key) ∧
    (Entries.get es' "options" = Entries.get es "options" ∨
      SomeOrder (Entries.get es "options") (Entries.get es' "options")) := by
  obtain ⟨fs, hsame, hperm⟩ := h
  have hkeys : es.map Prod.fst = fs.map Prod.fst := List.forall₂_eq_eq_eq ▸
    List.forall₂_map_left_iff.2 (List.forall₂_map_right_iff.2 (hsame.imp fun _ _ hpair => hpair.1))
  have hfs : Entries.Distinct fs := by rwa [Entries.Distinct, ← hkeys]
  have hget : ∀ key, Entries.get es' key = Entries.get fs key := fun key =>
    congrArg (·.getD .null) (Entries.get?_perm hfs.apart (hfs.perm hperm).apart hperm key)
  rw [hget]
  exact ⟨fun key hkey => (hget key).trans (hsame.get_of_ne hkey), hsame.get⟩

theorem bodyOf_eq : bodyOf es' = bodyOf es := by
  have hget := (h.get_eq hk).1
  simp [bodyOf, hget]

/-- Their options are found in both orders, or in none. -/
theorem optionsOf : Outcome.Rel (fun os os' => os.Perm os')
    (Content.optionsOf (Entries.get es "options"))
    (Content.optionsOf (Entries.get es' "options")) := by
  rcases (h.get_eq hk).2 with heq | ⟨os, os', hos, hos', hperm⟩
  · rw [heq]
    exact .refl (fun _ => .rfl) _
  · rw [hos, hos']
    rw [optionsOf_map, optionsOf_map]
    exact .ok hperm

end Reorders

/-- An item is read alike in any order, unless one of its options is there twice with different
values. -/
theorem ofEntries_shuffled (hk : Keyed es) (hc : ¬ IsCrossed es) (h : Reorders es es') :
    Outcome.Rel Shuffled (ofEntries es) (ofEntries es') := by
  have hoptions := h.optionsOf hk.distinct
  have htags := (h.get_eq hk.distinct).1 "tags" (by decide)
  have hread := ofEntries_eq es
  rw [ofEntries_eq es', htags, h.bodyOf_eq hk.distinct]
  cases hos : optionsOf (Entries.get es "options") with
  | error f =>
    rw [hos] at hoptions hread
    rw [hoptions.of_error, hread]
    exact .error f
  | ok os =>
    rw [hos] at hoptions hread
    obtain ⟨os', hos', hperm⟩ := hoptions.of_ok
    rw [hos', hread]
    cases hts : tagsOf (Entries.get es "tags") with
    | error f => exact .error f
    | ok tags =>
      rw [hts] at hread
      have hkept : (keepOptions os).Perm (keepOptions os') := by
        rcases optionsOf_ok hos with rfl | hmap
        · rw [hperm.nil_eq]
        · refine keepOptions_perm (hk.options os hmap) (fun hcrossed => ?_) hperm
          exact hc ⟨by rw [hread]; rfl, os, hmap, hcrossed⟩
      exact .ok ⟨rfl, rfl, hkept, Entries.get?_perm (kept_keepOptions os).apart
        (kept_keepOptions os').apart hkept⟩

/-- The mapping with other options. -/
def withOptions (os : Entries) (es : Entries) : Entries :=
  Entries.adjust "options" (fun _ => .map os) es

theorem reorders_withOptions (hk : Keyed es) (hos : Entries.get es "options" = .map os)
    {os' : Entries} (h : os.Perm os') : Reorders es (withOptions os' es) := by
  refine ⟨withOptions os' es, List.forall₂_map_right_iff.2 (List.forall₂_same.2 fun e he =>
    ⟨rfl, ?_⟩), .rfl⟩
  cases halike : e.1.alike (.text "options") with
  | false => exact .inl rfl
  | true =>
    have hkey := alike_text_right.1 halike
    have hvalue : Entries.get? es "options" = some e.2 :=
      (Entries.get?_eq_some_iff hk.distinct.apart).2 (hkey ▸ he)
    rw [Entries.get, hvalue, Option.getD_some] at hos
    exact .inr ⟨hkey, os, os', hos, rfl, h⟩

theorem get_withOptions (hos : Entries.get es "options" = .map os) (os' : Entries) :
    Entries.get (withOptions os' es) "options" = .map os' := by
  rw [withOptions, Entries.get, Entries.get?_adjust, if_pos rfl]
  rw [Entries.get] at hos
  cases h : Entries.get? es "options" with
  | none => rw [h] at hos; cases hos
  | some v => rfl

theorem options_of_ok {c : Content} (h : ofEntries es = .ok c)
    (hos : Entries.get es "options" = .map os) : c.options = keepOptions os := by
  rw [ofEntries_eq, hos] at h
  obtain ⟨os', hos', h⟩ := ok_of_bind h
  obtain ⟨tags, -, h⟩ := ok_of_bind h
  obtain rfl : os = os' := Except.ok.inj ((optionsOf_map os).symm.trans hos')
  rw [← Except.ok.inj h]

/-- A mapping is read alike in any order of its keys if and only if no option is there twice with
different values. -/
theorem read_shuffled_iff (hk : Keyed es) :
    (∀ es', Reorders es es' → Outcome.Rel Shuffled (ofEntries es) (ofEntries es')) ↔
      ¬ IsCrossed es := by
  refine ⟨fun hall hcrossed => ?_, fun hc es' => ofEntries_shuffled hk hc⟩
  obtain ⟨hread, os, hos, hcrossed⟩ := hcrossed
  obtain ⟨before, after, key, hbefore, hafter, hne⟩ := hcrossed.disagree
  obtain ⟨c, hc⟩ : ∃ c, ofEntries es = .ok c := by
    cases h : ofEntries es with
    | ok c => exact ⟨c, rfl⟩
    | error f => rw [h] at hread; cases hread
  have hkept : ∀ {os'}, os.Perm os' → Entries.get? (keepOptions os') key = c.option? key := by
    intro os' hperm
    have hrel := hall _ (reorders_withOptions hk hos hperm)
    rw [hc] at hrel
    obtain ⟨d, hd, hshuffled⟩ := hrel.of_ok
    rw [← options_of_ok hd (get_withOptions hos os')]
    exact hshuffled.looked key
  exact hne ((hkept hbefore).trans (hkept hafter).symm)

end Reading

end Content

end Syndicate
