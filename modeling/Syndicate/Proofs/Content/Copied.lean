import Syndicate.Proofs.Content.Shared

/-! Copies of items. The options of an item that was read from a mapping are under their first
spellings, where they stay when they are read again. So the item is read back from its written
form, and on a desk whatever is made of it, by cloning or rereading one item after another, is the
same item. -/

namespace Syndicate

namespace Content

/-! ### Options under their first spellings -/

section Spellings

variable {α : Type} {es : List (Value × α)}

/-- No first spelling is a second one of something else. -/
theorem lookup_aliases {s t : String} (h : aliases.lookup s = some t) :
    aliases.lookup t = none := by
  obtain ⟨before, after, haliases, -⟩ := List.lookup_eq_some_iff.1 h
  have hmem : (s, t) ∈ aliases := haliases ▸ List.mem_append_right _ List.mem_cons_self
  simp only [aliases, List.mem_cons, Prod.mk.injEq, List.not_mem_nil, or_false] at hmem
  obtain ⟨-, rfl⟩ | ⟨-, rfl⟩ | ⟨-, rfl⟩ | ⟨-, rfl⟩ := hmem <;> rfl

theorem optionKey_optionKey (k : Value) : optionKey (optionKey k) = optionKey k := by
  cases k with
  | text s =>
    cases h : aliases.lookup s with
    | none => simp [optionKey, h]
    | some t => simp [optionKey, h, lookup_aliases h]
  | _ => rfl

/-- Keys are first spellings, and no two of them are one key. -/
structure Kept (es : List (Value × α)) : Prop where
  spelled : ∀ e ∈ es, optionKey e.1 = e.1
  apart : es.Pairwise fun e f => f.1.alike e.1 = false

theorem Kept.nil : Kept ([] : List (Value × α)) := ⟨nofun, .nil⟩

theorem apart_put (h : es.Pairwise fun e f => f.1.alike e.1 = false) (k : Value) (a : α) :
    (Entries.put es k a).Pairwise fun e f => f.1.alike e.1 = false := by
  induction es with
  | nil => exact List.pairwise_singleton _ _
  | cons head es ih =>
    obtain ⟨l, b⟩ := head
    obtain ⟨hhead, hrest⟩ := List.pairwise_cons.1 h
    rw [Entries.put]
    split
    · exact .cons hhead hrest
    · rename_i hnew
      refine .cons (fun f hf => ?_) (ih hrest)
      rcases key_of_mem_put hf with hkey | ⟨f', hf', hkey⟩
      · rw [hkey]
        exact Bool.eq_false_iff.2 hnew
      · rw [← hkey]
        exact hhead f' hf'

theorem Kept.put (h : Kept es) (k : Value) (a : α) : Kept (Entries.put es (optionKey k) a) := by
  refine ⟨fun e he => ?_, apart_put h.apart _ a⟩
  rcases key_of_mem_put he with hkey | ⟨e', he', hkey⟩
  · rw [hkey, optionKey_optionKey]
  · rw [← hkey, h.spelled e' he']

/-- Options are put under first spellings one after the other. -/
theorem kept_keepOptions (es : List (Value × α)) : Kept (keepOptions es) := by
  have hfold : ∀ done : List (Value × α), Kept done →
      Kept (es.foldl (fun kept e => Entries.put kept (optionKey e.1) e.2) done) := by
    induction es with
    | nil => exact fun _ h => h
    | cons e es ih => exact fun done h => ih _ (h.put e.1 e.2)
  exact hfold [] .nil

theorem Kept.keepOptions_eq (h : Kept es) : keepOptions es = es := by
  have hfold : ∀ done rest : List (Value × α), Kept (done ++ rest) →
      rest.foldl (fun kept e => Entries.put kept (optionKey e.1) e.2) done = done ++ rest := by
    intro done rest
    induction rest generalizing done with
    | nil => exact fun _ => (List.append_nil done).symm
    | cons e rest ih =>
      intro h
      have hkey : optionKey e.1 = e.1 := h.spelled e (by simp)
      have hnew : ∀ d ∈ done, e.1.alike d.1 = false := fun d hd =>
        (List.pairwise_append.1 h.apart).2.2 d hd e List.mem_cons_self
      rw [List.foldl_cons, hkey, Entries.put_of_new hnew, ih _ (by simpa using h)]
      simp
  exact hfold [] es h

/-- Options that are under their first spellings stay there. -/
theorem keepOptions_keepOptions (es : List (Value × α)) :
    keepOptions (keepOptions es) = keepOptions es :=
  (kept_keepOptions es).keepOptions_eq

end Spellings

/-! ### Written forms -/

/-- Fields as they are written, without those that are null. -/
def written (fs : List (String × Value)) : Entries :=
  (fs.filter fun f => !f.2.isNull).map fun f => (.text f.1, f.2)

theorem written_cons (f : String × Value) (fs : List (String × Value)) :
    written (f :: fs) = if f.2.isNull then written fs else (.text f.1, f.2) :: written fs := by
  rw [written, List.filter_cons]
  cases f.2.isNull <;> rfl

theorem get?_written_of_notMem {fs : List (String × Value)} {name : String}
    (h : name ∉ fs.map Prod.fst) : Entries.get? (written fs) name = none := by
  induction fs with
  | nil => rfl
  | cons f fs ih =>
    obtain ⟨hne, hrest⟩ : f.1 ≠ name ∧ name ∉ fs.map Prod.fst := by
      rw [List.map_cons, List.mem_cons, not_or] at h
      exact ⟨Ne.symm h.1, h.2⟩
    rw [written_cons]
    split
    · exact ih hrest
    · rw [Entries.get?_cons_text, if_neg hne, ih hrest]

/-- A field is read from its written form; a null that was left out is null again. -/
theorem get_written {fs : List (String × Value)} (hnames : (fs.map Prod.fst).Nodup) {name : String}
    {v : Value} (h : (name, v) ∈ fs) : Entries.get (written fs) name = v := by
  induction fs with
  | nil => cases h
  | cons f fs ih =>
    obtain ⟨hnew, hrest⟩ := List.nodup_cons.1 hnames
    rw [written_cons]
    rcases List.mem_cons.1 h with rfl | h
    · split
      · rename_i hnull
        rw [Entries.get, get?_written_of_notMem hnew]
        cases v <;> simp_all [Value.isNull]
      · rw [Entries.get, Entries.get?_cons_text, if_pos rfl]
        rfl
    · have hne : f.1 ≠ name := fun he => hnew (he ▸ List.mem_map_of_mem h)
      split
      · exact ih hrest h
      · rw [Entries.get, Entries.get?_cons_text, if_neg hne]
        exact ih hrest h

theorem tagsOf_list (tags : List Value) : tagsOf (.list tags) = .ok tags := by
  cases tags <;> rfl

theorem optionsOf_map (options : Entries) : optionsOf (.map options) = .ok options := by
  cases options <;> rfl

theorem get_toEntries (c : Content) : ∀ f ∈ c.fields, Entries.get c.toEntries f.1 = f.2 := by
  intro f hf
  have hnames : (c.fields.map Prod.fst).Nodup := by simp [Body.fields, Body.media]
  have hname : f.1 ∈ ["text", "photo", "video", "document", "audio", "type", "lang"] :=
    List.mem_map_of_mem hf
  have hother : "tags" ≠ f.1 ∧ "options" ≠ f.1 :=
    ⟨fun h => absurd (h ▸ hname) (by decide), fun h => absurd (h ▸ hname) (by decide)⟩
  rw [toEntries, Entries.get, Entries.get?_cons_text, if_neg hother.1, Entries.get?_cons_text,
    if_neg hother.2]
  exact get_written hnames hf

/-- An item is read from its written form, but for the spellings of its options. -/
theorem ofValue_toEntries (c : Content) : ofValue (.map c.toEntries) = .ok c.reread := by
  have hfields := get_toEntries c
  simp only [Body.fields, Body.media, List.cons_append, List.nil_append,
    List.forall_mem_cons] at hfields
  obtain ⟨htext, hphoto, hvideo, hdocument, haudio, htype, hlang, -⟩ := hfields
  have htags : tagsOf (Entries.get c.toEntries "tags") = .ok c.tags := tagsOf_list c.tags
  have hoptions : optionsOf (Entries.get c.toEntries "options") = .ok c.options :=
    optionsOf_map c.options
  show ofEntries c.toEntries = _
  rw [ofEntries, hoptions]
  show (tagsOf (Entries.get c.toEntries "tags") >>= _) = _
  rw [htags, htext, hphoto, hvideo, hdocument, haudio, htype, hlang]
  rfl

/-- What is read from any value has its options under their first spellings. -/
theorem reread_of_ofValue {v : Value} {c : Content} (h : ofValue v = .ok c) : c.reread = c := by
  obtain ⟨es, h⟩ := ok_of_either h
  obtain ⟨options, -, h⟩ := ok_of_bind h
  obtain ⟨tags, -, h⟩ := ok_of_bind h
  cases h
  rw [reread, keepOptions_keepOptions]

end Content

open Store

/-! ### Single copies -/

namespace DeskItem

variable {s : Store} {item : DeskItem} {c : Content}

/-- The cells that an item was made in hold it as well as what there was before. -/
structure Makes (s : Store) (c : Content) (made : DeskItem × Store) : Prop where
  spares : Spares (Set.Iio s.length) s made.2
  closed : made.2.Closed (Set.Iio made.2.length)
  lies : made.1.Lies made.2 (Set.Iio made.2.length) c

theorem Lies.unload (h : item.Lies s (Set.Iio s.length) c) (hs : s.Closed (Set.Iio s.length)) :
    item.unload s = .ok c := by
  obtain ⟨entries, hentries, hrest⟩ := h.options.entriesOf hs
  have hread : entries.map (fun e => (e.1, s.read e.2)) = c.options :=
    map_readTo (hrest.imp fun _ _ hpair => ⟨hpair.1, hpair.2.read⟩)
  rw [DeskItem.unload, h.tags, Value.items, hentries]
  show Except.ok (⟨item.toBody, c.tags, entries.map fun e => (e.1, s.read e.2)⟩ : Content) = .ok c
  rw [h.body, hread]

theorem makes_load (hs : s.Closed (Set.Iio s.length)) (c : Content) : Makes s c (load s c) where
  spares := ⟨length_le_add s (.map c.options), sameBelow_add s (.map c.options)⟩
  closed := hs.add (.map c.options)
  lies := ⟨rfl, rfl, hs.add_rests (.map c.options)⟩

theorem Lies.clone_makes (h : item.Lies s (Set.Iio s.length) c)
    (hs : s.Closed (Set.Iio s.length)) : ∃ made, item.clone s = .ok made ∧ Makes s c made :=
  ⟨_, h.clone, makes_load hs c⟩

/-- An item that is reread has the option values of the other one, in a row of its own. -/
theorem Lies.reread_makes (h : item.Lies s (Set.Iio s.length) c) (hc : c.reread = c)
    (hs : s.Closed (Set.Iio s.length)) : ∃ made, item.reread s = .ok made ∧ Makes s c made := by
  obtain ⟨entries, hentries, hrest⟩ := h.options.entriesOf hs
  obtain ⟨hclosed, hplace⟩ := RestIn.addCell (keepOptions_beside hrest) hs
  rw [show Content.keepOptions c.options = c.options from congrArg Content.options hc] at hplace
  refine ⟨(⟨item.toBody, .list c.tags, .place s.length⟩,
    s ++ [Cell.map (Content.keepOptions entries)]), ?_, spares_append s _, hclosed,
    h.body, rfl, hplace⟩
  rw [DeskItem.reread, h.tags, Value.items, hentries]
  rfl

end DeskItem

namespace Desk

/-! ### Desks of copies -/

variable {d d' : Desk} {c : Content} {e : Edit}

/-- The item that an edit copies, if it does nothing else. -/
def Edit.copied? : Edit → Option Value
  | .clone i | .reread i => some i
  | _ => none

/-- A desk with an item and what was made of it by cloning and rereading, also one copy from
another. -/
inductive Copied (c : Content) : Desk → Prop
  | start : Copied c (ofItem c)
  | copy {d d' : Desk} {e : Edit} {i : Value} (hd : Copied c d) (he : e.copied? = some i)
    (h : d.apply e = .ok d') : Copied c d'

/-- Every item on a desk stands for the same one. -/
structure Holds (c : Content) (d : Desk) : Prop where
  closed : d.store.Closed (Set.Iio d.store.length)
  items : ∀ item ∈ d.items, item.Lies d.store (Set.Iio d.store.length) c

theorem Holds.view (h : Holds c d) : d.view = .ok (List.replicate d.items.length c) := by
  refine viewEach_of_unload (List.forall₂_iff_get.2 ⟨by simp, fun i hi hj => ?_⟩)
  simpa using (h.items d.items[i] (List.getElem_mem hi)).unload h.closed

theorem Holds.push {made : DeskItem × Store} (h : Holds c d)
    (hmade : DeskItem.Makes d.store c made) : Holds c (d.push made) where
  closed := hmade.closed
  items item hitem := by
    rcases List.mem_append.1 hitem with hold | hnew
    · exact ((h.items item hold).kept h.closed hmade.spares).mono
        (Set.Iio_subset_Iio hmade.spares.grows)
    · exact List.mem_singleton.1 hnew ▸ hmade.lies

theorem holds_ofItem (c : Content) : Holds c (ofItem c) := by
  have hempty : Store.Closed [] (Set.Iio 0) := fun a ha => absurd ha (Nat.not_lt_zero a)
  have hmade := DeskItem.makes_load hempty c
  exact ⟨hmade.closed, fun item hitem => List.mem_singleton.1 hitem ▸ hmade.lies⟩

theorem item_of_indexIn {i : Value} {n : Nat} (h : indexIn d.items.length i = .ok n) :
    ∃ item ∈ d.items, d.item i = .ok (n, item) := by
  have hn : n < d.items.length := indexIn_lt h
  refine ⟨d.items[n], List.getElem_mem hn, ?_⟩
  simp only [Desk.item, h, Bind.bind, Except.bind, List.getElem?_eq_getElem hn]

/-- An edit that copies an item at a place of the desk adds another one like it. -/
theorem Holds.apply (h : Holds c d) (hc : c.reread = c) {i : Value} (he : e.copied? = some i)
    {n : Nat} (hi : indexIn d.items.length i = .ok n) :
    ∃ made, d.apply e = .ok (d.push made) ∧ Holds c (d.push made) := by
  obtain ⟨item, hmem, hitem⟩ := item_of_indexIn hi
  cases e with
  | clone j =>
    obtain rfl : j = i := Option.some.inj he
    obtain ⟨made, hmade, hmakes⟩ := (h.items item hmem).clone_makes h.closed
    refine ⟨made, ?_, h.push hmakes⟩
    rw [Desk.apply, hitem]
    show (item.clone d.store >>= _) = _
    rw [hmade]
    rfl
  | reread j =>
    obtain rfl : j = i := Option.some.inj he
    obtain ⟨made, hmade, hmakes⟩ := (h.items item hmem).reread_makes hc h.closed
    refine ⟨made, ?_, h.push hmakes⟩
    rw [Desk.apply, hitem]
    show (item.reread d.store >>= _) = _
    rw [hmade]
    rfl
  | _ => cases he

/-- Only items at places of the desk are copied. -/
theorem indexIn_of_apply {i : Value} (he : e.copied? = some i) (h : d.apply e = .ok d') :
    ∃ n, indexIn d.items.length i = .ok n := by
  cases e with
  | clone j | reread j =>
    obtain rfl : j = i := Option.some.inj he
    obtain ⟨_, hitem, -⟩ := ok_of_bind h
    exact (ok_of_bind hitem).imp fun _ h => h.1
  | _ => cases he

theorem Copied.holds (h : Copied c d) (hc : c.reread = c) : Holds c d := by
  induction h with
  | start => exact holds_ofItem c
  | copy _ he h ih =>
    obtain ⟨n, hi⟩ := indexIn_of_apply he h
    obtain ⟨made, hmade, hholds⟩ := ih.apply hc he hi
    cases hmade.symm.trans h
    exact hholds

end Desk

/-- An item that could be read from a value is read from its written form as the same item. On a
desk it can be cloned and reread any number of times, and so can its copies, and everything that
comes of it is the same item again. -/
theorem Content.copies_eq {v : Value} {c : Content} (h : Content.ofValue v = .ok c) :
    (∀ es : Entries, keepOptions (keepOptions es) = keepOptions es) ∧
    Content.ofValue (.map c.toEntries) = .ok c ∧
    ∀ d, Desk.Copied c d → d.view = .ok (List.replicate d.items.length c) ∧
      ∀ (e : Desk.Edit) (i : Value) (n : Nat), e.copied? = some i →
        indexIn d.items.length i = .ok n → ∃ d', d.apply e = .ok d' ∧
          d'.view = .ok (List.replicate (d.items.length + 1) c) := by
  have hc := Content.reread_of_ofValue h
  refine ⟨keepOptions_keepOptions, ?_, fun d hd => ⟨(hd.holds hc).view, fun e i n he hi => ?_⟩⟩
  · rw [Content.ofValue_toEntries, hc]
  · obtain ⟨made, hmade, hholds⟩ := (hd.holds hc).apply hc he hi
    have hlength : (d.push made).items.length = d.items.length + 1 := List.length_append
    exact ⟨_, hmade, hlength ▸ hholds.view⟩

/-- A mapping with an empty text, tags that are no texts, and an option in both spellings. -/
def crossed : Entries :=
  [(.text "text", .text ""), (.text "tags", .list [.int 1, .null]),
   (.text "options", .map [(.text "parseMode", .text "HTML"),
     (.text "parse_mode", .text "Markdown"), (.text "keys", .list [.map [(.text "a", .list [])]])])]

def crossedItem : Content where
  text := .text ""
  tags := [.int 1, .null]
  options := [(.text "parse_mode", .text "Markdown"),
    (.text "keys", .list [.map [(.text "a", .list [])]])]

theorem copies_eq_crossed : Content.ofValue (.map crossed) = .ok crossedItem ∧
    Content.ofValue (.map crossedItem.toEntries) = .ok crossedItem ∧
    ∃ d, (Desk.ofItem crossedItem).apply (.clone (.int 0)) = .ok d ∧
      d.view = .ok [crossedItem, crossedItem] := by
  have hread : Content.ofValue (.map crossed) = .ok crossedItem := by rfl
  obtain ⟨-, hwritten, hcopies⟩ := Content.copies_eq hread
  exact ⟨hread, hwritten, (hcopies _ .start).2 (.clone (.int 0)) (.int 0) 0 rfl rfl⟩

end Syndicate
