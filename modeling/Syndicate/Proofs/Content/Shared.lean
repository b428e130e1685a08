import Syndicate.Proofs.Content.Apart

/-! Items made of what lies in a store already. An item read from a mapping has the mapping's own
option values, and a clone has none of them. What can be changed through an item lies in the cells
that its options lead to. -/

namespace Syndicate

open Store

/-! ### Values at rest -/

/-- A slot holds a value in cells that are given away, down to any depth that reaches its end. -/
structure Slot.Rests (s : Store) (given : Set Nat) (slot : Slot) (v : Value) : Prop where
  leads : slot.LeadsInto given
  reads : ∀ n, s.length ≤ n → readTo s n slot = v

/-- The slots of some entries hold the values under the same keys. -/
abbrev Store.RestIn (s : Store) (given : Set Nat) :
    List (Value × Slot) → List (Value × Value) → Prop :=
  List.Forall₂ (Beside fun slot v => slot.Rests s given v)

section

variable {s s' t : Store} {given given' : Set Nat} {slot : Slot} {v : Value} {es : Entries}
  {entries : List (Value × Slot)}

namespace Slot

theorem Rests.mono (h : slot.Rests s given v) (hg : given ⊆ given') : slot.Rests s given' v :=
  ⟨h.leads.mono hg, h.reads⟩

theorem Rests.read (h : slot.Rests s given v) : s.read slot = v := h.reads _ (Nat.le_refl _)

theorem rests_scalar (s : Store) (given : Set Nat) (v : Value) : (scalar v).Rests s given v :=
  ⟨trivial, reads_scalar s s.length v s (.refl _ _)⟩

/-- Nothing that happens to other cells shows in a value. -/
theorem Rests.kept (h : slot.Rests s given v) (hs : s.Closed given) (hk : Spares given s s') :
    slot.Rests s' given v where
  leads := h.leads
  reads n hn := (hs.readTo_eq hk.leaves n h.leads).trans (h.reads n (Nat.le_trans hk.grows hn))

/-- A text takes no cell, so nothing can be changed in it. -/
theorem Rests.eq_scalar {x : String} (h : slot.Rests s given (.text x)) :
    slot = .scalar (.text x) := by
  have hread := h.reads (s.length + 1) (Nat.le_succ _)
  cases slot with
  | scalar v => rw [← hread]; rfl
  | place a =>
    rw [readTo] at hread
    split at hread <;> cases hread

end Slot

theorem Store.map_readTo {n : Nat}
    (h : List.Forall₂ (Beside fun slot v => readTo s n slot = v) entries es) :
    entries.map (fun e => (e.1, readTo s n e.2)) = es := by
  induction h with
  | nil => rfl
  | cons hpair _ ih => rw [List.map_cons, ih, hpair.1, hpair.2]

theorem Store.restIn_of_map (hlead : ∀ e ∈ entries, e.2.LeadsInto given)
    (hread : ∀ n, s.length ≤ n → entries.map (fun e => (e.1, readTo s n e.2)) = es) :
    s.RestIn given entries es := by
  obtain rfl := hread s.length (Nat.le_refl _)
  refine List.forall₂_map_right_iff.2 (List.forall₂_same.2 fun e he => ⟨rfl, hlead e he, ?_⟩)
  exact fun n hn => congrArg Prod.snd (List.map_inj_left.1 (hread n hn) e he)

/-- The entries of a mapping hold its values. -/
theorem Slot.Rests.entriesOf (h : slot.Rests s given (.map es)) (hs : s.Closed given) :
    ∃ entries, s.entriesOf slot = .ok entries ∧ s.RestIn given entries es := by
  cases slot with
  | scalar v =>
    obtain rfl : v = .map es := (rests_scalar s given v).read.symm.trans h.read
    exact ⟨es.map fun e => (e.1, .scalar e.2), rfl, List.forall₂_map_left_iff.2
      (List.forall₂_same.2 fun e _ => ⟨rfl, rests_scalar s given e.2⟩)⟩
  | place a =>
    have hread : ∀ n, s.length ≤ n → readTo s (n + 1) (.place a) = .map es := fun n hn =>
      h.reads (n + 1) (Nat.le_succ_of_le hn)
    simp only [readTo] at hread
    cases hc : s[a]? with
    | none => cases (hc ▸ hread) _ (Nat.le_refl _)
    | some cell =>
      rw [hc] at hread
      cases cell with
      | list slots => cases hread _ (Nat.le_refl _)
      | map entries =>
        refine ⟨entries, by rw [Store.entriesOf, hc], restIn_of_map (fun e he => ?_) fun n hn => ?_⟩
        · exact hs a h.leads _ hc e.2 (List.mem_map_of_mem he)
        · exact Value.map.inj (hread n hn)

/-! ### Stores in which nothing dangles -/

theorem Store.apart_empty : Apart ∅ s ↔ s.Closed (Set.Iio s.length) := by
  have hown : own ∅ s = Set.Iio s.length := Set.sdiff_empty
  refine ⟨fun h => hown ▸ h.rest, fun h => ⟨Set.empty_subset _, ?_, hown ▸ h⟩⟩
  exact fun a ha => absurd ha (Set.notMem_empty a)

/-- All cells of such a store may be given away. -/
theorem Store.Closed.apart (h : s.Closed (Set.Iio s.length)) : Apart (Set.Iio s.length) s :=
  ⟨subset_rfl, h, fun _ ha => absurd ha.1 ha.2⟩

theorem Store.Closed.addCell {cell : Cell} (h : s.Closed (Set.Iio s.length))
    (hcell : cell.LeadsInto (Set.Iio s.length)) :
    (s ++ [cell]).Closed (Set.Iio (s ++ [cell]).length) := by
  have hown : own ∅ s = Set.Iio s.length := Set.sdiff_empty
  exact apart_empty.1 ((apart_empty.2 h).addCell (hown ▸ hcell)).1.apart

theorem Store.Closed.add (h : s.Closed (Set.Iio s.length)) (v : Value) :
    (s.add v).2.Closed (Set.Iio (s.add v).2.length) :=
  apart_empty.1 ((apart_empty.2 h).add v).1.apart

/-- A value that is put into such a store rests there. -/
theorem Store.Closed.add_rests (h : s.Closed (Set.Iio s.length)) (v : Value) :
    (s.add v).1.Rests (s.add v).2 (Set.Iio (s.add v).2.length) v where
  leads := ((apart_empty.2 h).add v).2.mono Set.sdiff_subset
  reads := add_reads s v _ (.refl _ _)

theorem Store.RestIn.leadsInto (h : s.RestIn given entries es) :
    ∀ e ∈ entries, e.2.LeadsInto given := by
  induction h with
  | nil => exact fun e he => absurd he List.not_mem_nil
  | cons hpair _ ih => exact List.forall_mem_cons.2 ⟨hpair.2.leads, ih⟩

/-- Entries that rest in such a store may be put into a cell behind all others. -/
theorem Store.RestIn.addCell (h : s.RestIn (Set.Iio s.length) entries es)
    (hs : s.Closed (Set.Iio s.length)) :
    (s ++ [Cell.map entries]).Closed (Set.Iio (s ++ [Cell.map entries]).length) ∧
    (Slot.place s.length).Rests (s ++ [Cell.map entries])
      (Set.Iio (s ++ [Cell.map entries]).length) (.map es) := by
  have hsame := (spares_append s [Cell.map entries]).leaves
  refine ⟨hs.addCell fun slot hslot => ?_, by simp [Slot.LeadsInto], fun n hn => ?_⟩
  · obtain ⟨e, he, rfl⟩ := List.mem_map.1 hslot
    exact h.leadsInto e he
  · obtain ⟨k, rfl⟩ : ∃ k, n = k + 1 := ⟨n - 1, by simp at hn; omega⟩
    have hk : s.length ≤ k := by simpa using hn
    have hreads : List.Forall₂ (Beside fun slot v => readTo (s ++ [Cell.map entries]) k slot = v)
        entries es := h.imp fun _ _ hpair =>
      ⟨hpair.1, (hs.readTo_eq hsame k hpair.2.leads).trans (hpair.2.reads k hk)⟩
    simp only [readTo, List.getElem?_concat_length]
    exact congrArg Value.map (map_readTo hreads)

/-! ### Items read from mappings -/

/-- The options under the key for them among the entries of a mapping. -/
def Store.optionsIn (s : Store) (entries : List (Value × Slot)) : Outcome (List (Value × Slot)) :=
  match under entries "options" with
  | some slot => if (s.read slot).truthy then s.entriesOf slot else .ok []
  | none => .ok []

/-- The item read from a mapping that is in a slot. Its row of options is new, the values in it are
the mapping's own. -/
def DeskItem.ofMapping (s : Store) (slot : Slot) : Outcome (DeskItem × Store) := do
  let c ← Content.ofValue (s.read slot)
  let entries ← s.entriesOf slot
  let options ← s.optionsIn entries
  let (options, s) := s.addCell (.map (Content.keepOptions options))
  pure ({ toBody := c.toBody, tags := .list c.tags, options := options }, s)

/-- An item in a store stands for a finished one, its options being at rest. -/
structure DeskItem.Lies (s : Store) (given : Set Nat) (item : DeskItem) (c : Content) : Prop where
  body : item.toBody = c.toBody
  tags : item.tags = .list c.tags
  options : item.options.Rests s given (.map c.options)

theorem Store.RestIn.optionsIn {options : Entries} (h : s.RestIn given entries es)
    (hs : s.Closed given) (ho : Content.optionsOf (Entries.get es "options") = .ok options) :
    ∃ os, s.optionsIn entries = .ok os ∧ s.RestIn given os options := by
  have hrel := under_beside h "options"
  rw [Entries.get, get?_eq_under] at ho
  unfold Store.optionsIn
  generalize under entries "options" = found at hrel
  generalize under es "options" = value at hrel ho
  cases hrel with
  | none =>
    obtain rfl : [] = options := Except.ok.inj ho
    exact ⟨[], rfl, .nil⟩
  | some hslot =>
    rename_i slot v
    dsimp only
    rw [hslot.read]
    unfold Content.optionsOf at ho
    dsimp only [Option.getD_some] at ho
    split at ho
    · rename_i htrue
      obtain rfl : v = .map options := by
        unfold Value.entries at ho
        split at ho <;> cases ho
        rfl
      rw [if_pos htrue]
      exact hslot.entriesOf hs
    · rename_i hfalse
      cases ho
      rw [if_neg hfalse]
      exact ⟨[], rfl, .nil⟩

theorem keepOptions_beside {α β : Type} {R : α → β → Prop} {xs : List (Value × α)}
    {ys : List (Value × β)} (h : List.Forall₂ (Beside R) xs ys) :
    List.Forall₂ (Beside R) (Content.keepOptions xs) (Content.keepOptions ys) := by
  have hfold : ∀ kept kept', List.Forall₂ (Beside R) kept kept' → List.Forall₂ (Beside R)
      (xs.foldl (fun kept e => Entries.put kept (Content.optionKey e.1) e.2) kept)
      (ys.foldl (fun kept e => Entries.put kept (Content.optionKey e.1) e.2) kept') := by
    induction h with
    | nil => exact fun _ _ hkept => hkept
    | cons hpair _ ih =>
      intro kept kept' hkept
      rw [List.foldl_cons, List.foldl_cons, hpair.1]
      exact ih _ _ (forall₂_put hkept _ hpair.2)
  exact hfold [] [] .nil

/-- An item that is read from a mapping stands for what the mapping reads as. -/
theorem DeskItem.ofMapping_lies {c : Content} (h : slot.Rests s (Set.Iio s.length) (.map es))
    (hs : s.Closed (Set.Iio s.length)) (hc : Content.ofValue (.map es) = .ok c) :
    ∃ item cell, ofMapping s slot = .ok (item, s ++ [cell]) ∧
      (s ++ [cell]).Closed (Set.Iio (s ++ [cell]).length) ∧
      item.Lies (s ++ [cell]) (Set.Iio (s ++ [cell]).length) c := by
  obtain ⟨entries, hentries, hrest⟩ := h.entriesOf hs
  obtain ⟨options, hoptions, hkept⟩ : ∃ options,
      Content.optionsOf (Entries.get es "options") = .ok options ∧
        c.options = Content.keepOptions options := by
    have hvalue : Content.ofValue (.map es) = Content.ofEntries es := by cases es <;> rfl
    rw [hvalue] at hc
    obtain ⟨options, hoptions, hc⟩ := ok_of_bind hc
    obtain ⟨tags, -, hc⟩ := ok_of_bind hc
    cases hc
    exact ⟨options, hoptions, rfl⟩
  obtain ⟨os, hos, hosrest⟩ := hrest.optionsIn hs hoptions
  obtain ⟨hclosed, hplace⟩ := RestIn.addCell (keepOptions_beside hosrest) hs
  have hitem : ofMapping s slot = .ok (⟨c.toBody, .list c.tags, .place s.length⟩,
      s ++ [Cell.map (Content.keepOptions os)]) := by
    unfold ofMapping
    rw [h.read, hc, hentries]
    show (s.optionsIn entries >>= _) = _
    rw [hos]
    rfl
  exact ⟨_, _, hitem, hclosed, rfl, rfl, hkept ▸ hplace⟩

theorem DeskItem.Lies.kept {item : DeskItem} {c : Content} (h : item.Lies s given c)
    (hs : s.Closed given) (hk : Spares given s s') : item.Lies s' given c :=
  ⟨h.body, h.tags, h.options.kept hs hk⟩

theorem DeskItem.Lies.mono {item : DeskItem} {c : Content} (h : item.Lies s given c)
    (hg : given ⊆ given') : item.Lies s given' c :=
  ⟨h.body, h.tags, h.options.mono hg⟩

/-- A clone has new cells only. -/
theorem DeskItem.Lies.clone {item : DeskItem} {c : Content} (h : item.Lies s given c) :
    item.clone s = .ok (DeskItem.load s c) := by
  obtain ⟨body, tags, options⟩ := item
  obtain rfl : body = c.toBody := h.body
  unfold DeskItem.clone
  rw [h.tags, h.options.read]
  rfl

end

/-! ### Changes through an item -/

/-- What can be put somewhere through an item: a scalar, a new value, or what its options lead to. -/
def DeskItem.Offers (s : Store) (item : DeskItem) (v : Value) (slot : Slot) : Prop :=
  (∃ w, slot = .scalar w) ∨ slot = (s.add v).1 ∨
    ∃ a, slot = .place a ∧ (s.add v).2.Reaches item.options a

/-- What can be done through an item. Its fields other than the options become anything; what it
offers takes the place of its options, or makes up a cell that they lead to. -/
inductive DeskItem.Changes (s : Store) (item : DeskItem) : DeskItem → Store → Prop
  | fields (changed : DeskItem) (h : changed.options = item.options) : Changes s item changed s
  | options (v : Value) (slot : Slot) (h : item.Offers s v slot) :
    Changes s item { item with options := slot } (s.add v).2
  | cell (v : Value) (a : Nat) (cell : Cell) (ha : (s.add v).2.Reaches item.options a)
    (hcell : ∀ slot ∈ cell.slots, item.Offers s v slot) :
    Changes s item item ((s.add v).2.set a cell)

section

variable {s s' : Store} {given : Set Nat} {slot : Slot} {item changed : DeskItem}

theorem DeskItem.Offers.leadsInto {v : Value} (h : item.Offers s v slot) (hs : Apart given s)
    (hitem : item.options.LeadsInto (own given s)) : slot.LeadsInto (own given (s.add v).2) := by
  obtain ⟨hadd, hv⟩ := hs.add v
  obtain ⟨w, rfl⟩ | rfl | ⟨a, rfl, ha⟩ := h
  · trivial
  · exact hv
  · exact ha.mem hadd.apart.rest (hitem.mono hadd.own)

/-- Whatever is done through an item in cells of one's own, the cells that are given away stay as
they are. -/
theorem DeskItem.Changes.tends (h : item.Changes s changed s') (hs : Apart given s)
    (hitem : item.options.LeadsInto (own given s)) :
    Tends given s s' ∧ changed.options.LeadsInto (own given s') := by
  cases h with
  | fields changed h => exact ⟨.refl hs, h ▸ hitem⟩
  | options v slot h => exact ⟨(hs.add v).1, h.leadsInto hs hitem⟩
  | cell v a cell ha hcell =>
    have hadd := (hs.add v).1
    have hitem' := hitem.mono hadd.own
    have hset := hadd.apart.tends_set (ha.mem hadd.apart.rest hitem') fun slot hslot =>
      (hcell slot hslot).leadsInto hs hitem
    exact ⟨hadd.trans hset, hitem'.mono hset.own⟩

/-- A place in a row is counted from its start or from its end. -/
theorem Store.indexIn_cases {length n : Nat} {key : Value} (h : indexIn length key = .ok n) :
    ∃ i, key.asInt? = some i ∧
      (0 ≤ i ∧ i < length ∧ n = i.toNat ∨ i < 0 ∧ -length ≤ i ∧ n = (i + length).toNat) := by
  unfold indexIn position? at h
  split at h
  · cases h
  · rename_i i hi
    refine ⟨i, hi, ?_⟩
    split at h
    · rename_i k hk
      obtain rfl := Except.ok.inj h
      split at hk
      · rename_i hin
        simp only [Bool.and_eq_true, decide_eq_true_eq] at hin
        exact .inl ⟨hin.1, hin.2, (Option.some.inj hk).symm⟩
      · split at hk
        · rename_i hin
          simp only [Bool.and_eq_true, decide_eq_true_eq] at hin
          exact .inr ⟨hin.1, hin.2, (Option.some.inj hk).symm⟩
        · cases hk
    · cases h

theorem Store.indexIn_lt {length n : Nat} {key : Value} (h : indexIn length key = .ok n) :
    n < length := by
  obtain ⟨i, -, hin⟩ := indexIn_cases h
  omega

theorem Store.indexIn_nat {length i n : Nat} (h : indexIn length (.int i) = .ok n) : n = i := by
  obtain ⟨k, hk, hin⟩ := indexIn_cases h
  obtain rfl : (i : Int) = k := Option.some.inj hk
  omega

theorem Desk.item_at {d : Desk} {i n : Nat} {item : DeskItem} (h : d.item (.int i) = .ok (n, item)) :
    n = i ∧ d.items[i]? = some item := by
  obtain ⟨k, hk, hfound⟩ := ok_of_bind h
  obtain rfl := indexIn_nat hk
  split at hfound
  · rename_i hitem
    cases hfound
    exact ⟨rfl, hitem⟩
  · cases hfound

/-- More tags are a change through an item. -/
theorem DeskItem.addTag_changes {tag : Value} (h : item.addTag tag = .ok changed) :
    item.Changes s changed s := by
  unfold DeskItem.addTag at h
  split at h <;> cases h
  exact .fields _ rfl

/-- So is a new value at the end of any path into the options. -/
theorem DeskItem.assignAt_changes {path : List Value} {v : Value}
    (h : (s.add v).2.assignAt item.options path (s.add v).1 = .ok s') : item.Changes s item s' := by
  obtain ⟨a, cell, changed, hreach, hc, hslots, rfl⟩ := assignAt_reaches h
  refine .cell v a changed hreach fun slot hslot => ?_
  rcases hslots slot hslot with hold | hnew
  · cases slot with
    | scalar w => exact .inl ⟨w, rfl⟩
    | place b => exact .inr (.inr ⟨b, rfl, hreach.tail hc hold⟩)
  · exact .inr (.inl hnew)

end

end Syndicate
