import Mathlib.Logic.Relation
import Syndicate.Proofs.Content.Lent

/-! Copies of copies. Every item of a desk is the given one, a clone of an earlier one, or an
earlier one read back from its written form. Two items have a cell in common among their options only
if a chain of readings joins them, and no item leads to the row of options of another. So a change to
one item shows in another only where it is made inside an option value, and never across a clone. The
mapping that the given item was read from may have anything in common among its parts, but its options
nothing with its tags and plain fields. -/

namespace Syndicate

open Store

/-- Where an item of a desk comes from, by its place. -/
inductive Origin where
  | given
  | cloned (n : Nat)
  | reread (n : Nat)

namespace Origin

variable {origins : List Origin} {i j k m n : Nat}

/-- Two places that a chain of readings joins, in one direction or the other. -/
def Kin (origins : List Origin) : Nat → Nat → Prop :=
  Relation.EqvGen fun m n => origins[n]? = some (.reread m)

/-- The item at one place was made of the one at the other, by either way of copying. -/
def Copies (origins : List Origin) (m n : Nat) : Prop :=
  origins[n]? = some (.cloned m) ∨ origins[n]? = some (.reread m)

/-- An item and all that comes of it, also by copies of copies. -/
def Derived (origins : List Origin) : Nat → Nat → Prop := Relation.ReflTransGen (Copies origins)

theorem Kin.refl (origins : List Origin) (n : Nat) : Kin origins n n := Relation.EqvGen.refl n

theorem Kin.symm (h : Kin origins m n) : Kin origins n m := Relation.EqvGen.symm m n h

theorem Kin.trans (h : Kin origins i j) (h' : Kin origins j k) : Kin origins i k :=
  Relation.EqvGen.trans i j k h h'

theorem Kin.append (h : Kin origins i j) (more : List Origin) : Kin (origins ++ more) i j := by
  refine Relation.EqvGen.mono (fun m n hn => ?_) i j h
  rw [List.getElem?_append_left (List.getElem?_eq_some_iff.1 hn).1]
  exact hn

theorem Derived.le (h : Derived origins k j) (hearlier : ∀ m n, Copies origins m n → m < n) :
    k ≤ j := by
  induction h with
  | refl => exact Nat.le_refl _
  | tail _ hcopy ih => exact Nat.le_trans ih (Nat.le_of_lt (hearlier _ _ hcopy))

/-- What comes of a clone is joined by readings to nothing else. -/
theorem Kin.derived_iff (h : Kin origins i j) (hk : origins[k]? = some (.cloned m)) :
    Derived origins k i ↔ Derived origins k j := by
  induction h with
  | refl i => rfl
  | symm i j _ ih => exact ih.symm
  | trans i j l _ _ ih ih' => exact ih.trans ih'
  | rel i j hij =>
    refine ⟨fun h => h.tail (.inr hij), fun h => ?_⟩
    rcases h.cases_tail with rfl | ⟨l, hl, hcopy | hcopy⟩
    · cases hk.symm.trans hij
    · cases hcopy.symm.trans hij
    · cases hcopy.symm.trans hij
      exact hl

end Origin

namespace Desk

/-- Where the item comes from that an edit at a place makes, if it makes one. -/
def Edit.origin? : Edit → Nat → Option Origin
  | .clone _, n => some (.cloned n)
  | .reread _, n => some (.reread n)
  | _, _ => none

/-- What an edit can make of a desk, whichever new cells a deep copy takes. -/
inductive Becomes (d : Desk) : Edit → Desk → Prop
  | apply {e : Edit} {d' : Desk} (h : d.apply e = .ok d') : Becomes d e d'
  | clone {i : Value} {n : Nat} {x : DeskItem} {tags : List Value} {t : Store} {slot : Slot}
    (hitem : d.item i = .ok (n, x)) (htags : x.tags.items = .ok tags)
    (hcarries : Carries d.store t slot)
    (hreads : ∀ depth, readTo (d.store ++ t) depth slot = readTo d.store depth x.options) :
    Becomes d (.clone i)
      ⟨d.store ++ t, d.items ++ [{ x with tags := .list tags, options := slot }]⟩

/-- Nothing dangles, and each row of options belongs to one item and to nothing else. -/
structure Rooted (d : Desk) : Prop where
  closed : d.store.Closed (Set.Iio d.store.length)
  leads : ∀ item ∈ d.items, item.options.LeadsInto (Set.Iio d.store.length)
  outer : ∀ item ∈ d.items, ∀ a, item.options = .place a → ¬ d.store.Inner a
  single : ∀ (j k : Nat) (x y : DeskItem) (a : Nat), d.items[j]? = some x → d.items[k]? = some y →
    x.options = .place a → y.options = .place a → j = k

section

variable {d d' : Desk} {s : Store} {items : List DeskItem} {n j k : Nat} {x y : DeskItem} {e : Edit}

theorem Becomes.alters (h : d.Becomes e d') :
    ∃ n x, indexIn d.items.length e.place = .ok n ∧ d.items[n]? = some x ∧ Alters d n x e d' := by
  cases h with
  | apply h => exact alters_of_apply h
  | clone hitem htags hcarries hreads =>
    exact ⟨_, _, (item_cases hitem).1, (item_cases hitem).2, .clone _ _ _ _ hcarries⟩

theorem Rooted.leadsInto (h : d.Rooted) (hx : d.items[j]? = some x) :
    x.options.LeadsInto (Set.Iio d.store.length) :=
  h.leads x (List.mem_of_getElem? hx)

theorem Rooted.lt_of_reaches (h : d.Rooted) (hx : d.items[j]? = some x) {a : Nat}
    (ha : d.store.Reaches x.options a) : a < d.store.length :=
  ha.mem h.closed (h.leadsInto hx)

theorem Rooted.lt_of_place (h : d.Rooted) (hx : d.items[j]? = some x) {a : Nat}
    (ha : x.options = .place a) : a < d.store.length :=
  h.lt_of_reaches hx (ha ▸ .here a)

/-- A desk may grow, and one place get a row of options that is new. -/
theorem Rooted.grow (h : d.Rooted) (hs : d.store.Extends s) (k : Nat)
    (hitems : ∀ (j : Nat) (y : DeskItem), items[j]? = some y →
      (∃ x, d.items[j]? = some x ∧ y.options = x.options) ∨ j = k ∧ d.store.Heads s y.options) :
    Rooted ⟨s, items⟩ where
  closed := hs.closed
  leads y hy := by
    obtain ⟨j, hj⟩ := List.mem_iff_getElem?.1 hy
    rcases hitems j y hj with ⟨x, hx, hxy⟩ | ⟨-, hnew⟩
    · exact hxy ▸ (h.leadsInto hx).mono (Set.Iio_subset_Iio hs.grows)
    · cases hplace : y.options with
      | scalar v => trivial
      | place a => exact (hnew a hplace).2.1
  outer y hy a ha := by
    obtain ⟨j, hj⟩ := List.mem_iff_getElem?.1 hy
    rcases hitems j y hj with ⟨x, hx, hxy⟩ | ⟨-, hnew⟩
    · have hxa : x.options = .place a := hxy ▸ ha
      exact fun hinner => h.outer x (List.mem_of_getElem? hx) a hxa
        (hs.inner a (h.lt_of_place hx hxa) hinner)
    · exact (hnew a ha).2.2
  single i j x y a hx hy hxa hya := by
    rcases hitems i x hx with ⟨x', hx', hxx⟩ | ⟨rfl, hx'⟩ <;>
      rcases hitems j y hy with ⟨y', hy', hyy⟩ | ⟨rfl, hy'⟩
    · exact h.single i j x' y' a hx' hy' (hxx ▸ hxa) (hyy ▸ hya)
    · exact absurd (h.lt_of_place hx' (hxx ▸ hxa)) (Nat.not_lt.2 (hy' a hya).1)
    · exact absurd (h.lt_of_place hy' (hyy ▸ hya)) (Nat.not_lt.2 (hx' a hxa).1)
    · rfl

/-- An item leads to the row of options of another one only by having it for its own. -/
theorem Rooted.eq_of_reaches (h : d.Rooted) (hx : d.items[j]? = some x) (hy : d.items[k]? = some y)
    {a : Nat} (ha : x.options = .place a) (hreach : d.store.Reaches y.options a) : j = k :=
  hreach.eq_or_inner.elim (fun hya => h.single j k x y a hx hy ha hya)
    fun hinner => absurd hinner (h.outer x (List.mem_of_getElem? hx) a ha)

theorem getElem?_concat_cases {α : Type} {xs : List α} {x y : α}
    (h : (xs ++ [x])[j]? = some y) : xs[j]? = some y ∨ j = xs.length ∧ y = x := by
  rw [List.getElem?_append] at h
  split at h
  · exact .inl h
  · obtain ⟨hj, hxy⟩ : j - xs.length = 0 ∧ x = y := by simpa [List.getElem?_singleton] using h
    exact .inr ⟨by omega, hxy.symm⟩

theorem getElem?_set_cases {α : Type} {xs : List α} {x y : α}
    (h : (xs.set n x)[j]? = some y) : xs[j]? = some y ∨ j = n ∧ y = x := by
  by_cases hj : n = j
  · subst hj
    have hlt : n < xs.length := by
      simpa using (List.getElem?_eq_some_iff.1 h).1
    rw [List.getElem?_set_self hlt] at h
    exact .inr ⟨rfl, (Option.some.inj h).symm⟩
  · exact .inl (List.getElem?_set_ne hj ▸ h)

/-- Whatever is done on a desk, its rows of options are apart. -/
theorem Rooted.alter (h : d.Rooted) (hx : d.items[n]? = some x) (ha : Alters d n x e d') :
    d'.Rooted := by
  cases ha with
  | clone i tags t slot hcarries =>
    refine h.grow (hcarries.fresh.extends h.closed) d.items.length fun j y hy => ?_
    rcases getElem?_concat_cases hy with hold | ⟨rfl, rfl⟩
    · exact .inl ⟨y, hold, rfl⟩
    · exact .inr ⟨rfl, hcarries.heads h.closed⟩
  | reread i tags es hes =>
    have hcell : Cell.LeadsInto {a | d.store.Inner a} (.map (Content.keepOptions es)) := by
      intro slot hslot
      obtain ⟨e, he, rfl⟩ := List.mem_map.1 hslot
      exact keepOptions_leadsInto (entriesOf_below (fun a _ _ => leadsInto_inner)
        (fun a _ _ => leadsInto_inner) hes) e he
    obtain ⟨hgrown, hheads⟩ := extends_addCell h.closed hcell
    refine h.grow hgrown d.items.length fun j y hy => ?_
    rcases getElem?_concat_cases hy with hold | ⟨rfl, rfl⟩
    · exact .inl ⟨y, hold, rfl⟩
    · exact .inr ⟨rfl, hheads⟩
  | tag i t z hz | set i field v z hz =>
    refine h.grow (.refl h.closed) n fun j y hy => ?_
    rcases getElem?_set_cases hy with hold | ⟨rfl, rfl⟩
    · exact .inl ⟨y, hold, rfl⟩
    · exact .inl ⟨x, hx, hz⟩
  | options i field v z hz =>
    refine h.grow (extends_add h.closed v) n fun j y hy => ?_
    rcases getElem?_set_cases hy with hold | ⟨rfl, rfl⟩
    · exact .inl ⟨y, hold, rfl⟩
    · exact .inr ⟨rfl, hz ▸ heads_add h.closed v⟩
  | assign i path v s hs =>
    have hassigned := assigned_of_assignAt h.closed (h.leadsInto hx) hs
    exact h.grow (hassigned.extends h.closed) n fun j y hy => .inl ⟨y, hy, rfl⟩

/-- An edit changes no cell there is, or the one that the keys before the last lead to. -/
theorem Rooted.leaves (h : d.Rooted) (hx : d.items[n]? = some x) (ha : Alters d n x e d') :
    (∀ b < d.store.length, d'.store[b]? = d.store[b]?) ∨
    ∃ i down key v a, e = .option i (down ++ [key]) v ∧
      d.store.follow x.options down = .ok (.place a) ∧
      ∀ b < d.store.length, b ≠ a → d'.store[b]? = d.store[b]? := by
  cases ha with
  | clone i tags t slot hcarries => exact .inl (spares_append d.store t).leaves
  | reread i tags es hes => exact .inl (spares_append d.store _).leaves
  | tag i t z hz | set i field v z hz => exact .inl fun b _ => rfl
  | options i field v z hz => exact .inl (sameBelow_add d.store v)
  | assign i path v s hs =>
    obtain ⟨hdown, hc, hslots⟩ := assigned_of_assignAt h.closed (h.leadsInto hx) hs
    rename_i down key a cell changed
    refine .inr ⟨i, down, key, v, a, rfl, hdown, fun b hb hne => ?_⟩
    exact (List.getElem?_set_ne (Ne.symm hne)).trans (sameBelow_add d.store v b hb)

theorem Alters.grows (h : Alters d n x e d') : d.store.length ≤ d'.store.length := by
  cases h with
  | clone | reread => simp
  | tag | set => exact Nat.le_refl _
  | options i field v z hz => exact length_le_add d.store v
  | assign i path v s hs =>
    obtain ⟨a, cell, changed, -, -, -, rfl⟩ := assignAt_reaches hs
    rw [List.length_set]
    exact length_le_add d.store v

/-- It leaves the items at other places as they are. -/
theorem Alters.item_eq (h : Alters d n x e d') (hj : j < d.items.length) (hjn : j ≠ n) :
    d'.items[j]? = d.items[j]? := by
  cases h with
  | clone | reread => exact List.getElem?_append_left hj
  | tag | set | options => exact List.getElem?_set_ne (Ne.symm hjn)
  | assign => rfl

end

end Desk

open Desk Origin

/-- A desk with what is lent to its items, and the origins of these. -/
structure Pedigree where
  desk : Desk
  loans : List Loan
  origins : List Origin

namespace Pedigree

/-- The given item alone, with nothing lent to it. -/
def ofItem (c : Content) : Pedigree := ⟨Desk.ofItem c, [{}], [.given]⟩

/-- The item read from a mapping that is in a slot. Its row of options is new; the values in it, the
tags and the plain fields are the mapping's own. -/
def ofMapping (s : Store) (slot : Slot) : Outcome Pedigree := do
  let (item, t) ← DeskItem.ofMapping s slot
  let loan := Loan.ofEntries s (← s.entriesOf slot)
  let tags ← item.tags.items
  pure ⟨⟨t, [{ item with tags := .list (tags.drop loan.tags.length) }]⟩, [loan], [.given]⟩

/-- What is lent after an edit at a place. A copy has what is lent to what it was made of. -/
def lend (p : Pedigree) (e : Edit) (n : Nat) : List Loan :=
  p.loans.modify n (·.after e) ++ ((e.origin? n).bind fun _ => p.loans[n]?).toList

/-- An edit of a desk, which changes nothing if it fails. -/
inductive Step (p : Pedigree) (e : Edit) : Pedigree → Prop
  | done {d : Desk} {n : Nat} (hn : indexIn p.desk.items.length e.place = .ok n)
    (h : p.desk.Becomes e d) : Step p e ⟨d, p.lend e n, p.origins ++ (e.origin? n).toList⟩
  | failed {f : Failure} (h : p.desk.apply e = .error f) : Step p e p

inductive Runs : Pedigree → List Edit → Pedigree → Prop
  | nil (p : Pedigree) : Runs p [] p
  | cons {p q r : Pedigree} {e : Edit} {es : List Edit} (hs : p.Step e q) (h : Runs q es r) :
    Runs p (e :: es) r

/-- What can be seen of the item at a place, down to any number of cells. -/
def face (p : Pedigree) (j depth : Nat) : Option (Outcome Entries × Bool) := do
  let item ← p.desk.items[j]?
  let loan ← p.loans[j]?
  some (item.faceTo p.desk.store depth loan)

/-- No options lead to a cell to which something leads that is lent. -/
def Apart (p : Pedigree) : Prop :=
  ∀ l ∈ p.loans, ∀ x ∈ p.desk.items, ∀ a ∈ l.held p.desk.store, ¬ p.desk.store.Reaches x.options a

/-- A row of items begins with one of plain values, or with one that was read from a mapping. The
parts of this may have lists and mappings in common, but not the options with the others. -/
inductive Begins : Pedigree → Prop
  | item (c : Content) : Begins (ofItem c)
  | mapping {s : Store} {slot : Slot} {p : Pedigree} (hs : s.Closed (Set.Iio s.length))
    (hslot : slot.LeadsInto (Set.Iio s.length)) (hp : ofMapping s slot = .ok p) (h : p.Apart) :
    Begins p

/-- Rows of options are apart from one another and from all that is lent, copies come later than
what they were made of, and items whose options have a cell in common are joined by readings. -/
structure Sound (p : Pedigree) : Prop where
  rooted : p.desk.Rooted
  traced : p.origins.length = p.desk.items.length
  lent : p.loans.length = p.desk.items.length
  within : ∀ l ∈ p.loans, ∀ slot ∈ l.slots, slot.LeadsInto (Set.Iio p.desk.store.length)
  apart : p.Apart
  earlier : ∀ m n, Copies p.origins m n → m < n
  kin : ∀ (i j : Nat) (x y : DeskItem) (a : Nat), p.desk.items[i]? = some x →
    p.desk.items[j]? = some y → p.desk.store.Reaches x.options a →
    p.desk.store.Reaches y.options a → Kin p.origins i j

variable {p q : Pedigree} {d : Desk} {n : Nat} {x : DeskItem} {e : Edit}

/-! ### Beginning -/

/-- One item alone, whose options nothing leads to. -/
theorem sound_single {s : Store} {x : DeskItem} {l : Loan} (hs : s.Closed (Set.Iio s.length))
    (hx : x.options.LeadsInto (Set.Iio s.length))
    (houter : ∀ a, x.options = .place a → ¬ s.Inner a)
    (hl : ∀ slot ∈ l.slots, slot.LeadsInto (Set.Iio s.length))
    (hapart : (⟨⟨s, [x]⟩, [l], [.given]⟩ : Pedigree).Apart) :
    (⟨⟨s, [x]⟩, [l], [.given]⟩ : Pedigree).Sound := by
  have hzero : ∀ {j : Nat} {y : DeskItem}, [x][j]? = some y → j = 0 := by
    intro j y hy
    have hlt : j < 1 := (List.getElem?_eq_some_iff.1 hy).1
    omega
  refine ⟨⟨hs, by simpa using hx, by simpa using houter, ?_⟩, rfl, rfl, by simpa using hl, hapart,
    ?_, ?_⟩
  · intro j k y z a hy hz _ _
    rw [hzero hy, hzero hz]
  · rintro m n (h | h) <;> cases List.mem_singleton.1 (List.mem_of_getElem? h)
  · intro i j y z a hy hz _ _
    rw [hzero hy, hzero hz]
    exact .refl _ _

theorem sound_ofItem (c : Content) : (ofItem c).Sound := by
  have hclosed : Closed [] (Set.Iio 0) := fun a ha => absurd ha (Nat.not_lt_zero a)
  have hheads := heads_add hclosed (.map c.options)
  refine sound_single (hclosed.add (.map c.options)) (hclosed.add_rests (.map c.options)).leads
    (fun a ha => (hheads a ha).2.2) nofun fun l hl x _ a ha => ?_
  obtain rfl := List.mem_singleton.1 hl
  obtain ⟨slot, hslot, -⟩ := ha
  cases hslot

theorem sound_ofMapping {s : Store} {slot : Slot} (hs : s.Closed (Set.Iio s.length))
    (hslot : slot.LeadsInto (Set.Iio s.length)) (hp : ofMapping s slot = .ok p) (h : p.Apart) :
    p.Sound := by
  obtain ⟨⟨item, t⟩, hitem, hp⟩ := ok_of_bind hp
  obtain ⟨entries, hentries, hp⟩ := ok_of_bind hp
  obtain ⟨tags, -, hp⟩ := ok_of_bind hp
  cases hp
  have hleads := entriesOf_leadsInto hs hslot hentries
  obtain ⟨options, rfl, hplace, hoptions⟩ := DeskItem.ofMapping_cases hitem
  have hcell : Cell.LeadsInto (Set.Iio s.length) (.map (Content.keepOptions options)) := by
    intro next hnext
    obtain ⟨e, he, rfl⟩ := List.mem_map.1 hnext
    exact keepOptions_leadsInto (hoptions hs hslot) e he
  have hgrown : Set.Iio s.length ⊆ Set.Iio (s ++ [Cell.map (Content.keepOptions options)]).length :=
    Set.Iio_subset_Iio (by simp)
  refine sound_single (hs.addCell hcell) ?_ ?_ ?_ h
  · rw [hplace]
    simp [Slot.LeadsInto]
  · -- What is in the row leads to old cells, as all of these do.
    rintro a ha ⟨cell, hmem, hin⟩
    obtain rfl : s.length = a := Slot.place.inj (hplace.symm.trans ha)
    rcases List.mem_append.1 hmem with hmem | hmem
    · exact Nat.lt_irrefl _ (Inner.lt ⟨cell, hmem, hin⟩ hs)
    · obtain rfl := List.mem_singleton.1 hmem
      exact Nat.lt_irrefl _ (hcell _ hin)
  · exact fun next hnext => (Loan.ofEntries_leadsInto hs hleads next hnext).mono hgrown

theorem Begins.sound (h : p.Begins) : p.Sound := by
  cases h with
  | item c => exact sound_ofItem c
  | mapping hs hslot hp h => exact sound_ofMapping hs hslot hp h

/-- What a desk itself makes of an edit. -/
def edit (p : Pedigree) (e : Edit) : Pedigree :=
  match p.desk.apply e, indexIn p.desk.items.length e.place with
  | .ok d, .ok n => ⟨d, p.lend e n, p.origins ++ (e.origin? n).toList⟩
  | _, _ => p

def run (p : Pedigree) (es : List Edit) : Pedigree := es.foldl edit p

theorem step_edit (p : Pedigree) (e : Edit) : p.Step e (p.edit e) := by
  cases h : p.desk.apply e with
  | error f =>
    have hedit : p.edit e = p := by rw [edit, h]
    exact hedit.symm ▸ .failed h
  | ok d =>
    obtain ⟨n, x, hn, -, -⟩ := alters_of_apply h
    have hedit : p.edit e = ⟨d, p.lend e n, p.origins ++ (e.origin? n).toList⟩ := by
      rw [edit, h, hn]
    exact hedit.symm ▸ .done hn (.apply h)

theorem runs_run (p : Pedigree) (es : List Edit) : p.Runs es (p.run es) := by
  induction es generalizing p with
  | nil => exact .nil p
  | cons e es ih => exact .cons (step_edit p e) (ih (p.edit e))

/-! ### What an edit keeps -/

/-- What the items of a desk lead to after an edit: to cells that kinsmen led to before, or to new ones,
and to these only kinsmen of one item. -/
def Inherits (p : Pedigree) (d : Desk) (origins : List Origin) (k : Nat) : Prop :=
  ∀ (j : Nat) (y : DeskItem) (b : Nat), d.items[j]? = some y → d.store.Reaches y.options b →
    (∃ i x, p.desk.items[i]? = some x ∧ p.desk.store.Reaches x.options b ∧ Kin origins j i) ∨
      p.desk.store.length ≤ b ∧ Kin origins j k

theorem Sound.kin_inherits (h : p.Sound) {more : List Origin} {k : Nat}
    (hd : p.Inherits d (p.origins ++ more) k) (i j : Nat) (x y : DeskItem) (b : Nat)
    (hx : d.items[i]? = some x) (hy : d.items[j]? = some y) (hxb : d.store.Reaches x.options b)
    (hyb : d.store.Reaches y.options b) : Kin (p.origins ++ more) i j := by
  rcases hd i x b hx hxb with ⟨i', x', hx', hxb', hi⟩ | ⟨hlt, hi⟩ <;>
    rcases hd j y b hy hyb with ⟨j', y', hy', hyb', hj⟩ | ⟨hlt', hj⟩
  · exact (hi.trans ((h.kin i' j' x' y' b hx' hy' hxb' hyb').append more)).trans hj.symm
  · exact absurd (h.rooted.lt_of_reaches hx' hxb') (Nat.not_lt.2 hlt')
  · exact absurd (h.rooted.lt_of_reaches hy' hyb') (Nat.not_lt.2 hlt)
  · exact hi.trans hj.symm

/-- An item that is reread leads where the other one does, apart from its own row of options. -/
theorem reaches_reread {s : Store} {slot : Slot} {es : List (Value × Slot)} {b : Nat}
    (hs : s.Closed (Set.Iio s.length)) (hslot : slot.LeadsInto (Set.Iio s.length))
    (hes : s.entriesOf slot = .ok es)
    (h : Reaches (s ++ [.map (Content.keepOptions es)]) (.place s.length) b) :
    b = s.length ∨ s.Reaches slot b := by
  cases h with
  | here => exact .inl rfl
  | down hc hmem hreach =>
    rw [List.getElem?_concat_length] at hc
    obtain rfl := Option.some.inj hc
    rename_i entry
    obtain ⟨e, he, rfl⟩ := List.mem_map.1 hmem
    have hentry : e.2.LeadsInto (s.reached slot) := keepOptions_leadsInto
      (entriesOf_leadsInto (closed_reached s slot) (leadsInto_reached s slot) hes) e he
    have hbelow : e.2.LeadsInto (Set.Iio s.length) :=
      hentry.mono fun a ha => Reaches.mem ha hs hslot
    have hold := hreach.of_leaves hs (spares_append s _).leaves hbelow
    exact .inr (hold.mem (closed_reached s slot) hentry)

theorem Sound.inherits (h : p.Sound) (hx : p.desk.items[n]? = some x)
    (ha : Alters p.desk n x e d) : ∃ k, p.Inherits d (p.origins ++ (e.origin? n).toList) k := by
  have hclosed := h.rooted.closed
  -- Where no cell has changed an item leads where it did.
  have hold : ∀ {s : Store} {j : Nat} {y : DeskItem} {b : Nat},
      (∀ a < p.desk.store.length, s[a]? = p.desk.store[a]?) → p.desk.items[j]? = some y →
      s.Reaches y.options b → p.desk.store.Reaches y.options b :=
    fun hs hy hreach => hreach.of_leaves hclosed hs (h.rooted.leadsInto hy)
  cases ha with
  | clone i tags t slot hcarries =>
    refine ⟨p.desk.items.length, fun j y b hy hreach => ?_⟩
    rcases getElem?_concat_cases hy with hin | ⟨rfl, rfl⟩
    · exact .inl ⟨j, y, hin, hold (spares_append _ t).leaves hin hreach, .refl _ _⟩
    · exact .inr ⟨hcarries.le_of_reaches hreach, .refl _ _⟩
  | reread i tags es hes =>
    refine ⟨p.desk.items.length, fun j y b hy hreach => ?_⟩
    rcases getElem?_concat_cases hy with hin | ⟨rfl, rfl⟩
    · exact .inl ⟨j, y, hin, hold (spares_append _ _).leaves hin hreach, .refl _ _⟩
    · rcases reaches_reread hclosed (h.rooted.leadsInto hx) hes hreach with rfl | hreach
      · exact .inr ⟨Nat.le_refl _, .refl _ _⟩
      · refine .inl ⟨n, x, hx, hreach, Kin.symm (Relation.EqvGen.rel _ _ ?_)⟩
        rw [← h.traced]
        exact List.getElem?_concat_length
  | tag i t z hz | set i field v z hz =>
    refine ⟨n, fun j y b hy hreach => ?_⟩
    rcases getElem?_set_cases hy with hin | ⟨rfl, rfl⟩
    · exact .inl ⟨j, y, hin, hreach, .refl _ _⟩
    · exact .inl ⟨j, x, hx, hz ▸ hreach, .refl _ _⟩
  | options i field v z hz =>
    refine ⟨n, fun j y b hy hreach => ?_⟩
    rcases getElem?_set_cases hy with hin | ⟨rfl, rfl⟩
    · exact .inl ⟨j, y, hin, hold (sameBelow_add _ v) hin hreach, .refl _ _⟩
    · exact .inr ⟨le_of_add_reaches (hz ▸ hreach), .refl _ _⟩
  | assign i path v s hs =>
    obtain ⟨hdown, hc, hslots⟩ := assigned_of_assignAt hclosed (h.rooted.leadsInto hx) hs
    refine ⟨n, fun j y b hy hreach => ?_⟩
    rcases Reaches.of_assigned hclosed hc hslots (h.rooted.leadsInto hy) hreach with hin | ⟨hya, hb⟩
    · exact .inl ⟨j, y, hy, hin, .refl _ _⟩
    · have hxa := follow_reaches hdown (.here _)
      exact .inr ⟨hb, (h.kin j n y x _ hy hx hya hxa).append _⟩

theorem copies_append {origins : List Origin} {i j : Nat}
    (h : Copies (origins ++ (e.origin? n).toList) i j) :
    Copies origins i j ∨ i = n ∧ j = origins.length := by
  have hconcat : ∀ {o o' : Origin}, (origins ++ [o])[j]? = some o' →
      origins[j]? = some o' ∨ o' = o ∧ j = origins.length := fun h =>
    (getElem?_concat_cases h).imp id fun h => ⟨h.2, h.1⟩
  cases e with
  | clone k | reread k =>
    rcases h with h | h
    · rcases hconcat h with hold | ⟨hnew, hj⟩
      · exact .inl (.inl hold)
      · cases hnew <;> exact .inr ⟨rfl, hj⟩
    · rcases hconcat h with hold | ⟨hnew, hj⟩
      · exact .inl (.inr hold)
      · cases hnew <;> exact .inr ⟨rfl, hj⟩
  | _ => exact .inl (by simpa [Edit.origin?] using h)

theorem of_mem_lend {l : Loan} (h : l ∈ p.lend e n) : ∃ m ∈ p.loans, l = m ∨ l = m.after e := by
  rcases List.mem_append.1 h with h | h
  · obtain ⟨j, hj⟩ := List.mem_iff_getElem?.1 h
    rw [List.getElem?_modify] at hj
    obtain ⟨m, hm, rfl⟩ := Option.map_eq_some_iff.1 hj
    refine ⟨m, List.mem_of_getElem? hm, ?_⟩
    split
    · exact .inr rfl
    · exact .inl rfl
  · obtain ⟨o, -, hl⟩ := Option.bind_eq_some_iff.1 (Option.mem_toList.1 h)
    exact ⟨l, List.mem_of_getElem? hl, .inl rfl⟩

/-- Nothing is lent that was not lent before. -/
theorem slots_lend {l : Loan} (h : l ∈ p.lend e n) :
    ∃ m ∈ p.loans, ∀ slot ∈ l.slots, slot ∈ m.slots := by
  obtain ⟨m, hm, rfl | rfl⟩ := of_mem_lend h
  · exact ⟨l, hm, fun _ hslot => hslot⟩
  · exact ⟨m, hm, m.after_slots e⟩

theorem lend_getElem? {j : Nat} (hj : j < p.loans.length) (hjn : j ≠ n) :
    (p.lend e n)[j]? = p.loans[j]? := by
  rw [lend, List.getElem?_append_left (by rwa [List.length_modify])]
  exact List.getElem?_modify_ne _ _ (Ne.symm hjn)

theorem length_lend (hn : n < p.loans.length) :
    (p.lend e n).length = p.loans.length + (e.origin? n).toList.length := by
  have hfound : p.loans[n]? = some p.loans[n] := List.getElem?_eq_getElem hn
  cases e <;> simp [lend, Edit.origin?, hfound]

/-- An edit changes no cell to which something leads that is lent. -/
theorem Sound.leaves_lent (h : p.Sound) (hx : p.desk.items[n]? = some x)
    (ha : Alters p.desk n x e d) {l : Loan} (hl : l ∈ p.loans) :
    ∀ a ∈ l.held p.desk.store, d.store[a]? = p.desk.store[a]? := by
  rintro a ⟨slot, hslot, hreach⟩
  have hlt : a < p.desk.store.length := hreach.mem h.rooted.closed (h.within l hl slot hslot)
  rcases h.rooted.leaves hx ha with hsame | ⟨i, down, key, v, b, -, hdown, hsame⟩
  · exact hsame a hlt
  · refine hsame a hlt fun he => ?_
    exact h.apart l hl x (List.mem_of_getElem? hx) a ⟨slot, hslot, hreach⟩
      (follow_reaches hdown (he ▸ .here a))

theorem Sound.apart_after (h : p.Sound) (hx : p.desk.items[n]? = some x)
    (ha : Alters p.desk n x e d) (origins : List Origin) :
    (⟨d, p.lend e n, origins⟩ : Pedigree).Apart := by
  rintro l hl y hy a ⟨slot, hslot, hreach⟩ hya
  obtain ⟨m, hm, hslots⟩ := slots_lend hl
  have hheld : a ∈ m.held p.desk.store :=
    Loan.held_of_leaves (h.leaves_lent hx ha hm) ⟨slot, hslots slot hslot, hreach⟩
  obtain ⟨j, hj⟩ := List.mem_iff_getElem?.1 hy
  obtain ⟨k, hk⟩ := h.inherits hx ha
  rcases hk j y a hj hya with ⟨i, z, hz, hza, -⟩ | ⟨hle, -⟩
  · exact h.apart m hm z (List.mem_of_getElem? hz) a hheld hza
  · obtain ⟨slot', hslot', hreach'⟩ := hheld
    exact Nat.not_lt.2 hle (hreach'.mem h.rooted.closed (h.within m hm slot' hslot'))

/-- Whatever is done to an item, also if it fails, the origins tell what has come of what. -/
theorem Sound.step (h : p.Sound) (hs : p.Step e q) : q.Sound := by
  cases hs with
  | failed => exact h
  | done hn hd =>
    obtain ⟨n, x, hn', hx, ha⟩ := hd.alters
    obtain rfl := Except.ok.inj (hn.symm.trans hn')
    obtain ⟨k, hk⟩ := h.inherits hx ha
    have hlt := (List.getElem?_eq_some_iff.1 hx).1
    have hrooted := h.rooted.alter hx ha
    refine ⟨hrooted, ?_, ?_, fun l hl slot hslot => ?_, h.apart_after hx ha _, fun i j hij => ?_,
      h.kin_inherits hk⟩
    · cases ha <;> simp [Edit.origin?, h.traced]
    · rw [length_lend (by rw [h.lent]; exact hlt), h.lent]
      cases ha <;> simp [Edit.origin?]
    · obtain ⟨m, hm, hslots⟩ := slots_lend hl
      exact (h.within m hm slot (hslots slot hslot)).mono
        (Set.Iio_subset_Iio ha.grows)
    · rcases copies_append hij with hold | ⟨rfl, rfl⟩
      · exact h.earlier i j hold
      · exact h.traced ▸ hlt

/-- An edit at one place assigns inside an option value that the item at another place has too. The
path is of two keys or more, its end lies in neither row of options, and a chain of readings joins the
two items. -/
inductive Touches (p : Pedigree) (n j : Nat) : Edit → Prop
  | assign {x y : DeskItem} {i key v : Value} {down : List Value} {a : Nat}
    (hx : p.desk.items[n]? = some x) (hy : p.desk.items[j]? = some y) (nested : down ≠ [])
    (follows : p.desk.store.follow x.options down = .ok (.place a))
    (reaches : p.desk.store.Reaches y.options a)
    (inside : x.options ≠ .place a ∧ y.options ≠ .place a) (kin : Kin p.origins n j) :
    Touches p n j (.option i (down ++ [key]) v)

/-- An edit at a place shows elsewhere only inside a value that is had in common. It never shows
across a clone: of the clone and all that comes of it on the one hand, and of everything else on the
other hand, the original included, the edit leaves the side alone that it is not on. -/
structure Confined (p : Pedigree) (n : Nat) (e : Edit) (q : Pedigree) : Prop where
  shared : ∀ j < p.desk.items.length, j ≠ n → q.face j ≠ p.face j → p.Touches n j e
  apart : ∀ k m : Nat, p.origins[k]? = some (.cloned m) → ∀ j < p.desk.items.length,
    ¬(Derived p.origins k n ↔ Derived p.origins k j) → q.face j = p.face j
  original : ∀ k m : Nat, p.origins[k]? = some (.cloned m) → ¬Derived p.origins k m

/-- What an edit leaves alone looks as it did, but for what lies in a cell where it assigns. -/
theorem Sound.face_alter (h : p.Sound) (hx : p.desk.items[n]? = some x)
    (ha : Alters p.desk n x e d) {j : Nat} {y : DeskItem} (hy : p.desk.items[j]? = some y)
    (hjn : j ≠ n) (origins : List Origin) :
    (⟨d, p.lend e n, origins⟩ : Pedigree).face j = p.face j ∨
    ∃ i down key v a, e = .option i (down ++ [key]) v ∧
      p.desk.store.follow x.options down = .ok (.place a) ∧ p.desk.store.Reaches y.options a := by
  have hlt := (List.getElem?_eq_some_iff.1 hy).1
  have hitem : d.items[j]? = some y := (ha.item_eq hlt hjn).trans hy
  have hlent : j < p.loans.length := h.lent ▸ hlt
  have hloan : p.loans[j]? = some p.loans[j] := List.getElem?_eq_getElem hlent
  have hlend : (p.lend e n)[j]? = some p.loans[j] := (lend_getElem? hlent hjn).trans hloan
  -- An item looks as it did if its options do, since what is lent to it does anyway.
  have hkept : (∀ a ∈ p.desk.store.reached y.options, d.store[a]? = p.desk.store[a]?) →
      (⟨d, p.lend e n, origins⟩ : Pedigree).face j = p.face j := by
    intro hsame
    funext depth
    have heq := DeskItem.faceTo_eq
      ((closed_reached p.desk.store y.options).union (p.loans[j].closed_held p.desk.store))
      (fun a ha' => ha'.elim (hsame a) (h.leaves_lent hx ha (List.getElem_mem hlent) a))
      ((leadsInto_reached p.desk.store y.options).mono Set.subset_union_left)
      (fun slot hslot => (Loan.leadsInto_held _ hslot).mono Set.subset_union_right) depth
    simp only [face, hitem, hlend, hy, hloan]
    exact congrArg some heq
  rcases h.rooted.leaves hx ha with hsame | ⟨i, down, key, v, a, he, hdown, hsame⟩
  · exact .inl (hkept fun b hb => hsame b (h.rooted.lt_of_reaches hy hb))
  · by_cases hreach : p.desk.store.Reaches y.options a
    · exact .inr ⟨i, down, key, v, a, he, hdown, hreach⟩
    · refine .inl (hkept fun b hb => hsame b (h.rooted.lt_of_reaches hy hb) ?_)
      rintro rfl
      exact hreach hb

theorem Sound.touches (h : p.Sound) (hs : p.Step e q)
    (hn : indexIn p.desk.items.length e.place = .ok n) {j : Nat} (hj : j < p.desk.items.length)
    (hjn : j ≠ n) (hchanged : q.face j ≠ p.face j) : p.Touches n j e := by
  cases hs with
  | failed => exact absurd rfl hchanged
  | done hn' hd =>
    obtain ⟨n', x, hn'', hx, ha⟩ := hd.alters
    obtain rfl := Except.ok.inj (hn.symm.trans hn'')
    obtain rfl := Except.ok.inj (hn.symm.trans hn')
    have hy := List.getElem?_eq_getElem hj
    rcases h.face_alter hx ha hy hjn _ with hsame | ⟨i, down, key, v, a, rfl, hdown, hya⟩
    · exact absurd hsame hchanged
    · have hxa := follow_reaches hdown (.here a)
      have hnx : x.options ≠ .place a := fun hplace =>
        hjn (h.rooted.eq_of_reaches hx hy hplace hya).symm
      have hny : p.desk.items[j].options ≠ .place a := fun hplace =>
        hjn (h.rooted.eq_of_reaches hy hx hplace hxa)
      have hnested : down ≠ [] := fun hnil => by
        subst hnil
        exact hnx (Except.ok.inj hdown)
      exact .assign hx hy hnested hdown hya ⟨hnx, hny⟩ (h.kin n j x _ a hx hy hxa hya)

theorem Sound.confined (h : p.Sound) (hs : p.Step e q)
    (hn : indexIn p.desk.items.length e.place = .ok n) : p.Confined n e q := by
  refine ⟨fun j hj hjn hchanged => h.touches hs hn hj hjn hchanged, fun k m hk j hj hside => ?_,
    fun k m hk hder => ?_⟩
  · by_contra hchanged
    have hjn : j ≠ n := fun he => hside (he ▸ Iff.rfl)
    cases h.touches hs hn hj hjn hchanged with
    | assign _ _ _ _ _ _ hkin => exact hside (hkin.derived_iff hk)
  · exact Nat.not_lt.2 (hder.le h.earlier) (h.earlier m k (.inl hk))

/-- A mapping with a tag, and with options that have one mapping under two keys. -/
def anchored : Store :=
  [.map [(.text "color", .scalar (.text "red"))],
   .map [(.text "button", .place 0), (.text "link", .place 0)],
   .list [.scalar (.text "news")],
   .map [(.text "tags", .place 2), (.text "options", .place 1)]]

/-- The item that is read from it. -/
def buttoned : Pedigree where
  desk := {
    store := anchored ++ [.map [(.text "button", .place 0), (.text "link", .place 0)]]
    items := [{ tags := .list [], options := .place 4 }] }
  loans := [{ tags := [.scalar (.text "news")] }]
  origins := [.given]

def reread : Pedigree := buttoned.edit (.reread (.int 0))

/-- The cells of a deep copy of the options, which has one mapping under two keys as well. -/
def copiedButton : Store :=
  [.map [(.text "color", .scalar (.text "red"))],
   .map [(.text "button", .place 6), (.text "link", .place 6)]]

def cloned : Pedigree where
  desk := {
    store := reread.desk.store ++ copiedButton
    items := reread.desk.items ++ [{ tags := .list [], options := .place 7 }] }
  loans := reread.lend (.clone (.int 0)) 0
  origins := reread.origins ++ [.cloned 0]

/-- A mapping with a list for a tag, which stands under an option as well. -/
def noted : Store :=
  [.list [.scalar (.text "a")], .list [.place 0], .map [(.text "note", .place 0)],
   .map [(.text "tags", .place 1), (.text "options", .place 2)]]

/-- The item that is read from it. -/
def tagged : Pedigree where
  desk := {
    store := noted ++ [.map [(.text "note", .place 0)]]
    items := [{ tags := .list [], options := .place 4 }] }
  loans := [{ tags := [.place 0] }]
  origins := [.given]

def rewritten : Edit := .option (.int 0) [.text "note", .int 0] (.text "b")

def taggedFace (tag : String) : Outcome Entries × Bool :=
  (.ok [(.text "tags", .list [.list [.text tag]]),
    (.text "options", .map [(.text "note", .list [.text "a"])])], false)

/-- What is lent has to be apart from the options. A tag that is no text but a list is the clone's
as well, and if it stands under an option too, what is assigned there shows in the clone. -/
theorem not_confined_tagged :
    ofMapping noted (.place 3) = .ok tagged ∧
    ((tagged.edit (.clone (.int 0))).edit rewritten).face 1 ≠
      (tagged.edit (.clone (.int 0))).face 1 := by
  refine ⟨by rfl, fun h => ?_⟩
  have hface := congrFun h 2
  have hb : ((tagged.edit (.clone (.int 0))).edit rewritten).face 1 2 = some (taggedFace "b") := by
    rfl
  have ha : (tagged.edit (.clone (.int 0))).face 1 2 = some (taggedFace "a") := by rfl
  rw [hb, ha] at hface
  simp [taggedFace] at hface

end Pedigree

end Syndicate
