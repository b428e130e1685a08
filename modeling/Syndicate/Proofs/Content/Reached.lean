import Syndicate.Proofs.Content.Shared

/-! What a slot leads to while its store changes. New cells and a value assigned in an old cell open
no way to an old cell that was not there before. -/

namespace Syndicate

open Store

namespace Store

variable {s s' t : Store} {p : Set Nat} {slot next v : Slot} {a b : Nat}

/-! ### Ways down -/

/-- Another cell leads to this one. -/
def Inner (s : Store) (a : Nat) : Prop := ∃ cell ∈ s, Slot.place a ∈ cell.slots

theorem Reaches.eq_or_inner (h : s.Reaches slot a) : slot = .place a ∨ s.Inner a := by
  induction h with
  | here a => exact .inl rfl
  | down hc hslot _ ih =>
    rcases ih with rfl | hinner
    · exact .inr ⟨_, List.mem_of_getElem? hc, hslot⟩
    · exact .inr hinner

theorem leadsInto_inner {cell : Cell} (hc : s[a]? = some cell) :
    cell.LeadsInto {b | s.Inner b} := by
  intro slot hslot
  cases slot with
  | scalar w => trivial
  | place b => exact ⟨cell, List.mem_of_getElem? hc, hslot⟩

theorem Inner.lt (h : s.Inner a) (hs : s.Closed (Set.Iio s.length)) : a < s.length := by
  obtain ⟨cell, hcell, hslot⟩ := h
  obtain ⟨b, hb⟩ := List.mem_iff_getElem?.1 hcell
  exact hs b (List.getElem?_eq_some_iff.1 hb).1 cell hb _ hslot

/-- All that a slot leads to. -/
def reached (s : Store) (slot : Slot) : Set Nat := {a | s.Reaches slot a}

theorem closed_reached (s : Store) (slot : Slot) : s.Closed (s.reached slot) := by
  intro a ha cell hc next hnext
  cases next with
  | scalar w => trivial
  | place b => exact Reaches.tail ha hc hnext

theorem leadsInto_reached (s : Store) (slot : Slot) : slot.LeadsInto (s.reached slot) := by
  cases slot with
  | scalar w => trivial
  | place a => exact .here a

/-- Through cells that are as they were there are no new ways. -/
theorem Reaches.of_leaves (h : s'.Reaches slot b) (hp : s.Closed p) (hs : ∀ a ∈ p, s'[a]? = s[a]?)
    (hslot : slot.LeadsInto p) : s.Reaches slot b := by
  induction h with
  | here a => exact .here a
  | down hc hmem _ ih =>
    rw [hs _ hslot] at hc
    exact .down hc hmem (ih (hp _ hslot _ hc _ hmem))

/-- After a change to one cell, a new way goes through that cell and into what was put there. -/
theorem Reaches.of_set {cell changed : Cell} (h : Reaches (s.set a changed) slot b)
    (hc : s[a]? = some cell) (hchanged : ∀ x ∈ changed.slots, x ∈ cell.slots ∨ x = v) :
    s.Reaches slot b ∨ s.Reaches slot a ∧ Reaches (s.set a changed) v b := by
  induction h with
  | here b => exact .inl (.here b)
  | @down c b found slot hfound hslot hreach ih =>
    by_cases hac : a = c
    · subst hac
      rw [List.getElem?_set_self (List.getElem?_eq_some_iff.1 hc).1] at hfound
      obtain rfl := Option.some.inj hfound
      rcases hchanged slot hslot with hold | rfl
      · exact ih.imp (.down hc hold) fun h => ⟨.here a, h.2⟩
      · exact .inr ⟨.here a, hreach⟩
    · rw [List.getElem?_set_ne hac] at hfound
      exact ih.imp (.down hfound hslot) fun h => ⟨.down hfound hslot h.1, h.2⟩

theorem Closed.follow_eq (hp : s.Closed p) (hs : ∀ a ∈ p, s'[a]? = s[a]?) (path : List Value)
    (h : slot.LeadsInto p) : s'.follow slot path = s.follow slot path := by
  induction path generalizing slot with
  | nil => rfl
  | cons key path ih =>
    have hsame : s'.descend slot key = s.descend slot key := by
      cases slot with
      | scalar w => cases w <;> rfl
      | place a => rw [descend, descend, hs a h]
    rw [follow, follow, hsame]
    cases hnext : s.descend slot key with
    | error f => rfl
    | ok next =>
      refine ih ?_
      cases next with
      | scalar w => trivial
      | place b => exact (descend_reaches hnext (.here b)).mem hp h

/-! ### New cells -/

/-- A value that is added leads to new cells only. -/
theorem le_of_add_reaches {w : Value} (h : (s.add w).2.Reaches (s.add w).1 b) : s.length ≤ b := by
  obtain ⟨t, ht, hfresh, hslot⟩ := add_fresh s w
  rw [ht] at h
  exact (h.mem hfresh.closed hslot).1

/-- A slot that leads to a new cell, if it leads anywhere, and is the only one to do so. -/
def Heads (s s' : Store) (slot : Slot) : Prop :=
  ∀ a, slot = .place a → s.length ≤ a ∧ a < s'.length ∧ ¬ s'.Inner a

/-- A store has grown into another one in which nothing dangles, and no old cell is led to that was
not before. -/
structure Extends (s s' : Store) : Prop where
  grows : s.length ≤ s'.length
  closed : s'.Closed (Set.Iio s'.length)
  inner : ∀ a < s.length, s'.Inner a → s.Inner a

theorem Extends.refl (hs : s.Closed (Set.Iio s.length)) : Extends s s :=
  ⟨Nat.le_refl _, hs, fun _ _ h => h⟩

theorem Fresh.extends (h : Fresh s t) (hs : s.Closed (Set.Iio s.length)) : Extends s (s ++ t) where
  grows := by simp
  closed := by
    have hown := (apart_empty.2 hs).Ico_subset_own t
    exact apart_empty.1 ((apart_empty.2 hs).keep fun cell hcell => (h cell hcell).mono hown)
  inner := by
    rintro a ha ⟨cell, hcell, hslot⟩
    rcases List.mem_append.1 hcell with hcell | hcell
    · exact ⟨cell, hcell, hslot⟩
    · exact absurd ha (Nat.not_lt.2 (h cell hcell _ hslot).1)

theorem Carries.heads (h : Carries s t slot) (hs : s.Closed (Set.Iio s.length)) :
    Heads s (s ++ t) slot := by
  rintro a rfl
  refine ⟨h.leads.1, h.leads.2, ?_⟩
  rintro ⟨cell, hcell, hslot⟩
  rcases List.mem_append.1 hcell with hcell | hcell
  · exact Nat.not_lt.2 h.leads.1 (Inner.lt ⟨cell, hcell, hslot⟩ hs)
  · exact h.head cell hcell a rfl hslot

/-- What carries a slot leads to new cells only. -/
theorem Carries.le_of_reaches (h : Carries s t slot) (hb : (s ++ t).Reaches slot b) :
    s.length ≤ b :=
  (hb.mem h.fresh.closed h.leads).1

theorem extends_add (hs : s.Closed (Set.Iio s.length)) (w : Value) : Extends s (s.add w).2 := by
  obtain ⟨t, ht, hcarries⟩ := add_carries s w
  exact ht ▸ hcarries.fresh.extends hs

theorem heads_add (hs : s.Closed (Set.Iio s.length)) (w : Value) :
    Heads s (s.add w).2 (s.add w).1 := by
  obtain ⟨t, ht, hcarries⟩ := add_carries s w
  exact ht ▸ hcarries.heads hs

/-- A cell may be added that leads where others lead. -/
theorem extends_addCell {cell : Cell} (hs : s.Closed (Set.Iio s.length))
    (hcell : cell.LeadsInto {a | s.Inner a}) :
    Extends s (s ++ [cell]) ∧ Heads s (s ++ [cell]) (.place s.length) := by
  have hinner : ∀ a, Inner (s ++ [cell]) a → s.Inner a := by
    rintro a ⟨c, hc, hslot⟩
    rcases List.mem_append.1 hc with hc | hc
    · exact ⟨c, hc, hslot⟩
    · obtain rfl := List.mem_singleton.1 hc
      exact hcell _ hslot
  have hbelow : cell.LeadsInto (Set.Iio s.length) := hcell.mono fun a ha => Inner.lt ha hs
  refine ⟨⟨by simp, hs.addCell hbelow, fun a _ h => hinner a h⟩, ?_⟩
  rintro a ha
  cases ha
  exact ⟨Nat.le_refl _, by simp, fun h => Nat.lt_irrefl _ ((hinner _ h).lt hs)⟩

/-! ### Values assigned in old cells -/

/-- A value assigned at the end of a path takes a place in the cell that the keys before the last lead
to. -/
inductive Assigned (s : Store) (slot : Slot) (w : Value) : List Value → Store → Prop
  | at {down : List Value} {key : Value} {a : Nat} {cell changed : Cell}
    (follows : s.follow slot down = .ok (.place a)) (found : s[a]? = some cell)
    (slots : ∀ x ∈ changed.slots, x ∈ cell.slots ∨ x = (s.add w).1) :
    Assigned s slot w (down ++ [key]) ((s.add w).2.set a changed)

theorem assigned_of_assignAt {path : List Value} {w : Value} (hs : s.Closed (Set.Iio s.length))
    (hslot : slot.LeadsInto (Set.Iio s.length))
    (h : (s.add w).2.assignAt slot path (s.add w).1 = .ok s') : Assigned s slot w path s' := by
  obtain ⟨down, key, a, cell, changed, rfl, hdown, hc, hassign, rfl⟩ := assignAt_follows h
  have hsame := sameBelow_add s w
  rw [hs.follow_eq hsame down hslot] at hdown
  rw [hsame a ((follow_reaches hdown (.here a)).mem hs hslot)] at hc
  exact .at hdown hc (mem_slots_assignIn hassign)

theorem Assigned.extends {path : List Value} {w : Value} (h : Assigned s slot w path s')
    (hs : s.Closed (Set.Iio s.length)) : Extends s s' := by
  obtain ⟨-, hc, hslots⟩ := h
  rename_i down key a cell changed
  obtain ⟨t, ht, hcarries⟩ := add_carries s w
  have ha : a < s.length := (List.getElem?_eq_some_iff.1 hc).1
  have hnew : changed.LeadsInto (Set.Iio (s.add w).2.length) := by
    intro x hx
    rcases hslots x hx with hold | rfl
    · exact (hs a ha cell hc x hold).mono (Set.Iio_subset_Iio (length_le_add s w))
    · exact (hs.add_rests w).leads
  have hown : own ∅ (s.add w).2 = Set.Iio (s.add w).2.length := Set.sdiff_empty
  refine ⟨by rw [List.length_set]; exact length_le_add s w, ?_, fun b hb hinner => ?_⟩
  · refine apart_empty.1 ((apart_empty.2 (hs.add w)).set ?_ (hown ▸ hnew))
    exact hown ▸ Nat.lt_of_lt_of_le ha (length_le_add s w)
  · obtain ⟨c, hmem, hbc⟩ := hinner
    rcases List.mem_or_eq_of_mem_set hmem with hold | rfl
    · exact (extends_add hs w).inner b hb ⟨c, hold, hbc⟩
    · rcases hslots _ hbc with hold | hplace
      · exact ⟨cell, List.mem_of_getElem? hc, hold⟩
      · have hleads := hcarries.leads
        rw [← hplace] at hleads
        exact absurd hb (Nat.not_lt.2 hleads.1)

/-- Where a value was assigned in an old cell, a way to an old cell is an old one. -/
theorem Reaches.of_assigned {cell changed : Cell} {w : Value} (hs : s.Closed (Set.Iio s.length))
    (hc : s[a]? = some cell) (hslots : ∀ x ∈ changed.slots, x ∈ cell.slots ∨ x = (s.add w).1)
    (hslot : slot.LeadsInto (Set.Iio s.length))
    (h : Reaches ((s.add w).2.set a changed) slot b) :
    s.Reaches slot b ∨ s.Reaches slot a ∧ s.length ≤ b := by
  obtain ⟨t, ht, hdown, hvalue⟩ := add_descends s w
  have ha : a < s.length := (List.getElem?_eq_some_iff.1 hc).1
  have hsame := sameBelow_add s w
  have hc' : (s.add w).2[a]? = some cell := (hsame a ha).trans hc
  have hold : ∀ {b}, (s.add w).2.Reaches slot b → s.Reaches slot b := fun h =>
    h.of_leaves hs hsame hslot
  refine (h.of_set hc' hslots).imp hold fun h => ⟨hold h.1, ?_⟩
  have hclosed : Closed ((s ++ t).set a changed) (Set.Ico s.length (s ++ t).length) := by
    intro c hcmem found hfound
    have hne : a ≠ c := fun he => Nat.not_lt.2 hcmem.1 (he ▸ ha)
    rw [List.getElem?_set_ne hne] at hfound
    exact hdown.fresh.closed c hcmem found hfound
  rw [ht] at h
  exact (h.2.mem hclosed hvalue).1

/-! ### Entries -/

theorem pairIn_eq (hs : ∀ a ∈ p, s'[a]? = s[a]?) (h : slot.LeadsInto p) :
    s'.pairIn slot = s.pairIn slot := by
  cases slot with
  | scalar w => rfl
  | place a => rw [pairIn, pairIn, hs a h]

theorem putPairs_eq {slots : List Slot} (hs : ∀ a ∈ p, s'[a]? = s[a]?)
    (h : ∀ slot ∈ slots, slot.LeadsInto p) (es : List (Value × Slot)) :
    s'.putPairs es slots = s.putPairs es slots := by
  induction slots generalizing es with
  | nil => rfl
  | cons slot slots ih =>
    obtain ⟨hslot, hslots⟩ := List.forall_mem_cons.1 h
    rw [putPairs, putPairs, pairIn_eq hs hslot]
    exact congrArg _ (funext fun kw => ih hslots _)

theorem Closed.entriesOf_eq (hp : s.Closed p) (hs : ∀ a ∈ p, s'[a]? = s[a]?)
    (h : slot.LeadsInto p) : s'.entriesOf slot = s.entriesOf slot := by
  cases slot with
  | scalar w => rfl
  | place a =>
    rw [entriesOf, entriesOf, hs a h]
    cases hc : s[a]? with
    | none => rfl
    | some cell =>
      cases cell with
      | list slots => exact putPairs_eq hs (hp a h _ hc) []
      | map entries => rfl

end Store

end Syndicate
