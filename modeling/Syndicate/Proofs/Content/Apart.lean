import Mathlib.Order.Interval.Set.Basic
import Syndicate.Proofs.Act
import Syndicate.Proofs.Content.Desk

/-! Two owners of cells in one store. Whatever a desk does to the items on it, the cells of somebody
else stay as they are, and what is put into new cells can be given to either of the two. -/

namespace Syndicate

/-- A slot leads to one of some addresses, if it leads anywhere. -/
def Slot.LeadsInto (p : Set Nat) : Slot → Prop
  | .scalar _ => True
  | .place a => a ∈ p

theorem Slot.LeadsInto.mono {p q : Set Nat} {slot : Slot} (h : slot.LeadsInto p) (hpq : p ⊆ q) :
    slot.LeadsInto q := by
  cases slot with
  | scalar v => trivial
  | place a => exact hpq h

def Cell.slots : Cell → List Slot
  | .list slots => slots
  | .map entries => entries.map (·.2)

/-- All the slots of a cell lead to some addresses. -/
def Cell.LeadsInto (p : Set Nat) (cell : Cell) : Prop := ∀ slot ∈ cell.slots, slot.LeadsInto p

theorem Cell.LeadsInto.mono {p q : Set Nat} {cell : Cell} (h : cell.LeadsInto p) (hpq : p ⊆ q) :
    cell.LeadsInto q :=
  fun slot hslot => (h slot hslot).mono hpq

namespace Store

variable {s s' t : Store} {p given : Set Nat} {slot : Slot} {a : Nat}

/-- Cells at some addresses lead to one another only. -/
def Closed (s : Store) (p : Set Nat) : Prop :=
  ∀ a ∈ p, ∀ cell, s[a]? = some cell → cell.LeadsInto p

/-- What is read from cells that lead to one another does not depend on other cells. -/
theorem Closed.readTo_eq (hp : s.Closed p) (hs : ∀ a ∈ p, s'[a]? = s[a]?) (n : Nat)
    (h : slot.LeadsInto p) : readTo s' n slot = readTo s n slot := by
  induction n generalizing slot with
  | zero => cases slot <;> rfl
  | succ n ih =>
    cases slot with
    | scalar v => rfl
    | place a =>
      have hcell := hp a h
      rw [readTo, readTo, hs a h]
      cases hc : s[a]? with
      | none => rfl
      | some cell =>
        cases cell with
        | list slots =>
          exact congrArg Value.list (List.map_congr_left fun x hx => ih (hcell _ hc x hx))
        | map entries =>
          refine congrArg Value.map (List.map_congr_left fun e he => ?_)
          rw [ih (hcell _ hc e.2 (List.mem_map_of_mem he))]

/-! ### New cells -/

/-- New cells lead to new cells only. -/
def Fresh (s t : Store) : Prop :=
  ∀ cell ∈ t, cell.LeadsInto (Set.Ico s.length (s ++ t).length)

/-- New cells lead to new cells before them only. -/
def Descends (s t : Store) : Prop :=
  ∀ (i : Nat) (cell : Cell), t[i]? = some cell →
    cell.LeadsInto (Set.Ico s.length (s.length + i))

theorem Descends.fresh (h : Descends s t) : Fresh s t := by
  intro cell hcell
  obtain ⟨i, hi, rfl⟩ := List.mem_iff_getElem.1 hcell
  refine (h i t[i] (List.getElem?_eq_getElem hi)).mono (Set.Ico_subset_Ico_right ?_)
  rw [List.length_append]
  omega

theorem Descends.append {u : Store} (ht : Descends s t) (hu : Descends (s ++ t) u) :
    Descends s (t ++ u) := by
  intro i cell hcell
  by_cases hi : i < t.length
  · rw [List.getElem?_append_left hi] at hcell
    exact ht i cell hcell
  · rw [List.getElem?_append_right (Nat.le_of_not_lt hi)] at hcell
    refine (hu _ cell hcell).mono (Set.Ico_subset_Ico (by simp) ?_)
    rw [List.length_append]
    omega

theorem Descends.concat {cell : Cell} (h : Descends s t)
    (hcell : cell.LeadsInto (Set.Ico s.length (s ++ t).length)) : Descends s (t ++ [cell]) := by
  intro i c hc
  by_cases hi : i < t.length
  · rw [List.getElem?_append_left hi] at hc
    exact h i c hc
  · rw [List.getElem?_append_right (Nat.le_of_not_lt hi)] at hc
    obtain rfl := List.mem_singleton.1 (List.mem_of_getElem? hc)
    refine hcell.mono (Set.Ico_subset_Ico_right ?_)
    rw [List.length_append]
    omega

theorem mem_concat_Ico (s t : Store) (cell : Cell) :
    (s ++ t).length ∈ Set.Ico s.length (s ++ (t ++ [cell])).length := by
  simp

mutual

/-- A value is put into cells one after the other, each after those that it leads to. -/
theorem add_descends (s : Store) : (v : Value) → ∃ t, (s.add v).2 = s ++ t ∧ Descends s t ∧
    (s.add v).1.LeadsInto (Set.Ico s.length (s ++ t).length)
  | .list xs => by
    obtain ⟨t, ht, hdown, hslots⟩ := addItems_descends s xs
    rw [add_list, ht]
    exact ⟨_, List.append_assoc .., hdown.concat hslots, mem_concat_Ico s t _⟩
  | .map es => by
    obtain ⟨t, ht, hdown, hslots⟩ := addEntries_descends s es
    rw [add_map, ht]
    refine ⟨_, List.append_assoc .., hdown.concat fun slot hslot => ?_, mem_concat_Ico s t _⟩
    obtain ⟨e, he, rfl⟩ := List.mem_map.1 hslot
    exact hslots e he
  | .null | .bool _ | .int _ | .float _ | .text _ | .date _ | .timestamp _ =>
    ⟨[], by simp [add], nofun, by simp [add, Slot.LeadsInto]⟩

theorem addItems_descends (s : Store) : (xs : List Value) → ∃ t, (s.addItems xs).2 = s ++ t ∧
    Descends s t ∧ ∀ slot ∈ (s.addItems xs).1, slot.LeadsInto (Set.Ico s.length (s ++ t).length)
  | [] => ⟨[], by simp [addItems], nofun, by simp [addItems]⟩
  | x :: xs => by
    obtain ⟨t, ht, hdown, hslot⟩ := add_descends s x
    obtain ⟨u, hu, hdown', hslots⟩ := addItems_descends (s.add x).2 xs
    rw [addItems_cons, hu, ht] at *
    refine ⟨t ++ u, List.append_assoc .., hdown.append hdown', fun slot h => ?_⟩
    rcases List.mem_cons.1 h with rfl | h
    · exact hslot.mono (Set.Ico_subset_Ico_right (by simp))
    · exact (hslots slot h).mono (Set.Ico_subset_Ico (by simp) (by simp))

theorem addEntries_descends (s : Store) : (es : Entries) → ∃ t, (s.addEntries es).2 = s ++ t ∧
    Descends s t ∧ ∀ e ∈ (s.addEntries es).1, e.2.LeadsInto (Set.Ico s.length (s ++ t).length)
  | [] => ⟨[], by simp [addEntries], nofun, by simp [addEntries]⟩
  | (k, v) :: es => by
    obtain ⟨t, ht, hdown, hslot⟩ := add_descends s v
    obtain ⟨u, hu, hdown', hslots⟩ := addEntries_descends (s.add v).2 es
    rw [addEntries_cons, hu, ht] at *
    refine ⟨t ++ u, List.append_assoc .., hdown.append hdown', fun e h => ?_⟩
    rcases List.mem_cons.1 h with rfl | h
    · exact hslot.mono (Set.Ico_subset_Ico_right (by simp))
    · exact (hslots e h).mono (Set.Ico_subset_Ico (by simp) (by simp))

end

/-- The cells of a value that is added lead to one another only. -/
theorem add_fresh (s : Store) (v : Value) : ∃ t, (s.add v).2 = s ++ t ∧ Fresh s t ∧
    (s.add v).1.LeadsInto (Set.Ico s.length (s ++ t).length) := by
  obtain ⟨t, ht, hdown, hslot⟩ := add_descends s v
  exact ⟨t, ht, hdown.fresh, hslot⟩

/-- A value that takes cells has the last of them for itself. -/
theorem add_place {w : Value} (h : (s.add w).1 = .place a) : a + 1 = (s.add w).2.length := by
  cases w with
  | list xs =>
    rw [add_list] at h ⊢
    cases h
    simp
  | map es =>
    rw [add_map] at h ⊢
    cases h
    simp
  | _ => simp [add] at h

/-- New cells carry what is in a slot: they lead to one another only, and none of them leads to that
of the slot. -/
structure Carries (s t : Store) (slot : Slot) : Prop where
  fresh : Fresh s t
  leads : slot.LeadsInto (Set.Ico s.length (s ++ t).length)
  head : ∀ cell ∈ t, ∀ a, slot = .place a → .place a ∉ cell.slots

theorem add_carries (s : Store) (v : Value) :
    ∃ t, (s.add v).2 = s ++ t ∧ Carries s t (s.add v).1 := by
  obtain ⟨t, ht, hdown, hslot⟩ := add_descends s v
  refine ⟨t, ht, hdown.fresh, hslot, fun cell hcell a ha hmem => ?_⟩
  have hlast := add_place ha
  obtain ⟨i, hi⟩ := List.mem_iff_getElem?.1 hcell
  have hlt : a ∈ Set.Ico s.length (s.length + i) := hdown i cell hi _ hmem
  have hlength := (List.getElem?_eq_some_iff.1 hi).1
  rw [ht, List.length_append] at hlast
  exact absurd hlt.2 (by omega)

/-! ### Two owners -/

/-- The addresses of the cells that are not given away. -/
def own (given : Set Nat) (s : Store) : Set Nat := Set.Iio s.length \ given

/-- The cells that are given away and the others do not lead to one another. -/
structure Apart (given : Set Nat) (s : Store) : Prop where
  bound : given ⊆ Set.Iio s.length
  closed : s.Closed given
  rest : s.Closed (own given s)

theorem own_append (given : Set Nat) (s t : Store) : own given s ⊆ own given (s ++ t) :=
  fun _ ha => ⟨Nat.lt_of_lt_of_le ha.1 (by simp), ha.2⟩

theorem Closed.append (h : s.Closed p) (hp : p ⊆ Set.Iio s.length) (t : Store) :
    (s ++ t).Closed p := fun a ha cell hcell =>
  h a ha cell (by rwa [List.getElem?_append_left (hp ha)] at hcell)

theorem Closed.union {q : Set Nat} (hp : s.Closed p) (hq : s.Closed q) : s.Closed (p ∪ q) := by
  rintro a (ha | ha) cell hcell
  · exact (hp a ha cell hcell).mono Set.subset_union_left
  · exact (hq a ha cell hcell).mono Set.subset_union_right

theorem Fresh.closed (h : Fresh s t) : (s ++ t).Closed (Set.Ico s.length (s ++ t).length) := by
  intro a ha cell hcell
  rw [List.getElem?_append_right ha.1] at hcell
  exact h cell (List.mem_of_getElem? hcell)

/-- New cells are one's own, and lead to others of one's own. -/
theorem Apart.keep (h : Apart given s) (ht : ∀ cell ∈ t, cell.LeadsInto (own given (s ++ t))) :
    Apart given (s ++ t) where
  bound := h.bound.trans fun _ ha => Nat.lt_of_lt_of_le ha (by simp)
  closed := h.closed.append h.bound t
  rest := by
    intro a ha cell hcell
    by_cases hlt : a < s.length
    · rw [List.getElem?_append_left hlt] at hcell
      exact (h.rest a ⟨hlt, ha.2⟩ cell hcell).mono (own_append given s t)
    · rw [List.getElem?_append_right (Nat.le_of_not_lt hlt)] at hcell
      exact ht cell (List.mem_of_getElem? hcell)

theorem Apart.Ico_subset_own (h : Apart given s) (t : Store) :
    Set.Ico s.length (s ++ t).length ⊆ own given (s ++ t) :=
  fun _ ha => ⟨ha.2, fun hgiven => Nat.not_lt.2 ha.1 (h.bound hgiven)⟩

theorem own_give (given : Set Nat) (s t : Store) :
    own (given ∪ Set.Ico s.length (s ++ t).length) (s ++ t) = own given s := by
  ext a
  simp only [own, Set.mem_sdiff, Set.mem_Iio, Set.mem_union, Set.mem_Ico, List.length_append]
  constructor
  · rintro ⟨hlt, hnot⟩
    exact ⟨by_contra fun h => hnot (.inr ⟨by omega, hlt⟩), fun h => hnot (.inl h)⟩
  · rintro ⟨hlt, hnot⟩
    exact ⟨by omega, fun h => h.elim hnot fun h => by omega⟩

/-- New cells may be given away. -/
theorem Apart.give (h : Apart given s) (ht : Fresh s t) :
    Apart (given ∪ Set.Ico s.length (s ++ t).length) (s ++ t) where
  bound := by
    rintro a (ha | ha)
    · exact Nat.lt_of_lt_of_le (h.bound ha) (by simp)
    · exact ha.2
  closed := (h.closed.append h.bound t).union ht.closed
  rest := by
    rw [own_give]
    exact h.rest.append Set.sdiff_subset t

/-- A cell of one's own may be changed to lead to others of one's own. -/
theorem Apart.set {cell : Cell} (h : Apart given s) (ha : a ∈ own given s)
    (hcell : cell.LeadsInto (own given s)) : Apart given (s.set a cell) := by
  have hown : own given (s.set a cell) = own given s := by
    rw [own, own, List.length_set]
  refine ⟨by rw [List.length_set]; exact h.bound, fun b hb c hc => ?_, ?_⟩
  · have hne : a ≠ b := fun he => ha.2 (he ▸ hb)
    rw [List.getElem?_set_ne hne] at hc
    exact h.closed b hb c hc
  · rw [hown]
    intro b hb c hc
    by_cases he : a = b
    · subst he
      rw [List.getElem?_set_self ha.1] at hc
      exact Option.some.inj hc ▸ hcell
    · rw [List.getElem?_set_ne he] at hc
      exact h.rest b hb c hc

/-! ### Reaching what is one's own -/

/-- A cell that a slot leads to, at once or through other cells. -/
inductive Reaches (s : Store) : Slot → Nat → Prop
  | here (a : Nat) : Reaches s (.place a) a
  | down {a b : Nat} {cell : Cell} {slot : Slot} (hc : s[a]? = some cell)
    (hslot : slot ∈ cell.slots) (h : Reaches s slot b) : Reaches s (.place a) b

theorem Reaches.mem (h : s.Reaches slot a) (hp : s.Closed p) (hslot : slot.LeadsInto p) :
    a ∈ p := by
  induction h with
  | here a => exact hslot
  | down hc hmem _ ih => exact ih (hp _ hslot _ hc _ hmem)

theorem Reaches.tail {b : Nat} {cell : Cell} (h : s.Reaches slot a) (hc : s[a]? = some cell)
    (hb : .place b ∈ cell.slots) : s.Reaches slot b := by
  induction h with
  | here a => exact .down hc hb (.here b)
  | down hc' hmem _ ih => exact .down hc' hmem (ih hc)

theorem descend_reaches {key : Value} {next : Slot} (h : s.descend slot key = .ok next)
    (hnext : s.Reaches next a) : s.Reaches slot a := by
  unfold descend at h
  split at h
  · obtain ⟨i, -, h⟩ := ok_of_bind h
    cases h
    cases hnext
  · cases h
  · rename_i b
    split at h
    · rename_i slots hc
      obtain ⟨i, -, h⟩ := ok_of_bind h
      cases h
      cases hslot : slots[i]? with
      | none => rwa [hslot] at hnext
      | some x =>
        rw [hslot] at hnext
        exact .down hc (List.mem_of_getElem? hslot) hnext
    · rename_i entries hc
      unfold boundTo at h
      split at h
      · cases h
      · split at h
        · rename_i e he
          cases h
          exact .down hc (List.mem_map_of_mem (List.mem_of_find?_eq_some he)) hnext
        · cases h
    · cases h

theorem pairIn_leadsInto {e : Value × Slot} (hp : s.Closed p) (h : slot.LeadsInto p)
    (hd : s.pairIn slot = .ok e) : e.2.LeadsInto p := by
  unfold pairIn at hd
  split at hd
  · obtain ⟨kw, -, hd⟩ := ok_of_bind hd
    cases hd
    trivial
  · rename_i a
    split at hd
    · rename_i k w hc
      cases hd
      exact hp a h _ hc w (by simp [Cell.slots])
    · cases hd
    · cases hd
      trivial
    · cases hd

theorem putPairs_leadsInto {slots : List Slot} {es fs : List (Value × Slot)} (hp : s.Closed p)
    (hs : ∀ slot ∈ slots, slot.LeadsInto p) (hes : ∀ e ∈ es, e.2.LeadsInto p)
    (hd : s.putPairs es slots = .ok fs) : ∀ e ∈ fs, e.2.LeadsInto p := by
  induction slots generalizing es with
  | nil =>
    cases hd
    exact hes
  | cons slot slots ih =>
    obtain ⟨kw, hpair, hd⟩ := ok_of_bind hd
    refine ih (fun x hx => hs x (List.mem_cons_of_mem _ hx)) (fun e he => ?_) hd
    rcases value_of_mem_put he with he | ⟨e', he', he⟩
    · exact he ▸ pairIn_leadsInto hp (hs slot List.mem_cons_self) hpair
    · exact he ▸ hes e' he'

/-- The entries of a mapping or of a row of pairs lead where its cell leads. -/
theorem entriesOf_below {es : List (Value × Slot)} (hp : s.Closed p)
    (h : ∀ a cell, slot = .place a → s[a]? = some cell → cell.LeadsInto p)
    (hd : s.entriesOf slot = .ok es) : ∀ e ∈ es, e.2.LeadsInto p := by
  unfold entriesOf at hd
  split at hd
  · obtain ⟨fs, -, hd⟩ := ok_of_bind hd
    cases hd
    intro e he
    obtain ⟨e, -, rfl⟩ := List.mem_map.1 he
    trivial
  · rename_i a
    split at hd
    · rename_i entries hc
      cases hd
      exact fun e he => h a _ rfl hc e.2 (List.mem_map_of_mem he)
    · rename_i slots hc
      exact putPairs_leadsInto hp (h a _ rfl hc) (by simp) hd
    · cases hd

theorem entriesOf_leadsInto {es : List (Value × Slot)} (hp : s.Closed p) (h : slot.LeadsInto p)
    (hd : s.entriesOf slot = .ok es) : ∀ e ∈ es, e.2.LeadsInto p :=
  entriesOf_below hp (fun a cell hslot hc => hp a (by rwa [hslot] at h) cell hc) hd

/-! ### Changes to what is one's own -/

theorem mem_slots_assignIn {cell cell' : Cell} {key : Value} {v : Slot}
    (h : assignIn cell key v = .ok cell') : ∀ slot ∈ cell'.slots, slot ∈ cell.slots ∨ slot = v := by
  cases cell with
  | list slots =>
    obtain ⟨i, -, h⟩ := ok_of_bind h
    cases h
    exact fun slot hslot => List.mem_or_eq_of_mem_set hslot
  | map entries =>
    unfold assignIn at h
    dsimp only at h
    split at h
    · cases h
      intro slot hslot
      obtain ⟨e, he, rfl⟩ := List.mem_map.1 hslot
      rcases value_of_mem_put he with he | ⟨e', he', he⟩
      · exact .inr he
      · exact .inl (he ▸ List.mem_map_of_mem he')
    · cases h

/-- Goes down from a slot by one key after the other. -/
def follow (s : Store) (slot : Slot) : List Value → Outcome Slot
  | [] => .ok slot
  | key :: path => do s.follow (← s.descend slot key) path

theorem follow_reaches {path : List Value} {next : Slot} (h : s.follow slot path = .ok next)
    (hnext : s.Reaches next a) : s.Reaches slot a := by
  induction path generalizing slot with
  | nil =>
    cases h
    exact hnext
  | cons key path ih =>
    obtain ⟨below, hbelow, h⟩ := ok_of_bind h
    exact descend_reaches hbelow (ih h)

/-- Assigning at the end of a path changes the cell to which the keys before the last lead. -/
theorem assignAt_follows {path : List Value} {v : Slot} (h : s.assignAt slot path v = .ok s') :
    ∃ down key a cell changed, path = down ++ [key] ∧ s.follow slot down = .ok (.place a) ∧
      s[a]? = some cell ∧ assignIn cell key v = .ok changed ∧ s' = s.set a changed := by
  fun_induction Store.assignAt s slot path v with
  | case1 => cases h
  | case2 slot key v =>
    unfold Store.assign at h
    split at h
    · cases h
    · rename_i a
      split at h
      · rename_i cell hc
        obtain ⟨changed, hassign, h⟩ := ok_of_bind h
        cases h
        exact ⟨[], key, a, cell, changed, rfl, rfl, hc, hassign, rfl⟩
      · cases h
  | case3 slot key path v _ ih =>
    obtain ⟨next, hnext, h⟩ := ok_of_bind h
    obtain ⟨down, last, a, cell, changed, rfl, hdown, hchanged⟩ := ih next h
    refine ⟨key :: down, last, a, cell, changed, rfl, ?_, hchanged⟩
    rw [follow, hnext]
    exact hdown

/-- Assigning at the end of a path changes one cell, to which the path leads. -/
theorem assignAt_reaches {path : List Value} {v : Slot} (h : s.assignAt slot path v = .ok s') :
    ∃ a cell changed, s.Reaches slot a ∧ s[a]? = some cell ∧
      (∀ x ∈ changed.slots, x ∈ cell.slots ∨ x = v) ∧ s' = s.set a changed := by
  obtain ⟨down, key, a, cell, changed, -, hdown, hc, hassign, rfl⟩ := assignAt_follows h
  exact ⟨a, cell, changed, follow_reaches hdown (.here a), hc, mem_slots_assignIn hassign, rfl⟩

theorem put_leadsInto {entries : List (Value × Slot)} {v : Slot}
    (h : Cell.LeadsInto p (.map entries)) (hv : v.LeadsInto p) (key : Value) :
    Cell.LeadsInto p (.map (Entries.put entries key v)) := by
  intro x hx
  obtain ⟨e, he, rfl⟩ := List.mem_map.1 hx
  rcases value_of_mem_put he with he | ⟨e', he', he⟩
  · exact he ▸ hv
  · exact he ▸ h e'.2 (List.mem_map_of_mem he')

/-- A key may be bound in one of some new cells to what leads to new cells as well. -/
theorem Fresh.bind (h : Fresh s t) (ha : s.length ≤ a) (key : Value) {v : Slot}
    (hv : v.LeadsInto (Set.Ico s.length (s ++ t).length)) :
    ∃ u, (s ++ t).bind (.place a) key v = s ++ u ∧ Fresh s u := by
  rw [Store.bind, List.modify_eq_set_getElem?]
  cases hc : (s ++ t)[a]? with
  | none => exact ⟨t, rfl, h⟩
  | some cell =>
    rw [List.getElem?_append_right ha] at hc
    refine ⟨t.set (a - s.length) _, List.set_append_right a _ ha, fun c hcell => ?_⟩
    rw [List.length_append, List.length_set, ← List.length_append]
    rcases List.mem_or_eq_of_mem_set hcell with hcell | rfl
    · exact h c hcell
    · have hold := h cell (List.mem_of_getElem? hc)
      cases cell with
      | list slots => exact hold
      | map entries => exact put_leadsInto hold hv key

/-- Whatever is done to cells of one's own, the others stay as they are. -/
structure Tends (given : Set Nat) (s s' : Store) : Prop where
  apart : Apart given s'
  grows : s.length ≤ s'.length
  leaves : ∀ a ∈ given, s'[a]? = s[a]?

theorem Tends.own (h : Tends given s s') : own given s ⊆ own given s' :=
  fun _ ha => ⟨Nat.lt_of_lt_of_le ha.1 h.grows, ha.2⟩

theorem Tends.refl (h : Apart given s) : Tends given s s := ⟨h, Nat.le_refl _, fun _ _ => rfl⟩

theorem Tends.trans (h : Tends given s s') (h' : Tends given s' t) : Tends given s t :=
  ⟨h'.apart, Nat.le_trans h.grows h'.grows, fun a ha => (h'.leaves a ha).trans (h.leaves a ha)⟩

/-- A store has grown into another one, and cells at some addresses are as they were. -/
structure Spares (p : Set Nat) (s s' : Store) : Prop where
  grows : s.length ≤ s'.length
  leaves : ∀ a ∈ p, s'[a]? = s[a]?

theorem Spares.refl (p : Set Nat) (s : Store) : Spares p s s := ⟨Nat.le_refl _, fun _ _ => rfl⟩

theorem Spares.mono {q : Set Nat} (h : Spares q s s') (hpq : p ⊆ q) : Spares p s s' :=
  ⟨h.grows, fun a ha => h.leaves a (hpq ha)⟩

theorem Spares.trans (h : Spares p s s') (h' : Spares p s' t) : Spares p s t :=
  ⟨Nat.le_trans h.grows h'.grows, fun a ha => (h'.leaves a ha).trans (h.leaves a ha)⟩

theorem spares_append (s t : Store) : Spares (Set.Iio s.length) s (s ++ t) :=
  ⟨by simp, sameBelow_append s t⟩

theorem Tends.spares (h : Tends given s s') : Spares given s s' := ⟨h.grows, h.leaves⟩

theorem Apart.tends_append (h : Apart given s)
    (ht : ∀ cell ∈ t, cell.LeadsInto (own given (s ++ t))) : Tends given s (s ++ t) :=
  ⟨h.keep ht, by simp, fun _ ha => List.getElem?_append_left (h.bound ha)⟩

theorem Apart.add (h : Apart given s) (v : Value) :
    Tends given s (s.add v).2 ∧ (s.add v).1.LeadsInto (own given (s.add v).2) := by
  obtain ⟨t, ht, hfresh, hslot⟩ := add_fresh s v
  rw [ht]
  have hown := h.Ico_subset_own t
  exact ⟨h.tends_append fun cell hcell => (hfresh cell hcell).mono hown, hslot.mono hown⟩

theorem Apart.addCell {cell : Cell} (h : Apart given s) (hcell : cell.LeadsInto (own given s)) :
    Tends given s (s.addCell cell).2 ∧ (s.addCell cell).1.LeadsInto (own given (s.addCell cell).2) := by
  refine ⟨h.tends_append fun c hc => ?_, h.Ico_subset_own [cell] (by simp)⟩
  obtain rfl := List.mem_singleton.1 hc
  exact hcell.mono (own_append given s [c])

theorem Apart.tends_set {cell : Cell} (h : Apart given s) (ha : a ∈ own given s)
    (hcell : cell.LeadsInto (own given s)) : Tends given s (s.set a cell) := by
  refine ⟨h.set ha hcell, by simp, fun b hb => ?_⟩
  have hne : a ≠ b := fun he => ha.2 (he ▸ hb)
  exact List.getElem?_set_ne hne

theorem Apart.assignAt {path : List Value} {v : Slot} (h : Apart given s)
    (hslot : slot.LeadsInto (own given s)) (hv : v.LeadsInto (own given s))
    (hd : s.assignAt slot path v = .ok s') : Tends given s s' := by
  obtain ⟨a, cell, changed, hreach, hc, hslots, rfl⟩ := assignAt_reaches hd
  have hmem := hreach.mem h.rest hslot
  refine h.tends_set hmem fun x hx => ?_
  rcases hslots x hx with hold | rfl
  · exact h.rest a hmem cell hc x hold
  · exact hv

end Store

open Store

/-- Setting a field leaves the options as they are, or puts a value into new cells for them. -/
theorem DeskItem.set_cases {s s' : Store} {item changed : DeskItem} {name : String} {v : Value}
    (h : item.set s name v = .ok (changed, s')) :
    changed.options = item.options ∧ s' = s ∨
      changed.options = (s.add v).1 ∧ s' = (s.add v).2 := by
  unfold DeskItem.set at h
  split at h
  · cases h
    exact .inl ⟨rfl, rfl⟩
  · cases h
    exact .inr ⟨rfl, rfl⟩
  · cases h
  · cases h
    exact .inl ⟨rfl, rfl⟩

namespace Desk

variable {d d' : Desk} {given : Set Nat}

/-- A desk has items in cells of its own only. -/
structure Owns (d : Desk) (given : Set Nat) : Prop where
  apart : Apart given d.store
  items : ∀ item ∈ d.items, item.options.LeadsInto (own given d.store)

theorem item_cases {i : Value} {n : Nat} {item : DeskItem} (h : d.item i = .ok (n, item)) :
    indexIn d.items.length i = .ok n ∧ d.items[n]? = some item := by
  obtain ⟨k, hk, h⟩ := ok_of_bind h
  split at h
  · rename_i found hfound
    cases h
    exact ⟨hk, hfound⟩
  · cases h

/-- The place that an edit is at. -/
def Edit.place : Edit → Value
  | .clone i | .reread i | .tag i _ | .set i _ _ | .option i _ _ => i

/-- What an edit makes of a desk, by what it does to the item at its place. -/
inductive Alters (d : Desk) (n : Nat) (x : DeskItem) : Edit → Desk → Prop
  | clone (i tags : Value) (t : Store) (slot : Slot) (h : Carries d.store t slot) :
    Alters d n x (.clone i)
      ⟨d.store ++ t, d.items ++ [{ x with tags := tags, options := slot }]⟩
  | reread (i tags : Value) (es : List (Value × Slot)) (h : d.store.entriesOf x.options = .ok es) :
    Alters d n x (.reread i) ⟨d.store ++ [.map (Content.keepOptions es)],
      d.items ++ [{ x with tags := tags, options := .place d.store.length }]⟩
  | tag (i t : Value) (y : DeskItem) (h : y.options = x.options) :
    Alters d n x (.tag i t) ⟨d.store, d.items.set n y⟩
  | set (i : Value) (field : String) (v : Value) (y : DeskItem) (h : y.options = x.options) :
    Alters d n x (.set i field v) ⟨d.store, d.items.set n y⟩
  | options (i : Value) (field : String) (v : Value) (y : DeskItem)
    (h : y.options = (d.store.add v).1) :
    Alters d n x (.set i field v) ⟨(d.store.add v).2, d.items.set n y⟩
  | assign (i : Value) (path : List Value) (v : Value) (s : Store)
    (h : (d.store.add v).2.assignAt x.options path (d.store.add v).1 = .ok s) :
    Alters d n x (.option i path v) ⟨s, d.items⟩

theorem alters_of_apply {e : Edit} (h : d.apply e = .ok d') :
    ∃ n x, indexIn d.items.length e.place = .ok n ∧ d.items[n]? = some x ∧ Alters d n x e d' := by
  cases e with
  | clone i =>
    obtain ⟨⟨n, x⟩, hitem, h⟩ := ok_of_bind h
    obtain ⟨made, hmade, h⟩ := ok_of_bind h
    obtain ⟨tags, -, hmade⟩ := ok_of_bind hmade
    cases h
    cases hmade
    obtain ⟨t, ht, hcarries⟩ := add_carries d.store (d.store.read x.options)
    refine ⟨n, x, (item_cases hitem).1, (item_cases hitem).2, ?_⟩
    show Alters d n x (.clone i) ⟨(d.store.add (d.store.read x.options)).2, _⟩
    rw [ht]
    exact .clone i _ t _ hcarries
  | reread i =>
    obtain ⟨⟨n, x⟩, hitem, h⟩ := ok_of_bind h
    obtain ⟨made, hmade, h⟩ := ok_of_bind h
    obtain ⟨tags, -, hmade⟩ := ok_of_bind hmade
    obtain ⟨es, hes, hmade⟩ := ok_of_bind hmade
    cases h
    cases hmade
    exact ⟨n, x, (item_cases hitem).1, (item_cases hitem).2, .reread i _ es hes⟩
  | tag i t =>
    obtain ⟨⟨n, x⟩, hitem, h⟩ := ok_of_bind h
    obtain ⟨y, hy, h⟩ := ok_of_bind h
    cases h
    have hoptions : y.options = x.options := by
      unfold DeskItem.addTag at hy
      split at hy <;> cases hy
      rfl
    exact ⟨n, x, (item_cases hitem).1, (item_cases hitem).2, .tag i t y hoptions⟩
  | set i field v =>
    obtain ⟨⟨n, x⟩, hitem, h⟩ := ok_of_bind h
    obtain ⟨⟨y, s⟩, hy, h⟩ := ok_of_bind h
    cases h
    refine ⟨n, x, (item_cases hitem).1, (item_cases hitem).2, ?_⟩
    obtain ⟨hoptions, rfl⟩ | ⟨hoptions, rfl⟩ := DeskItem.set_cases hy
    · exact .set i field v y hoptions
    · exact .options i field v y hoptions
  | option i path v =>
    obtain ⟨⟨n, x⟩, hitem, h⟩ := ok_of_bind h
    obtain ⟨s, hs, h⟩ := ok_of_bind h
    cases h
    exact ⟨n, x, (item_cases hitem).1, (item_cases hitem).2, .assign i path v s hs⟩

/-- A desk on which something is done to its cells, and to one item or none. -/
theorem Owns.of_tends {s : Store} {items : List DeskItem} (h : d.Owns given)
    (hs : Tends given d.store s)
    (hitems : ∀ item ∈ items, item ∈ d.items ∨ item.options.LeadsInto (own given s)) :
    Owns ⟨s, items⟩ given ∧ Tends given d.store s := by
  refine ⟨⟨hs.apart, fun item hitem => ?_⟩, hs⟩
  exact (hitems item hitem).elim (fun hold => (h.items item hold).mono hs.own) id

theorem Owns.push (h : d.Owns given) (made : DeskItem × Store)
    (hs : Tends given d.store made.2) (hmade : made.1.options.LeadsInto (own given made.2)) :
    (d.push made).Owns given ∧ Tends given d.store (d.push made).store := by
  refine h.of_tends hs fun item hitem => ?_
  rcases List.mem_append.1 hitem with hitem | hitem
  · exact .inl hitem
  · exact .inr (List.mem_singleton.1 hitem ▸ hmade)

theorem keepOptions_leadsInto {es : List (Value × Slot)} {p : Set Nat}
    (h : ∀ e ∈ es, e.2.LeadsInto p) : ∀ e ∈ Content.keepOptions es, e.2.LeadsInto p := by
  have hfold : ∀ kept : List (Value × Slot), (∀ e ∈ kept, e.2.LeadsInto p) →
      ∀ e ∈ es.foldl (fun kept e => Entries.put kept (Content.optionKey e.1) e.2) kept,
        e.2.LeadsInto p := by
    induction es with
    | nil => exact fun kept hkept => hkept
    | cons e es ih =>
      refine fun kept hkept => ih (fun x hx => h x (List.mem_cons_of_mem _ hx)) _ fun x hx => ?_
      rcases value_of_mem_put hx with hx | ⟨y, hy, hx⟩
      · exact hx ▸ h e List.mem_cons_self
      · exact hx ▸ hkept y hy
  exact hfold [] (by simp)

/-- Whatever is done on a desk, cells that are given away stay as they are. -/
theorem Owns.apply {e : Edit} (h : d.Owns given) (he : d.apply e = .ok d') :
    d'.Owns given ∧ Tends given d.store d'.store := by
  obtain ⟨n, x, -, hx, halters⟩ := alters_of_apply he
  have hown := h.items x (List.mem_of_getElem? hx)
  cases halters with
  | clone i tags t slot hcarries =>
    have hnew := h.apart.Ico_subset_own t
    have hadd := h.apart.tends_append fun cell hcell => (hcarries.fresh cell hcell).mono hnew
    exact h.push (_, _) hadd (hcarries.leads.mono hnew)
  | reread i tags es hes =>
    have hcell : Cell.LeadsInto (own given d.store) (.map (Content.keepOptions es)) := by
      intro slot hslot
      obtain ⟨e, he, rfl⟩ := List.mem_map.1 hslot
      exact keepOptions_leadsInto (entriesOf_leadsInto h.apart.rest hown hes) e he
    obtain ⟨hadd, hslot⟩ := h.apart.addCell hcell
    exact h.push (_, _) hadd hslot
  | tag i t y hy | set i field v y hy =>
    refine h.of_tends (.refl h.apart) fun z hz => ?_
    rcases List.mem_or_eq_of_mem_set hz with hz | rfl
    · exact .inl hz
    · exact .inr (hy ▸ hown)
  | options i field v y hy =>
    refine h.of_tends (h.apart.add v).1 fun z hz => ?_
    rcases List.mem_or_eq_of_mem_set hz with hz | rfl
    · exact .inl hz
    · exact .inr (hy ▸ (h.apart.add v).2)
  | assign i path v s hs =>
    obtain ⟨hadd, hslot⟩ := h.apart.add v
    exact h.of_tends (hadd.trans (hadd.apart.assignAt (hown.mono hadd.own) hslot hs))
      fun z hz => .inl hz

/-- An item may be put on a desk. -/
theorem Owns.load (h : d.Owns given) (c : Content) :
    (d.push (DeskItem.load d.store c)).Owns given ∧
      Tends given d.store (d.push (DeskItem.load d.store c)).store :=
  have hadd := h.apart.add (.map c.options)
  h.push (DeskItem.load d.store c) hadd.1 hadd.2

end Desk

/-! ### Items in cells that are given away -/

namespace DeskItem

/-- An item that stands for a finished one, with its options in cells that are given away. -/
structure Rests (s : Store) (given : Set Nat) (item : DeskItem) (c : Content) : Prop where
  body : item.toBody = c.toBody
  tags : item.tags = .list c.tags
  options : ∃ a ∈ given, item.options = .place a ∧ ∃ entries, s[a]? = some (.map entries) ∧
    ∀ n, s.length ≤ n → entries.map (fun e => (e.1, readTo s n e.2)) = c.options

variable {s s' : Store} {given given' : Set Nat} {item : DeskItem} {c : Content}

theorem Rests.unload (h : item.Rests s given c) : item.unload s = .ok c := by
  obtain ⟨a, -, hoptions, entries, hcell, hread⟩ := h.options
  simp only [DeskItem.unload, h.tags, hoptions, Value.items, entriesOf, hcell]
  show Except.ok (⟨item.toBody, c.tags, entries.map fun e => (e.1, s.read e.2)⟩ : Content) = .ok c
  have hentries : entries.map (fun e => (e.1, s.read e.2)) = c.options := hread _ (Nat.le_refl _)
  rw [h.body, hentries]

/-- An item whose options lie in cells that are given away rests in them. -/
theorem Shows.rests {b : Nat} (h : item.Shows s b c) (hb : b ≤ s.length)
    (hoptions : item.options.LeadsInto given) : item.Rests s given c := by
  obtain ⟨a, entries, hplace, ha, hcell, hread⟩ := h.options
  rw [hplace] at hoptions
  exact ⟨h.body, h.tags, a, hoptions, hplace, entries, hcell, fun n hn =>
    hread s (.refl a s) n (by omega)⟩

theorem Rests.mono (h : item.Rests s given c) (hg : given ⊆ given') : item.Rests s given' c := by
  obtain ⟨a, ha, hoptions⟩ := h.options
  exact ⟨h.body, h.tags, a, hg ha, hoptions⟩

/-- Nothing that happens to other cells shows in an item. -/
theorem Rests.kept (h : item.Rests s given c) (hs : s.Closed given) (hk : Spares given s s') :
    item.Rests s' given c := by
  obtain ⟨a, ha, hoptions, entries, hcell, hread⟩ := h.options
  refine ⟨h.body, h.tags, a, ha, hoptions, entries, (hk.leaves a ha).trans hcell, fun n hn => ?_⟩
  rw [← hread n (Nat.le_trans hk.grows hn)]
  refine List.map_congr_left fun e he => ?_
  rw [hs.readTo_eq hk.leaves n (hs a ha _ hcell e.2 (List.mem_map_of_mem he))]

theorem Rests.of_tends (h : item.Rests s given c) (hs : s.Closed given) (ht : Tends given s s') :
    item.Rests s' given c :=
  h.kept hs ht.spares

/-- A copy of an item in new cells, which are given away with it. -/
theorem load_rests (h : Apart given s) (c : Content) :
    ∃ given', given ⊆ given' ∧ Apart given' (load s c).2 ∧
      own given' (load s c).2 = own given s ∧ (load s c).1.Rests (load s c).2 given' c := by
  obtain ⟨t, ht, hfresh, hslot⟩ := add_fresh s (.map c.options)
  have hstore : (load s c).2 = s ++ t := ht
  have hshows := (load_shows s c).1
  have hoptions : (load s c).1.options.LeadsInto (Set.Ico s.length (s ++ t).length) := hslot
  rw [hstore] at hshows ⊢
  exact ⟨_, Set.subset_union_left, h.give hfresh, own_give given s t,
    hshows.rests (Nat.le_refl _) (hoptions.mono Set.subset_union_right)⟩

end DeskItem

end Syndicate
