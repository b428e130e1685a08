import Syndicate.Proofs.Content.Shared

/-! Values that end. Cells have ranks that fall along every way down, so that no way is longer than
the store and a value reads the same in any depth from there on. New cells keep it so, and so does a
new value that takes a place in an old cell. -/

namespace Syndicate

namespace Store

variable {s s' t : Store} {p : Set Nat} {slot : Slot} {a : Nat} {rank : Nat → Nat}

/-- Every way down goes to cells of lower ranks. -/
def Falls (s : Store) (rank : Nat → Nat) : Prop :=
  ∀ (a : Nat) (cell : Cell), s[a]? = some cell → cell.LeadsInto {b | rank b < rank a}

/-- Cells have ranks below the number of cells, which fall on every way down. -/
def Ranked (s : Store) : Prop :=
  ∃ rank : Nat → Nat, s.Falls rank ∧ ∀ a < s.length, rank a < s.length

/-- Deeper than the rank of a slot there is nothing left to be read. -/
theorem Falls.readTo_succ (h : s.Falls rank) (n : Nat)
    (hn : slot.LeadsInto {a | a < s.length → rank a < n}) :
    readTo s (n + 1) slot = readTo s n slot := by
  induction n generalizing slot with
  | zero =>
    cases slot with
    | scalar v => rfl
    | place a =>
      have hnone : s[a]? = none :=
        List.getElem?_eq_none (Nat.le_of_not_lt fun ha => Nat.not_lt_zero _ (hn ha))
      rw [readTo, readTo, hnone]
  | succ n ih =>
    cases slot with
    | scalar v => rfl
    | place a =>
      rw [readTo, readTo]
      cases hc : s[a]? with
      | none => rfl
      | some cell =>
        have hrank : rank a < n + 1 := hn (List.getElem?_eq_some_iff.1 hc).1
        have hbelow : {b | rank b < rank a} ⊆ {b | b < s.length → rank b < n} :=
          fun b hb _ => Nat.lt_of_lt_of_le hb (Nat.le_of_lt_succ hrank)
        have hslots : ∀ x ∈ cell.slots, readTo s (n + 1) x = readTo s n x :=
          fun x hx => ih ((h a cell hc x hx).mono hbelow)
        cases cell with
        | list slots => exact congrArg Value.list (List.map_congr_left hslots)
        | map entries =>
          refine congrArg Value.map (List.map_congr_left fun e he => ?_)
          rw [hslots e.2 (List.mem_map_of_mem he)]

/-- From the number of cells on, the depth makes no difference. -/
theorem Ranked.readTo_eq (h : s.Ranked) {n : Nat} (hn : s.length ≤ n) (slot : Slot) :
    readTo s n slot = s.read slot := by
  obtain ⟨rank, hfalls, hrank⟩ := h
  induction n, hn using Nat.le_induction with
  | base => rfl
  | succ n hn ih =>
    rw [hfalls.readTo_succ n, ih]
    cases slot with
    | scalar v => trivial
    | place a => exact fun ha => Nat.lt_of_lt_of_le (hrank a ha) hn

/-! ### New cells -/

/-- Ranks of old cells with the new ones above them. -/
def rankedAbove (s : Store) (rank : Nat → Nat) (a : Nat) : Nat :=
  if a < s.length then rank a else a

/-- Ranks of old cells with a number of new ones below them. -/
def rankedBelow (s : Store) (count : Nat) (rank : Nat → Nat) (a : Nat) : Nat :=
  if a < s.length then rank a + count else a - s.length

theorem ranked_nil : Ranked [] := ⟨id, by simp [Falls], by simp⟩

/-- Cells may be added that lead to cells before them. -/
theorem Ranked.append (h : s.Ranked) (hs : s.Closed (Set.Iio s.length))
    (ht : ∀ (i : Nat) (cell : Cell), t[i]? = some cell →
      cell.LeadsInto (Set.Iio (s.length + i))) : (s ++ t).Ranked := by
  obtain ⟨rank, hfalls, hrank⟩ := h
  refine ⟨s.rankedAbove rank, fun a cell hc slot hslot => ?_, fun a ha => ?_⟩
  · cases slot with
    | scalar v => trivial
    | place b =>
      show s.rankedAbove rank b < s.rankedAbove rank a
      by_cases ha : a < s.length
      · rw [List.getElem?_append_left ha] at hc
        have hb : b < s.length := hs a ha cell hc _ hslot
        rw [rankedAbove, rankedAbove, if_pos ha, if_pos hb]
        exact hfalls a cell hc _ hslot
      · rw [List.getElem?_append_right (Nat.le_of_not_lt ha)] at hc
        have hb : b < s.length + (a - s.length) := ht _ cell hc _ hslot
        have hold := hrank b
        rw [rankedAbove, rankedAbove, if_neg ha]
        split <;> omega
  · have hold := hrank a
    rw [List.length_append] at ha ⊢
    rw [rankedAbove]
    split <;> omega

theorem Ranked.add (h : s.Ranked) (hs : s.Closed (Set.Iio s.length)) (v : Value) :
    (s.add v).2.Ranked := by
  obtain ⟨t, ht, hdown, -⟩ := add_descends s v
  rw [ht]
  exact h.append hs fun i cell hi => (hdown i cell hi).mono Set.Ico_subset_Iio_self

/-- A cell may be changed to lead to new cells, which lead to one another only. -/
theorem Ranked.graft {cell changed : Cell} (h : s.Ranked) (hs : s.Closed (Set.Iio s.length))
    (ht : Descends s t) (hc : s[a]? = some cell)
    (hchanged : ∀ x ∈ changed.slots,
      x ∈ cell.slots ∨ x.LeadsInto (Set.Ico s.length (s ++ t).length)) :
    Ranked ((s ++ t).set a changed) := by
  obtain ⟨rank, hfalls, hrank⟩ := h
  have ha : a < s.length := (List.getElem?_eq_some_iff.1 hc).1
  -- An old cell leads to old cells as before, or to new ones, which rank below all of them.
  have hold : ∀ {b : Nat} {c : Cell} {d : Nat}, b < s.length → s[b]? = some c →
      .place d ∈ c.slots → s.rankedBelow t.length rank d < s.rankedBelow t.length rank b := by
    intro b c d hb hbc hd
    have hd' : d < s.length := hs b hb c hbc _ hd
    rw [rankedBelow, rankedBelow, if_pos hb, if_pos hd']
    exact Nat.add_lt_add_right (hfalls b c hbc _ hd) _
  refine ⟨s.rankedBelow t.length rank, fun b c hb slot hslot => ?_, fun b hb => ?_⟩
  · cases slot with
    | scalar v => trivial
    | place d =>
      show s.rankedBelow t.length rank d < s.rankedBelow t.length rank b
      by_cases hab : a = b
      · subst hab
        rw [List.getElem?_set_self (by rw [List.length_append]; omega)] at hb
        obtain rfl := Option.some.inj hb
        rcases hchanged _ hslot with hmem | ⟨hd, hd'⟩
        · exact hold ha hc hmem
        · rw [List.length_append] at hd'
          rw [rankedBelow, rankedBelow, if_pos ha, if_neg (Nat.not_lt.2 hd)]
          omega
      · rw [List.getElem?_set_ne hab] at hb
        by_cases hlt : b < s.length
        · rw [List.getElem?_append_left hlt] at hb
          exact hold hlt hb hslot
        · rw [List.getElem?_append_right (Nat.le_of_not_lt hlt)] at hb
          obtain ⟨hd, hd'⟩ : d ∈ Set.Ico s.length (s.length + (b - s.length)) := ht _ c hb _ hslot
          rw [rankedBelow, rankedBelow, if_neg hlt, if_neg (Nat.not_lt.2 hd)]
          omega
  · have hlow := hrank b
    rw [List.length_set, List.length_append] at hb ⊢
    rw [rankedBelow]
    split <;> omega

end Store

end Syndicate
