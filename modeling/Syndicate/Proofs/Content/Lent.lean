import Syndicate.Proofs.Content.Reached

/-! Items that hold something by reference. A mapping may have lists and mappings in common among
its parts. The item that is read from it has the mapping's own tags and plain fields, as it has the
mapping's own option values, and all its copies have these tags and fields too: what is assigned
inside them shows in every one. -/

namespace Syndicate

open Store

/-- What is lent to an item: tags, which stand before its own, and plain fields by name. -/
structure Loan where
  tags : List Slot := []
  fields : List (String × Slot) := []

namespace Loan

variable {s s' : Store} {p : Set Nat} {l : Loan} {slot : Slot} {a b : Nat}

def slots (l : Loan) : List Slot := l.tags ++ l.fields.map (·.2)

/-- The members of a list. -/
def membersIn (s : Store) : Option Slot → List Slot
  | some (.place a) => match s[a]? with
    | some (.list slots) => slots
    | _ => []
  | _ => []

/-- What the entries of a mapping lend to the item that is read from it. -/
def ofEntries (s : Store) (entries : List (Value × Slot)) : Loan where
  tags := membersIn s (under entries "tags")
  fields := ["text", "photo", "video", "document", "audio", "type", "lang"].filterMap fun name =>
    (under entries name).map fun slot => (name, slot)

theorem ofEntries_leadsInto {entries : List (Value × Slot)} (hp : s.Closed p)
    (h : ∀ e ∈ entries, e.2.LeadsInto p) :
    ∀ slot ∈ (ofEntries s entries).slots, slot.LeadsInto p := by
  have hunder : ∀ {name slot}, under entries name = some slot → slot.LeadsInto p := by
    intro name slot hslot
    obtain ⟨e, he, rfl⟩ := Option.map_eq_some_iff.1 hslot
    exact h e (List.mem_of_find?_eq_some he)
  intro slot hslot
  rcases List.mem_append.1 hslot with hslot | hslot
  · simp only [ofEntries, membersIn] at hslot
    split at hslot
    · rename_i a hplace
      split at hslot
      · rename_i slots hc
        exact hp a (hunder hplace) _ hc slot hslot
      · cases hslot
    · cases hslot
  · obtain ⟨f, hf, rfl⟩ := List.mem_map.1 hslot
    obtain ⟨name, -, hfound⟩ := List.mem_filterMap.1 hf
    obtain ⟨lent, hlent, rfl⟩ := Option.map_eq_some_iff.1 hfound
    exact hunder hlent

/-- What is still lent after a field was set. -/
def without (l : Loan) (name : String) : Loan :=
  if name = "tags" then { l with tags := [] }
  else { l with fields := l.fields.filter fun f => f.1 ≠ name }

/-- What is still lent to an item after an edit of it. -/
def after (l : Loan) : Desk.Edit → Loan
  | .set _ name _ => l.without name
  | _ => l

theorem after_slots (l : Loan) (e : Desk.Edit) : ∀ slot ∈ (l.after e).slots, slot ∈ l.slots := by
  intro slot h
  cases e with
  | set i name v =>
    simp only [after, without] at h
    split at h
    · exact List.mem_append_right _ h
    · rcases List.mem_append.1 h with h | h
      · exact List.mem_append_left _ h
      · obtain ⟨f, hf, rfl⟩ := List.mem_map.1 h
        exact List.mem_append_right _ (List.mem_map_of_mem (List.mem_of_mem_filter hf))
  | _ => exact h

theorem after_empty (e : Desk.Edit) : ({} : Loan).after e = {} := by
  cases e with
  | set => simp [after, without]
  | _ => rfl

/-- The cells that what is lent leads to. -/
def held (l : Loan) (s : Store) : Set Nat := {a | ∃ slot ∈ l.slots, s.Reaches slot a}

theorem closed_held (l : Loan) (s : Store) : s.Closed (l.held s) := by
  rintro a ⟨slot, hslot, ha⟩ cell hc next hnext
  cases next with
  | scalar v => trivial
  | place b => exact ⟨slot, hslot, ha.tail hc hnext⟩

theorem leadsInto_held (s : Store) (hslot : slot ∈ l.slots) : slot.LeadsInto (l.held s) :=
  (leadsInto_reached s slot).mono fun _ ha => ⟨slot, hslot, ha⟩

/-- As long as the cells are as they were that it leads to, what is lent leads to no others. -/
theorem held_of_leaves (hs : ∀ a ∈ l.held s, s'[a]? = s[a]?) : l.held s' ⊆ l.held s := by
  rintro b ⟨slot, hslot, hb⟩
  exact ⟨slot, hslot, hb.of_leaves (l.closed_held s) hs (leadsInto_held s hslot)⟩

end Loan

namespace DeskItem

/-- The item that is read from a mapping has a new row of options, with the mapping's values. -/
theorem ofMapping_cases {s t : Store} {slot : Slot} {item : DeskItem}
    (h : ofMapping s slot = .ok (item, t)) :
    ∃ options, t = s ++ [.map (Content.keepOptions options)] ∧ item.options = .place s.length ∧
      ∀ {p : Set Nat}, s.Closed p → slot.LeadsInto p → ∀ e ∈ options, e.2.LeadsInto p := by
  obtain ⟨c, -, h⟩ := ok_of_bind h
  obtain ⟨entries, hentries, h⟩ := ok_of_bind h
  obtain ⟨options, hoptions, h⟩ := ok_of_bind h
  cases h
  refine ⟨options, rfl, rfl, fun hp hslot => ?_⟩
  have hleads := entriesOf_leadsInto hp hslot hentries
  unfold Store.optionsIn at hoptions
  split at hoptions
  · rename_i found hfound
    split at hoptions
    · obtain ⟨e, he, rfl⟩ := Option.map_eq_some_iff.1 hfound
      exact entriesOf_leadsInto hp (hleads e (List.mem_of_find?_eq_some he)) hoptions
    · cases hoptions
      exact nofun
  · cases hoptions
    exact nofun

/-- What can be seen of an item down to a number of cells: its written form, if it has one, and
whether it has media. -/
def faceTo (s : Store) (depth : Nat) (l : Loan) (item : DeskItem) : Outcome Entries × Bool :=
  let body := l.fields.foldl (fun b f => b.set f.1 (readTo s depth f.2)) item.toBody
  let written := do
    let tags ← item.tags.items
    let options ← s.entriesOf item.options
    pure (Content.toEntries { toBody := body, tags := l.tags.map (readTo s depth) ++ tags,
                              options := options.map fun e => (e.1, readTo s depth e.2) })
  (written, body.hasMedia)

variable {s s' : Store} {p : Set Nat} {item : DeskItem} {l : Loan}

theorem fill_congr {fields : List (String × Slot)} {f g : Slot → Value}
    (h : ∀ slot ∈ fields.map (·.2), f slot = g slot) (b : Body) :
    fields.foldl (fun b e => b.set e.1 (f e.2)) b =
      fields.foldl (fun b e => b.set e.1 (g e.2)) b := by
  induction fields generalizing b with
  | nil => rfl
  | cons e fields ih =>
    obtain ⟨hslot, hslots⟩ := List.forall_mem_cons.1 h
    rw [List.foldl_cons, List.foldl_cons, hslot, ih hslots]

/-- Nothing that happens to other cells shows in an item. -/
theorem faceTo_eq (hp : s.Closed p) (hs : ∀ a ∈ p, s'[a]? = s[a]?) (h : item.options.LeadsInto p)
    (hl : ∀ slot ∈ l.slots, slot.LeadsInto p) (depth : Nat) :
    item.faceTo s' depth l = item.faceTo s depth l := by
  have hlent : ∀ slot ∈ l.slots, readTo s' depth slot = readTo s depth slot := fun slot hslot =>
    hp.readTo_eq hs depth (hl slot hslot)
  have hbody := fill_congr (fun slot hslot => hlent slot (List.mem_append_right _ hslot))
    item.toBody
  have htags : l.tags.map (readTo s' depth) = l.tags.map (readTo s depth) :=
    List.map_congr_left fun slot hslot => hlent slot (List.mem_append_left _ hslot)
  rw [faceTo, faceTo, hbody, htags, hp.entriesOf_eq hs h]
  cases hes : s.entriesOf item.options with
  | error f => rfl
  | ok es =>
    have hread : es.map (fun e => (e.1, readTo s' depth e.2)) =
        es.map fun e => (e.1, readTo s depth e.2) :=
      List.map_congr_left fun e he => by
        rw [hp.readTo_eq hs depth (entriesOf_leadsInto hp h hes e he)]
    show (item.tags.items >>= fun tags => pure (Content.toEntries _), _) =
      (item.tags.items >>= fun tags => pure (Content.toEntries _), _)
    rw [hread]

end DeskItem

end Syndicate
