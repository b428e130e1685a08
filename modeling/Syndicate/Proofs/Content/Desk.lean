import Syndicate.Content.Desk
import Syndicate.Proofs.Entries

/-! Values in a store. A value put into new cells is read back from its slot as long as those cells
stay as they are, whatever is added behind them or changed there. -/

namespace Syndicate

namespace Store

/-- Two stores have the same cells below an address. -/
def SameBelow (b : Nat) (s s' : Store) : Prop := ∀ a < b, s'[a]? = s[a]?

/-- A slot reads as a value in every store that has the same cells below an address. -/
def Reads (s : Store) (b : Nat) (slot : Slot) (v : Value) : Prop :=
  ∀ s' : Store, SameBelow b s s' → ∀ n, b ≤ n → readTo s' n slot = v

def ReadsItems (s : Store) (b : Nat) (slots : List Slot) (xs : List Value) : Prop :=
  ∀ s' : Store, SameBelow b s s' → ∀ n, b ≤ n → slots.map (readTo s' n) = xs

def ReadsEntries (s : Store) (b : Nat) (entries : List (Value × Slot)) (es : Entries) : Prop :=
  ∀ s' : Store, SameBelow b s s' → ∀ n, b ≤ n →
    entries.map (fun e => (e.1, readTo s' n e.2)) = es

section

variable {s s' s'' : Store} {b b' a : Nat} {slot : Slot} {v : Value}

theorem SameBelow.refl (b : Nat) (s : Store) : SameBelow b s s := fun _ _ => rfl

theorem SameBelow.trans (h : SameBelow b s s') (h' : SameBelow b s' s'') : SameBelow b s s'' :=
  fun a ha => (h' a ha).trans (h a ha)

theorem SameBelow.mono (h : SameBelow b s s') (hb : b' ≤ b) : SameBelow b' s s' :=
  fun a ha => h a (Nat.lt_of_lt_of_le ha hb)

theorem sameBelow_append (s t : Store) : SameBelow s.length s (s ++ t) :=
  fun _ ha => List.getElem?_append_left ha

theorem Reads.of_below (h : s.Reads b slot v) (hs : SameBelow b s s') (hb : b ≤ b') :
    s'.Reads b' slot v :=
  fun t ht n hn => h t (hs.trans (ht.mono hb)) n (Nat.le_trans hb hn)

theorem ReadsItems.of_below {slots : List Slot} {xs : List Value} (h : s.ReadsItems b slots xs)
    (hs : SameBelow b s s') : s'.ReadsItems b slots xs :=
  fun t ht n hn => h t (hs.trans ht) n hn

theorem ReadsItems.cons {slots : List Slot} {xs : List Value} (hs : s.ReadsItems b slots xs)
    (h : s.Reads b slot v) : s.ReadsItems b (slot :: slots) (v :: xs) := by
  intro t ht n hn
  rw [List.map_cons, h t ht n hn, hs t ht n hn]

theorem ReadsEntries.cons {entries : List (Value × Slot)} {es : Entries} {k : Value}
    (hs : s.ReadsEntries b entries es) (h : s.Reads b slot v) :
    s.ReadsEntries b ((k, slot) :: entries) ((k, v) :: es) := by
  intro t ht n hn
  rw [List.map_cons, h t ht n hn, hs t ht n hn]

theorem ReadsEntries.of_below {entries : List (Value × Slot)} {es : Entries}
    (h : s.ReadsEntries b entries es) (hs : SameBelow b s s') : s'.ReadsEntries b entries es :=
  fun t ht n hn => h t (hs.trans ht) n hn

theorem Reads.read (h : s.Reads b slot v) (hb : b ≤ s.length) : s.read slot = v :=
  h s (.refl b s) s.length hb

theorem map_read {slots : List Slot} {vs : List Value}
    (h : List.Forall₂ (s.Reads s.length) slots vs) : slots.map s.read = vs := by
  induction h with
  | nil => rfl
  | cons hslot _ ih => rw [List.map_cons, hslot.read (Nat.le_refl _), ih]

theorem reads_scalar (s : Store) (b : Nat) (v : Value) : s.Reads b (.scalar v) v := by
  intro s' _ n _
  cases n <;> rfl

/-- A list in a cell, whose members lie in the cells before. -/
theorem reads_list {slots : List Slot} {xs : List Value} (ha : a < b)
    (hc : s[a]? = some (.list slots)) (h : s.ReadsItems a slots xs) :
    s.Reads b (.place a) (.list xs) := by
  intro s' hs n hn
  obtain ⟨k, rfl⟩ : ∃ k, n = k + 1 := ⟨n - 1, by omega⟩
  have hcell : s'[a]? = some (.list slots) := (hs a ha).trans hc
  rw [readTo, hcell]
  exact congrArg Value.list (h s' (hs.mono (Nat.le_of_lt ha)) k (by omega))

theorem reads_map {entries : List (Value × Slot)} {es : Entries} (ha : a < b)
    (hc : s[a]? = some (.map entries)) (h : s.ReadsEntries a entries es) :
    s.Reads b (.place a) (.map es) := by
  intro s' hs n hn
  obtain ⟨k, rfl⟩ : ∃ k, n = k + 1 := ⟨n - 1, by omega⟩
  have hcell : s'[a]? = some (.map entries) := (hs a ha).trans hc
  rw [readTo, hcell]
  exact congrArg Value.map (h s' (hs.mono (Nat.le_of_lt ha)) k (by omega))

end

/-! ### New cells -/

section

variable (s : Store)

theorem add_list (xs : List Value) : s.add (.list xs) =
    (.place (s.addItems xs).2.length, (s.addItems xs).2 ++ [.list (s.addItems xs).1]) := by
  rw [add]
  rfl

theorem add_map (es : Entries) : s.add (.map es) =
    (.place (s.addEntries es).2.length, (s.addEntries es).2 ++ [.map (s.addEntries es).1]) := by
  rw [add]
  rfl

theorem addItems_cons (x : Value) (xs : List Value) : s.addItems (x :: xs) =
    ((s.add x).1 :: ((s.add x).2.addItems xs).1, ((s.add x).2.addItems xs).2) := by
  rw [addItems]

theorem addEntries_cons (k v : Value) (es : Entries) : s.addEntries ((k, v) :: es) =
    ((k, (s.add v).1) :: ((s.add v).2.addEntries es).1, ((s.add v).2.addEntries es).2) := by
  rw [addEntries]

end

mutual

/-- Values are put behind the cells there are. -/
theorem add_append (s : Store) : (v : Value) → ∃ t, (s.add v).2 = s ++ t
  | .list xs => by
    obtain ⟨t, ht⟩ := addItems_append s xs
    exact ⟨t ++ [_], by rw [add_list, ht, List.append_assoc]⟩
  | .map es => by
    obtain ⟨t, ht⟩ := addEntries_append s es
    exact ⟨t ++ [_], by rw [add_map, ht, List.append_assoc]⟩
  | .null | .bool _ | .int _ | .float _ | .text _ | .date _ | .timestamp _ => ⟨[], by simp [add]⟩

theorem addItems_append (s : Store) : (xs : List Value) → ∃ t, (s.addItems xs).2 = s ++ t
  | [] => ⟨[], by simp [addItems]⟩
  | x :: xs => by
    obtain ⟨t, ht⟩ := add_append s x
    obtain ⟨u, hu⟩ := addItems_append (s.add x).2 xs
    exact ⟨t ++ u, by rw [addItems_cons, hu, ht, List.append_assoc]⟩

theorem addEntries_append (s : Store) : (es : Entries) → ∃ t, (s.addEntries es).2 = s ++ t
  | [] => ⟨[], by simp [addEntries]⟩
  | (k, v) :: es => by
    obtain ⟨t, ht⟩ := add_append s v
    obtain ⟨u, hu⟩ := addEntries_append (s.add v).2 es
    exact ⟨t ++ u, by rw [addEntries_cons, hu, ht, List.append_assoc]⟩

end

theorem length_le_add (s : Store) (v : Value) : s.length ≤ (s.add v).2.length := by
  obtain ⟨t, ht⟩ := add_append s v
  simp [ht]

theorem sameBelow_add (s : Store) (v : Value) : SameBelow s.length s (s.add v).2 := by
  obtain ⟨t, ht⟩ := add_append s v
  rw [ht]
  exact sameBelow_append s t

mutual

/-- A value put into new cells is read back. -/
theorem add_reads (s : Store) : (v : Value) → (s.add v).2.Reads (s.add v).2.length (s.add v).1 v
  | .list xs => by
    have hitems := (addItems_reads s xs).of_below (sameBelow_append _ [.list (s.addItems xs).1])
    rw [add_list]
    exact reads_list (by simp) List.getElem?_concat_length hitems
  | .map es => by
    have hentries := (addEntries_reads s es).of_below
      (sameBelow_append _ [.map (s.addEntries es).1])
    rw [add_map]
    exact reads_map (by simp) List.getElem?_concat_length hentries
  | .null | .bool _ | .int _ | .float _ | .text _ | .date _ | .timestamp _ => by
    rw [add]
    · exact reads_scalar s _ _
    all_goals simp

theorem addItems_reads (s : Store) : (xs : List Value) →
    (s.addItems xs).2.ReadsItems (s.addItems xs).2.length (s.addItems xs).1 xs
  | [] => fun _ _ _ _ => rfl
  | x :: xs => by
    obtain ⟨u, hu⟩ := addItems_append (s.add x).2 xs
    have hrest := addItems_reads (s.add x).2 xs
    have hfirst : ((s.add x).2 ++ u).Reads ((s.add x).2 ++ u).length (s.add x).1 x :=
      (add_reads s x).of_below (sameBelow_append _ u) (by simp)
    rw [← hu] at hfirst
    rw [addItems_cons]
    exact hrest.cons hfirst

theorem addEntries_reads (s : Store) : (es : Entries) →
    (s.addEntries es).2.ReadsEntries (s.addEntries es).2.length (s.addEntries es).1 es
  | [] => fun _ _ _ _ => rfl
  | (k, v) :: es => by
    obtain ⟨u, hu⟩ := addEntries_append (s.add v).2 es
    have hrest := addEntries_reads (s.add v).2 es
    have hfirst : ((s.add v).2 ++ u).Reads ((s.add v).2 ++ u).length (s.add v).1 v :=
      (add_reads s v).of_below (sameBelow_append _ u) (by simp)
    rw [← hu] at hfirst
    rw [addEntries_cons]
    exact hrest.cons hfirst

end

/-! ### Binding -/

section

variable {s : Store} {a : Nat} {entries : List (Value × Slot)} {es : Entries} {k v : Value}
  {slot : Slot}

theorem length_bind (s : Store) (target : Slot) (k : Value) (slot : Slot) :
    (s.bind target k slot).length = s.length := by
  cases target with
  | scalar v => rfl
  | place a => exact List.length_modify _ _ _

theorem sameBelow_bind (s : Store) (a : Nat) (k : Value) (slot : Slot) :
    SameBelow a s (s.bind (.place a) k slot) := by
  intro i hi
  exact List.getElem?_modify_ne _ _ (Nat.ne_of_gt hi)

theorem getElem?_bind (hc : s[a]? = some (.map entries)) :
    (s.bind (.place a) k slot)[a]? = some (.map (Entries.put entries k slot)) := by
  rw [bind, List.getElem?_modify_eq, hc]
  rfl

/-- A mapping in which a key is bound to what is in an older cell. -/
theorem ReadsEntries.put (h : s.ReadsEntries a entries es) (hv : s.Reads a slot v) (k : Value) :
    s.ReadsEntries a (Entries.put entries k slot) (Entries.put es k v) := by
  intro t ht n hn
  rw [Entries.map_put, h t ht n hn, hv t ht n hn]

end

end Store

/-! ### Items -/

namespace DeskItem

open Store

/-- An item in a store stands for a finished one, with its options in a cell below an address. -/
structure Shows (s : Store) (b : Nat) (item : DeskItem) (c : Content) : Prop where
  body : item.toBody = c.toBody
  tags : item.tags = .list c.tags
  options : ∃ a entries, item.options = .place a ∧ a < b ∧ s[a]? = some (.map entries) ∧
    s.ReadsEntries a entries c.options

variable {s s' : Store} {b b' : Nat} {item : DeskItem} {c : Content}

/-- What is done behind the cells of an item makes no difference to it. -/
theorem Shows.of_below (h : item.Shows s b c) (hs : SameBelow b s s') (hb : b ≤ b') :
    item.Shows s' b' c := by
  obtain ⟨a, entries, hoptions, ha, hcell, hreads⟩ := h.options
  exact ⟨h.body, h.tags, a, entries, hoptions, Nat.lt_of_lt_of_le ha hb, (hs a ha).trans hcell,
    hreads.of_below (hs.mono (Nat.le_of_lt ha))⟩

theorem Shows.unload (h : item.Shows s b c) (hb : b ≤ s.length) : item.unload s = .ok c := by
  obtain ⟨a, entries, hoptions, ha, hcell, hreads⟩ := h.options
  have hentries : entries.map (fun e => (e.1, s.read e.2)) = c.options :=
    hreads s (.refl a s) s.length (by omega)
  simp only [DeskItem.unload, h.tags, hoptions, Value.items, entriesOf, hcell]
  show Except.ok (⟨item.toBody, c.tags, entries.map fun e => (e.1, s.read e.2)⟩ : Content) = .ok c
  rw [h.body, hentries]

/-- An option is bound to what is in an older cell. -/
theorem Shows.bind {n : Nat} {slot : Slot} {v : Value} (h : item.Shows s b c)
    (hn : item.options = .place n) (hv : s.Reads n slot v) (key : String) :
    item.Shows (s.bind item.options (.text key) slot) b (c.setOption key v) := by
  obtain ⟨a, entries, hoptions, ha, hcell, hreads⟩ := h.options
  obtain rfl : n = a := by rw [hn] at hoptions; cases hoptions; rfl
  -- Only the cell of the options changes, and what is bound there reads from the cells below it.
  have hbelow := sameBelow_bind s n (.text key) slot
  rw [hn]
  exact ⟨h.body, h.tags, n, Entries.put entries (.text key) slot, hn, ha, getElem?_bind hcell,
    (hreads.put hv (.text key)).of_below hbelow⟩

/-- A loaded item is in new cells. -/
theorem load_shows (s : Store) (c : Content) :
    (load s c).1.Shows (load s c).2 (load s c).2.length c ∧ SameBelow s.length s (load s c).2 ∧
    ∃ n, (load s c).1.options = .place n ∧ s.length ≤ n ∧ n ≤ (load s c).2.length := by
  obtain ⟨t, ht⟩ := addEntries_append s c.options
  have hsame := sameBelow_add s (.map c.options)
  have hreads := (addEntries_reads s c.options).of_below
    (sameBelow_append _ [.map (s.addEntries c.options).1])
  rw [add_map] at hsame
  rw [load, add_map]
  refine ⟨⟨rfl, rfl, _, _, rfl, by simp, List.getElem?_concat_length, hreads⟩, hsame, _, rfl, ?_, ?_⟩
  · simp [ht]
  · simp

end DeskItem

namespace Desk

theorem viewEach_of_unload {s : Store} {items : List DeskItem} {cs : List Content}
    (h : List.Forall₂ (fun item c => item.unload s = .ok c) items cs) :
    viewEach s items = .ok cs := by
  induction h with
  | nil => rfl
  | cons hitem _ ih =>
    rw [viewEach, hitem, ih]
    rfl

theorem viewEach_shows {s : Store} {items : List DeskItem} {cs : List Content}
    (h : List.Forall₂ (DeskItem.Shows s s.length) items cs) :
    viewEach s items = .ok cs :=
  viewEach_of_unload (h.imp fun _ _ hitem => hitem.unload (Nat.le_refl _))

end Desk

end Syndicate
