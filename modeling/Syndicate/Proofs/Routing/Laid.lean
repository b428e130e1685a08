import Syndicate.Proofs.Adapter.Telegram
import Syndicate.Proofs.Content.Shared
import Syndicate.Proofs.Routing

/-! From an item in a store to the contents of tasks there. Each of them is a clone of the item in new
cells, with a channel over the item's own. All of these cells but those of one task may be given
away. -/

namespace Syndicate

open Store

/-! ### What is given -/

/-- A finished item in a store, or a mapping there that is still to be read as one. -/
inductive Given where
  | finished (item : DeskItem)
  | mapping (slot : Slot)

namespace Given

/-- What is given stands for a source. -/
inductive Stands (s : Store) (given : Set Nat) : Given → Source → Prop
  | finished {item : DeskItem} {c : Content} (h : item.Lies s given c) :
    Stands s given (.finished item) (.item c)
  | mapping {slot : Slot} {es : Entries} (h : slot.Rests s given (.map es)) :
    Stands s given (.mapping slot) (.raw (.map es))

/-- The item, which is the given one itself or is read from the mapping. -/
def itemIn (s : Store) : Given → Outcome (DeskItem × Store)
  | .finished item => .ok (item, s)
  | .mapping slot => DeskItem.ofMapping s slot

variable {s s' : Store} {given : Set Nat} {g : Given} {src : Source} {c : Content}

theorem Stands.kept (h : g.Stands s given src) (hs : s.Closed given) (hk : Spares given s s') :
    g.Stands s' given src := by
  cases h with
  | finished h => exact .finished (h.kept hs hk)
  | mapping h => exact .mapping (h.kept hs hk)

theorem Stands.itemIn (h : g.Stands s (Set.Iio s.length) src) (hs : s.Closed (Set.Iio s.length))
    (hc : src.content = .ok c) : ∃ item t, g.itemIn s = .ok (item, s ++ t) ∧
      (s ++ t).Closed (Set.Iio (s ++ t).length) ∧
      item.Lies (s ++ t) (Set.Iio (s ++ t).length) c := by
  cases h with
  | finished h =>
    cases hc
    rename_i item
    refine ⟨item, [], ?_⟩
    rw [List.append_nil]
    exact ⟨rfl, hs, h⟩
  | mapping h =>
    obtain ⟨item, cell, hitem, hclosed, hlies⟩ := DeskItem.ofMapping_lies h hs hc
    exact ⟨item, [cell], hitem, hclosed, hlies⟩

end Given

theorem DeskItem.Rests.leadsInto {s : Store} {given : Set Nat} {item : DeskItem} {c : Content}
    (h : item.Rests s given c) : item.options.LeadsInto given := by
  obtain ⟨a, ha, hoptions, -⟩ := h.options
  rw [hoptions]
  exact ha

namespace Routing

/-! ### The contents of tasks -/

/-- An item with a channel over its own, if there is one. -/
def sentTo (c : Content) (channel : Value) : Content :=
  if channel.truthy then c.setOption "channel" channel else c

/-- Puts a clone of an item on a desk, with the channel in a slot among its options if that is
truthy. -/
def layTask (input : DeskItem) (d : Desk) (channel : Slot) : Outcome Desk := do
  let (item, s) ← input.clone d.store
  let s := if (d.store.read channel).truthy then s.bind item.options (.text "channel") channel else s
  pure (d.push (item, s))

section

variable {s : Store} {given : Set Nat} {input : DeskItem} {items : List DeskItem} {c : Content}
  {channel : Slot} {v : Value}

/-- Where the channel is no list or mapping, this is how an assignment is put on a desk. -/
theorem layTask_eq_addTask {d : Desk} (h : input.Lies d.store given c) {a : Assignment}
    (ha : a.channel.isTextual = true) (slots : List Slot) :
    layTask input d (.scalar a.channel) = .ok (addTask c (d, slots) a).1 := by
  have hadd : d.store.add a.channel = (.scalar a.channel, d.store) := by
    cases hc : a.channel <;> simp_all [Value.isTextual, add]
  have hread := (Slot.rests_scalar d.store given a.channel).read
  unfold layTask addTask
  rw [h.clone, hread, hadd]
  rfl

theorem layEach_eq_addTasks {d : Desk} {as : List Assignment} (h : input.Lies d.store given c)
    (hs : d.store.Closed given) (hgiven : given ⊆ Set.Iio d.store.length)
    (has : ∀ a ∈ as, a.channel.isTextual = true) (slots : List Slot) :
    (as.map fun a => Slot.scalar a.channel).foldlM (layTask input) d =
      .ok (as.foldl (addTask c) (d, slots)).1 := by
  induction as generalizing d slots with
  | nil => rfl
  | cons a as ih =>
    obtain ⟨ha, has⟩ := List.forall_mem_cons.1 has
    obtain ⟨item, slot, s, hnew, hsame, hgrows, -⟩ := addTask_new c d slots a
    have hk : Spares given d.store s := ⟨hgrows, fun b hb => hsame b (hgiven hb)⟩
    rw [List.map_cons, List.foldlM_cons, layTask_eq_addTask h ha slots, List.foldl_cons, hnew]
    refine ih (h.kept hs hk) (fun b hb cell hcell => ?_) (fun b hb => ?_) has _
    · exact hs b hb cell ((hk.leaves b hb) ▸ hcell)
    · exact Nat.lt_of_lt_of_le (hgiven hb) hgrows

/-- The content of a task is in new cells, which lead to new cells only. -/
theorem layTask_new (h : input.Lies s given c) (hv : channel.Rests s given v)
    (htext : v.isTextual = true) (items : List DeskItem) :
    ∃ item t, layTask input ⟨s, items⟩ channel = .ok ⟨s ++ t, items ++ [item]⟩ ∧ Fresh s t ∧
      item.Rests (s ++ t) (Set.Ico s.length (s ++ t).length) (sentTo c v) := by
  obtain ⟨t, ht, hfresh, hslot⟩ := add_fresh s (.map c.options)
  have hstore : (DeskItem.load s c).2 = s ++ t := ht
  have hlead : (DeskItem.load s c).1.options.LeadsInto (Set.Ico s.length (s ++ t).length) := hslot
  obtain ⟨hshows, -, n, hplace, hn, -⟩ := DeskItem.load_shows s c
  unfold layTask sentTo
  rw [h.clone, hv.read]
  cases htrue : v.truthy with
  | false =>
    rw [hstore] at hshows
    refine ⟨(DeskItem.load s c).1, t, ?_, hfresh, hshows.rests (Nat.le_refl _) hlead⟩
    rw [← hstore]
    rfl
  | true =>
    -- A text takes no cell, so it is the slot itself that is bound.
    obtain rfl : channel = .scalar v := by
      cases v with
      | text x => exact hv.eq_scalar
      | null => cases htrue
      | _ => cases htext
    have hbound := (load_bound c "channel" (reads_scalar s s.length v)).1
    rw [htrue, if_pos rfl, if_pos rfl, hstore, hplace] at hbound
    obtain ⟨u, hu, hufresh⟩ := hfresh.bind hn (.text "channel") (v := .scalar v) trivial
    have hlength : (s ++ u).length = (s ++ t).length := by rw [← hu, length_bind]
    rw [hu] at hbound
    refine ⟨(DeskItem.load s c).1, u, ?_, hufresh, hbound.rests (Nat.le_refl _) (hlength ▸ hlead)⟩
    rw [← hu, ← hstore, ← hplace]
    rfl

end

/-- The tasks on a desk while one of them, named by its place, is at somebody's disposal. Its content
is in cells of one's own and the others' are in cells that are given away. -/
structure Guards (d : Desk) (i : Nat) (given : Set Nat) (cs : List Content) : Prop where
  apart : Apart given d.store
  count : d.items.length = cs.length
  mine : ∀ item, d.items[i]? = some item → item.options.LeadsInto (own given d.store)
  others : ∀ j c, j ≠ i → cs[j]? = some c → ∃ item, d.items[j]? = some item ∧
    item.Rests d.store given c

section

variable {d : Desk} {i : Nat} {given given' : Set Nat} {cs : List Content} {s : Store}
  {input : DeskItem} {c : Content} {channel : Slot} {v : Value}

theorem Guards.others_kept (h : Guards d i given cs) (ht : Tends given d.store s)
    (hg : given ⊆ given') {j : Nat} (hj : j ≠ i) (hc : cs[j]? = some c) :
    ∃ item, d.items[j]? = some item ∧ item.Rests s given' c := by
  obtain ⟨item, hitem, hrests⟩ := h.others j c hj hc
  exact ⟨item, hitem, (hrests.of_tends h.apart.closed ht).mono hg⟩

theorem getElem?_concat_of_ne {α : Type} {xs : List α} {x : α} {j : Nat} (h : j ≠ xs.length) :
    (xs ++ [x])[j]? = xs[j]? := by
  rcases Nat.lt_or_gt_of_ne h with h | h
  · exact List.getElem?_append_left h
  · rw [List.getElem?_eq_none (by simp; omega), List.getElem?_eq_none (Nat.le_of_lt h)]

/-- The new cells of a task that is at nobody's disposal are given away. -/
theorem Guards.lay (h : Guards d i given cs) (hinput : input.Lies d.store given c)
    (hv : channel.Rests d.store given v) (htext : v.isTextual = true) :
    ∃ d' given', layTask input d channel = .ok d' ∧ given ⊆ given' ∧
      Spares given d.store d'.store ∧ Guards d' i given' (cs ++ [sentTo c v]) := by
  obtain ⟨item, t, hlay, hfresh, hrests⟩ := layTask_new hinput hv htext d.items
  have hown := h.apart.Ico_subset_own t
  have ht := h.apart.tends_append fun cell hcell => (hfresh cell hcell).mono hown
  have hcount : (d.items ++ [item]).length = (cs ++ [sentTo c v]).length := by simp [h.count]
  by_cases hi : i = cs.length
  · refine ⟨⟨d.store ++ t, d.items ++ [item]⟩, given, hlay, subset_rfl, ht.spares, ht.apart, hcount,
      fun x hx => ?_, fun j c' hj hc' => ?_⟩
    · rw [hi, ← h.count, List.getElem?_concat_length] at hx
      cases hx
      exact hrests.leadsInto.mono hown
    · rw [getElem?_concat_of_ne (hi ▸ hj)] at hc'
      obtain ⟨x, hx, hrest⟩ := h.others_kept ht subset_rfl hj hc'
      exact ⟨x, by rwa [getElem?_concat_of_ne (h.count ▸ hi ▸ hj)], hrest⟩
  · refine ⟨⟨d.store ++ t, d.items ++ [item]⟩, _, hlay, Set.subset_union_left, ht.spares,
      h.apart.give hfresh, hcount, fun x hx => ?_, fun j c' hj hc' => ?_⟩
    · rw [getElem?_concat_of_ne (h.count ▸ hi)] at hx
      rw [own_give]
      exact h.mine x hx
    · by_cases hlast : j = cs.length
      · subst hlast
        rw [List.getElem?_concat_length] at hc'
        cases hc'
        refine ⟨item, ?_, hrests.mono Set.subset_union_right⟩
        rw [← h.count, List.getElem?_concat_length]
      · rw [getElem?_concat_of_ne hlast] at hc'
        obtain ⟨x, hx, hrest⟩ := h.others_kept ht Set.subset_union_left hj hc'
        exact ⟨x, by rwa [getElem?_concat_of_ne (h.count ▸ hlast)], hrest⟩

theorem Guards.layEach {channels : List Slot} {vs : List Value} (h : Guards d i given cs)
    (hinput : input.Lies d.store given c)
    (hvs : List.Forall₂ (fun slot v => slot.Rests d.store given v) channels vs)
    (htext : ∀ v ∈ vs, v.isTextual = true) :
    ∃ d' given', channels.foldlM (layTask input) d = .ok d' ∧ given ⊆ given' ∧
      Spares given d.store d'.store ∧ Guards d' i given' (cs ++ vs.map (sentTo c)) := by
  induction channels generalizing d given cs vs with
  | nil =>
    cases hvs
    exact ⟨d, given, rfl, subset_rfl, .refl given d.store, by simpa using h⟩
  | cons channel channels ih =>
    cases hvs with
    | cons hv hvs =>
      obtain ⟨htext, htexts⟩ := List.forall_mem_cons.1 htext
      obtain ⟨d₁, given₁, hlay, hg, hk, h₁⟩ := h.lay hinput hv htext
      have hclosed := h.apart.closed
      obtain ⟨d₂, given₂, hlays, hg', hk', h₂⟩ := ih h₁ ((hinput.kept hclosed hk).mono hg)
        (hvs.imp fun _ _ hslot => (hslot.kept hclosed hk).mono hg) htexts
      refine ⟨d₂, given₂, ?_, hg.trans hg', hk.trans (hk'.mono hg), by simpa using h₂⟩
      rw [List.foldlM_cons, hlay]
      exact hlays

/-- All tasks are as they were made if the one at somebody's disposal is none of them. -/
theorem Guards.view (h : Guards d cs.length given cs) : d.view = .ok cs := by
  refine Desk.viewEach_of_unload (List.forall₂_iff_get.2 ⟨h.count, fun j hj hj' => ?_⟩)
  obtain ⟨item, hitem, hrests⟩ := h.others j cs[j] (Nat.ne_of_lt hj') (List.getElem?_eq_getElem hj')
  have hget : d.items.get ⟨j, hj⟩ = item := (List.getElem?_eq_some_iff.1 hitem).2
  rw [hget]
  exact hrests.unload

end

end Routing

end Syndicate
