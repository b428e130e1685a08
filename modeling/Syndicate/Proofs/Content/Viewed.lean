import Syndicate.Proofs.Content.Lineage
import Syndicate.Proofs.Content.Ranked

/-! What a desk itself shows of its items. Where it begins with plain values no cell comes to lead
back to itself, so a value reads the same from some depth on, and what was said of items down to any
number of cells holds of all that is shown of them. -/

namespace Syndicate

open Store

namespace DeskItem

/-- What can be seen of an item: its written form, if it has one, and whether it has media. -/
def face (s : Store) (item : DeskItem) : Outcome Entries × Bool :=
  (Content.toEntries <$> item.unload s, item.hasMedia)

theorem faceTo_empty (s : Store) (item : DeskItem) : item.faceTo s s.length {} = item.face s := by
  rw [face, unload, faceTo]
  cases item.tags.items with
  | error f => rfl
  | ok tags => cases s.entriesOf item.options <;> rfl

/-- Deeper than the number of cells there is nothing more to be seen of an item. -/
theorem faceTo_ranked {s : Store} (hr : s.Ranked) {depth : Nat} (h : s.length ≤ depth)
    (item : DeskItem) : item.faceTo s depth {} = item.face s := by
  rw [← faceTo_empty, faceTo, faceTo]
  cases s.entriesOf item.options with
  | error f => rfl
  | ok es =>
    have hread : es.map (fun e => (e.1, readTo s depth e.2)) =
        es.map fun e => (e.1, readTo s s.length e.2) :=
      List.map_congr_left fun e _ => by rw [hr.readTo_eq h, Store.read]
    show (item.tags.items >>= fun tags => pure (Content.toEntries _), _) =
      (item.tags.items >>= fun tags => pure (Content.toEntries _), _)
    rw [hread]
    rfl

end DeskItem

namespace Desk

variable {d d' : Desk} {e : Edit}

/-- What can be seen of the item at a place of a desk. -/
def face (d : Desk) (j : Nat) : Option (Outcome Entries × Bool) :=
  d.items[j]?.map fun item => item.face d.store

/-- Values that end do so after any edit as well. -/
theorem Rooted.ranked_apply (h : d.Rooted) (hr : d.store.Ranked) (he : d.apply e = .ok d') :
    d'.store.Ranked := by
  obtain ⟨n, x, -, hx, ha⟩ := alters_of_apply he
  cases ha with
  | clone i tags t slot hcarries =>
    obtain ⟨⟨m, y⟩, -, he⟩ := ok_of_bind he
    obtain ⟨made, hmade, he⟩ := ok_of_bind he
    obtain ⟨ts, -, hmade⟩ := ok_of_bind hmade
    cases hmade
    have hstore : (d.store.add (d.store.read y.options)).2 = d.store ++ t :=
      congrArg Desk.store (Except.ok.inj he)
    exact hstore ▸ hr.add h.closed _
  | reread i tags es hes =>
    refine hr.append h.closed fun i cell hi slot hslot => ?_
    obtain rfl := List.mem_singleton.1 (List.mem_of_getElem? hi)
    obtain ⟨entry, hentry, rfl⟩ := List.mem_map.1 hslot
    exact (keepOptions_leadsInto (entriesOf_leadsInto h.closed (h.leadsInto hx) hes) entry
      hentry).mono (Set.Iio_subset_Iio (Nat.le_add_right _ _))
  | tag | set => exact hr
  | options i field v => exact hr.add h.closed v
  | assign i path v s hs =>
    obtain ⟨-, hc, hslots⟩ := assigned_of_assignAt h.closed (h.leadsInto hx) hs
    obtain ⟨t, ht, hdown, hslot⟩ := add_descends d.store v
    rw [ht]
    refine hr.graft h.closed hdown hc fun x hx => (hslots x hx).imp_right ?_
    rintro rfl
    exact hslot

end Desk

open Desk Origin

namespace Pedigree

variable {p : Pedigree} {e : Edit}

/-- Nothing is lent, and values end. -/
structure Plain (p : Pedigree) : Prop where
  sound : p.Sound
  ranked : p.desk.store.Ranked
  bare : ∀ l ∈ p.loans, l = {}

theorem plain_ofItem (c : Content) : (ofItem c).Plain where
  sound := sound_ofItem c
  ranked := ranked_nil.add (fun a ha => absurd ha (Nat.not_lt_zero a)) (.map c.options)
  bare _ hl := List.mem_singleton.1 hl

theorem Plain.edit (h : p.Plain) (e : Edit) : (p.edit e).Plain := by
  have hsound := h.sound.step (step_edit p e)
  unfold Pedigree.edit at hsound ⊢
  split
  · rename_i d n hd hn
    rw [hd, hn] at hsound
    refine ⟨hsound, h.sound.rooted.ranked_apply h.ranked hd, fun l hl => ?_⟩
    obtain ⟨m, hm, rfl | rfl⟩ := of_mem_lend hl
    · exact h.bare l hm
    · rw [h.bare m hm, Loan.after_empty]
  · exact h

theorem Plain.run (h : p.Plain) (es : List Edit) : (p.run es).Plain := by
  induction es generalizing p with
  | nil => exact h
  | cons e es ih => exact ih (h.edit e)

theorem Plain.face_eq (h : p.Plain) {depth : Nat} (hd : p.desk.store.length ≤ depth) (j : Nat) :
    p.face j depth = p.desk.face j := by
  rw [face, Desk.face]
  cases hitem : p.desk.items[j]? with
  | none => rfl
  | some item =>
    have hlt : j < p.loans.length := h.sound.lent ▸ (List.getElem?_eq_some_iff.1 hitem).1
    have hloan : p.loans[j]? = some {} := by
      rw [List.getElem?_eq_getElem hlt, h.bare _ (List.getElem_mem hlt)]
    rw [hloan]
    exact congrArg some (DeskItem.faceTo_ranked h.ranked hd item)

/-- Whatever was done on a desk that began with one item, an edit of another item shows in what the
desk shows of one only if it touches this, and then no clone is between the two. -/
theorem views_confined (c : Content) (es : List Edit) (e : Edit) {n j : Nat}
    (hn : indexIn ((ofItem c).run es).desk.items.length e.place = .ok n)
    (hj : j < ((ofItem c).run es).desk.items.length) (hjn : j ≠ n)
    (hchanged : (((ofItem c).run es).edit e).desk.face j ≠ ((ofItem c).run es).desk.face j) :
    ((ofItem c).run es).Touches n j e ∧
    ∀ k m : Nat, ((ofItem c).run es).origins[k]? = some (.cloned m) →
      (Derived ((ofItem c).run es).origins k n ↔ Derived ((ofItem c).run es).origins k j) := by
  have hplain := (plain_ofItem c).run es
  have hface : (((ofItem c).run es).edit e).face j ≠ ((ofItem c).run es).face j := by
    intro hsame
    have hmax := congrFun hsame (max (((ofItem c).run es).edit e).desk.store.length
      ((ofItem c).run es).desk.store.length)
    rw [(hplain.edit e).face_eq (Nat.le_max_left _ _),
      hplain.face_eq (Nat.le_max_right _ _)] at hmax
    exact hchanged hmax
  have hconfined := hplain.sound.confined (step_edit _ e) hn
  refine ⟨hconfined.shared j hj hjn hface, fun k m hk => ?_⟩
  by_contra hside
  exact hface (hconfined.apart k m hk j hj hside)

end Pedigree

end Syndicate
