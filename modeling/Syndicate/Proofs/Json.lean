import Mathlib.Data.Nat.Digits.Defs
import Syndicate.Json
import Syndicate.Proofs.Text
import Syndicate.Value.Display

/-! Whatever is read from JSON text can be shown: an integer in it has no more digits than are
shown, and nothing else in it could not be shown. -/

namespace Syndicate

theorem Text.digitsValue_lt (ds : List Char) : digitsValue ds < 10 ^ ds.length := by
  have hfrom : ∀ n : Nat, ds.foldl (fun n c => n * 10 + (digit? c).getD 0) n <
      (n + 1) * 10 ^ ds.length := by
    induction ds with
    | nil => simp
    | cons c ds ih =>
      intro n
      have hdigit : (digit? c).getD 0 < 10 := by
        cases hc : digit? c with
        | none => simp
        | some d => exact digit?_lt hc
      calc (c :: ds).foldl (fun n c => n * 10 + (digit? c).getD 0) n
        _ < (n * 10 + (digit? c).getD 0 + 1) * 10 ^ ds.length := ih _
        _ ≤ ((n + 1) * 10) * 10 ^ ds.length := Nat.mul_le_mul_right _ (by omega)
        _ = (n + 1) * 10 ^ (c :: ds).length := by rw [List.length_cons, pow_succ']; ring
  have h := hfrom 0
  rwa [Nat.zero_add, Nat.one_mul] at h

namespace Value

theorem itemsShowable_iff {xs : List Value} :
    itemsShowable xs = true ↔ ∀ x ∈ xs, x.isShowable = true := by
  induction xs with
  | nil => simp [itemsShowable]
  | cons x xs ih => simp [itemsShowable, ih]

theorem entriesShowable_iff {es : Entries} :
    entriesShowable es = true ↔ ∀ e ∈ es, e.1.isShowable = true ∧ e.2.isShowable = true := by
  induction es with
  | nil => simp [entriesShowable]
  | cons e es ih => simp [entriesShowable, ih]

theorem isShowable_list {xs : List Value} :
    (Value.list xs).isShowable = true ↔ ∀ x ∈ xs, x.isShowable = true := by
  rw [isShowable, itemsShowable_iff]

theorem isShowable_map {es : Entries} : (Value.map es).isShowable = true ↔
    ∀ e ∈ es, e.1.isShowable = true ∧ e.2.isShowable = true := by
  rw [isShowable, entriesShowable_iff]

theorem isShowable_get {es : Entries} (h : (Value.map es).isShowable = true) (key : String) :
    (Entries.get es key).isShowable = true := by
  unfold Entries.get Entries.get?
  cases hfind : es.find? _ with
  | none => rfl
  | some e => exact (isShowable_map.1 h e (List.mem_of_find?_eq_some hfind)).2

/-- The integers that can be shown are those of few digits. -/
theorem isShowable_int_iff (i : Int) :
    (Value.int i).isShowable = true ↔ i.natAbs < 10 ^ Text.maxDigits := by
  rw [isShowable, decide_eq_true_eq]
  refine ⟨fun h => ?_, Nat.repr_length _ _ (by decide)⟩
  have hlt := Text.digitsValue_lt (Nat.toDigits 10 i.natAbs)
  rw [Text.digitsValue_toDigits] at hlt
  have hlength : (toString i.natAbs).length = (Nat.toDigits 10 i.natAbs).length := by
    simp [Nat.repr]
  exact Nat.lt_of_lt_of_le hlt (Nat.pow_le_pow_right (by decide) (hlength ▸ h))

/-- An integer of few digits can be shown, whatever its sign. -/
theorem isShowable_withSign (negative : Bool) {ds : List Char} (h : ds.length ≤ Text.maxDigits) :
    (Value.int (Text.withSign negative (Text.digitsValue ds))).isShowable = true := by
  have habs : (Text.withSign negative (Text.digitsValue ds)).natAbs = Text.digitsValue ds := by
    cases negative <;> simp [Text.withSign]
  rw [isShowable_int_iff, habs]
  exact Nat.lt_of_lt_of_le (Text.digitsValue_lt ds) (Nat.pow_le_pow_right (by decide) h)

end Value

namespace Json

variable {limit : Nat} {cs rest : List Char} {v : Value}

theorem number?_showable (h : number? Text.maxDigits cs = some (v, rest)) :
    v.isShowable = true := by
  unfold number? at h
  split at h
  extract_lets whole at h
  split at h
  · cases h
  split at h
  split at h
  split at h
  · split at h
    · rename_i hle
      cases h
      exact Value.isShowable_withSign _ hle
    · cases h
  · cases h
    rfl

theorem word?_showable (h : word? cs = some (v, rest)) : v.isShowable = true := by
  obtain ⟨w, hw, h⟩ := Option.map_eq_some_iff.1 h
  cases h
  have hall : ∀ w ∈ words, w.2.isShowable = true := by decide
  exact hall w (List.mem_of_find?_eq_some hw)

/-- A mapping in which a text is bound to something that can be shown. -/
theorem put_showable {es : Entries} (hes : (Value.map es).isShowable = true) (key : String)
    (hv : v.isShowable = true) : (Value.map (Entries.put es (.text key) v)).isShowable = true := by
  rw [Value.isShowable_map] at hes ⊢
  induction es with
  | nil => simpa [Entries.put] using ⟨rfl, hv⟩
  | cons e es ih =>
    obtain ⟨hhead, hes⟩ := List.forall_mem_cons.1 hes
    rw [Entries.put]
    split
    · exact List.forall_mem_cons.2 ⟨⟨hhead.1, hv⟩, hes⟩
    · exact List.forall_mem_cons.2 ⟨hhead, ih hes⟩

/-- With an amount of fuel only values that can be shown are read. -/
structure ReadsShowable (n : Nat) : Prop where
  value : ∀ {cs v rest}, value? Text.maxDigits n cs = some (v, rest) → v.isShowable = true
  items : ∀ {done cs xs rest}, (∀ x ∈ done, x.isShowable = true) →
    items? Text.maxDigits n done cs = some (xs, rest) → ∀ x ∈ xs, x.isShowable = true
  members : ∀ {done cs es rest}, (Value.map done).isShowable = true →
    members? Text.maxDigits n done cs = some (es, rest) → (Value.map es).isShowable = true

namespace ReadsShowable

variable {n : Nat} (ih : ReadsShowable n)
include ih

theorem value_succ (h : value? Text.maxDigits (n + 1) cs = some (v, rest)) :
    v.isShowable = true := by
  rw [value?.eq_def] at h
  dsimp only at h
  split at h
  · obtain ⟨r, -, h⟩ := Option.map_eq_some_iff.1 h
    cases h
    rfl
  · split at h
    · cases h
      rfl
    · obtain ⟨r, hr, h⟩ := Option.map_eq_some_iff.1 h
      cases h
      exact Value.isShowable_list.2 (ih.items (by simp) hr)
  · split at h
    · cases h
      rfl
    · obtain ⟨r, hr, h⟩ := Option.map_eq_some_iff.1 h
      cases h
      exact ih.members rfl hr
  · rcases Option.or_eq_some_iff.1 h with h | ⟨-, h⟩
    · exact word?_showable h
    · exact number?_showable h

theorem items_succ {done xs : List Value} (hdone : ∀ x ∈ done, x.isShowable = true)
    (h : items? Text.maxDigits (n + 1) done cs = some (xs, rest)) :
    ∀ x ∈ xs, x.isShowable = true := by
  rw [items?.eq_def] at h
  obtain ⟨⟨v, behind⟩, hv, h⟩ := Option.bind_eq_some_iff.1 h
  have hall : ∀ x ∈ v :: done, x.isShowable = true := List.forall_mem_cons.2 ⟨ih.value hv, hdone⟩
  dsimp only at h
  split at h
  · exact ih.items hall h
  · cases h
    exact fun x hx => hall x (List.mem_reverse.1 hx)
  · cases h

theorem members_succ {done es : Entries} (hdone : (Value.map done).isShowable = true)
    (h : members? Text.maxDigits (n + 1) done cs = some (es, rest)) :
    (Value.map es).isShowable = true := by
  rw [members?.eq_def] at h
  dsimp only at h
  split at h
  · obtain ⟨⟨key, behind⟩, -, h⟩ := Option.bind_eq_some_iff.1 h
    dsimp only at h
    split at h
    · obtain ⟨⟨v, behind⟩, hv, h⟩ := Option.bind_eq_some_iff.1 h
      have hall := put_showable hdone key (ih.value hv)
      dsimp only at h
      split at h
      · exact ih.members hall h
      · cases h
        exact hall
      · cases h
    · cases h
  · cases h

end ReadsShowable

theorem readsShowable (n : Nat) : ReadsShowable n := by
  induction n with
  | zero => exact ⟨nofun, fun _ => nofun, fun _ => nofun⟩
  | succ n ih => exact ⟨ih.value_succ, ih.items_succ, ih.members_succ⟩

/-- A value in JSON text can be shown. -/
theorem parse?_showable {s : String} (h : parse? s = some v) : v.isShowable = true := by
  obtain ⟨⟨w, behind⟩, hw, h⟩ := Option.bind_eq_some_iff.1 h
  dsimp only at h
  split at h
  · cases h
    exact (readsShowable _).value hw
  · cases h

end Json

end Syndicate
