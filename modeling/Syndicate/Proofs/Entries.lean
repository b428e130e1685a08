import Mathlib.Data.List.Forall2
import Syndicate.Value.Basic

/-! Entries of mappings: what is under a key after a key was bound or bindings were removed, and rows
of bindings that go side by side. -/

namespace Syndicate

/-! ### Looking up entries -/

namespace Entries

variable {es fs : Entries} {k l : String} {v w : Value}

theorem alike_text {v : Value} : (Value.text k).alike v = true ↔ v = .text k := by
  cases v with
  | text s =>
    have h : (Value.text k).alike (.text s) = (k == s || false) := rfl
    rw [h, Bool.or_false, beq_iff_eq, Value.text.injEq, eq_comm]
  | _ => exact iff_of_false Bool.false_ne_true nofun

@[simp] theorem get?_nil (k : String) : get? [] k = none := rfl

@[simp] theorem get?_cons_text (l : String) (v : Value) (es : Entries) (k : String) :
    get? ((.text l, v) :: es) k = if l = k then some v else get? es k := by
  simp only [get?, List.find?_cons]
  by_cases h : l = k <;> simp [h]

@[simp] theorem get?_append (es fs : Entries) (k : String) :
    get? (es ++ fs) k = (get? es k).or (get? fs k) := by
  simp only [get?, List.find?_append]
  cases es.find? _ <;> rfl

theorem get?_put_same (es : Entries) (k : String) (v : Value) :
    get? (put es (.text k) v) k = some v := by
  induction es with
  | nil => simp [put]
  | cons e es ih =>
    obtain ⟨key, w⟩ := e
    rw [put]
    split
    · rename_i h
      obtain rfl := alike_text.1 h
      simp
    · rename_i h
      have hkey : key ≠ .text k := fun he => h (alike_text.2 he)
      rw [get?, List.find?_cons]
      cases key with
      | text l =>
        have hl : l ≠ k := fun he => hkey (by rw [he])
        simp only [hl, decide_false]
        exact ih
      | _ => exact ih

theorem get?_put_of_ne (es : Entries) (v : Value) (h : l ≠ k) :
    get? (put es (.text k) v) l = get? es l := by
  induction es with
  | nil => simp [put, h.symm]
  | cons e es ih =>
    obtain ⟨key, w⟩ := e
    rw [put]
    split
    · rename_i he
      obtain rfl := alike_text.1 he
      simp [h.symm]
    · simp only [get?, List.find?_cons] at ih ⊢
      split
      · rfl
      · exact ih

/-- A new key goes to the end. -/
theorem put_of_new {α : Type} {es : List (Value × α)} {k : Value}
    (h : ∀ e ∈ es, k.alike e.1 = false) (v : α) : put es k v = es ++ [(k, v)] := by
  induction es with
  | nil => rfl
  | cons e es ih =>
    obtain ⟨hkey, hrest⟩ := List.forall_mem_cons.1 h
    rw [put, if_neg (Bool.eq_false_iff.1 hkey), ih hrest, List.cons_append]

theorem put_of_get?_eq_none (h : get? es k = none) (v : Value) :
    put es (.text k) v = es ++ [(.text k, v)] := by
  rw [get?, Option.map_eq_none_iff, List.find?_eq_none] at h
  refine put_of_new (fun e he => Bool.eq_false_iff.2 fun hkey => ?_) v
  simpa [alike_text.1 hkey] using h e he

theorem get?_map (es : Entries) (f : Value → Value) (k : String) :
    get? (es.map fun e => (e.1, f e.2)) k = (get? es k).map f := by
  simp only [get?, List.find?_map, Option.map_map]
  rfl

theorem map_put {α β : Type} (f : α → β) (es : List (Value × α)) (k : Value) (v : α) :
    (put es k v).map (fun e => (e.1, f e.2)) =
      put (es.map fun e => (e.1, f e.2)) k (f v) := by
  induction es with
  | nil => rfl
  | cons e es ih =>
    obtain ⟨l, w⟩ := e
    simp only [put, List.map_cons]
    split
    · rfl
    · rw [List.map_cons, ih]

end Entries

/-! ### Bindings -/

section Bindings

variable {α : Type}

/-- What is bound to a text. -/
def under (es : List (Value × α)) (id : String) : Option α :=
  (es.find? fun e => e.1.alike (.text id)).map (·.2)

theorem alike_text_right {v : Value} {s : String} : v.alike (.text s) = true ↔ v = .text s := by
  cases v with
  | text t =>
    have h : (Value.text t).alike (.text s) = (t == s || false) := rfl
    rw [h, Bool.or_false, beq_iff_eq, Value.text.injEq]
  | _ => simp [Value.alike, Value.same, Value.isOneNan, Value.asInt?]

theorem under_cons_same (id : String) (a : α) (es : List (Value × α)) :
    under ((.text id, a) :: es) id = some a := by
  have h : (Value.text id).alike (.text id) = true := alike_text_right.2 rfl
  simp only [under, List.find?_cons, h, Option.map_some]

theorem under_cons_of_ne {k : Value} {id : String} (h : k ≠ .text id) (a : α)
    (es : List (Value × α)) : under ((k, a) :: es) id = under es id := by
  have hk : k.alike (.text id) = false := Bool.eq_false_iff.2 fun he => h (alike_text_right.1 he)
  simp only [under, List.find?_cons, hk]

theorem get?_eq_under (es : Entries) (k : String) : Entries.get? es k = under es k := by
  induction es with
  | nil => rfl
  | cons e es ih =>
    obtain ⟨l, v⟩ := e
    by_cases hl : l = .text k
    · rw [hl, under_cons_same, Entries.get?_cons_text, if_pos rfl]
    · rw [under_cons_of_ne hl, ← ih, Entries.get?, List.find?_cons]
      cases l with
      | text s =>
        have hs : s ≠ k := fun he => hl (by rw [he])
        simp only [hs, decide_false]
        rfl
      | _ => rfl

theorem under_put (es : List (Value × α)) (id other : String) (a : α) :
    under (Entries.put es (.text id) a) other = if other = id then some a else under es other := by
  have htext : other ≠ id → Value.text id ≠ .text other := fun h he => h (Value.text.inj he).symm
  induction es with
  | nil =>
    rw [Entries.put]
    split
    · subst_vars
      exact under_cons_same ..
    · rename_i h
      exact under_cons_of_ne (htext h) ..
  | cons e es ih =>
    obtain ⟨k, b⟩ := e
    rw [Entries.put]
    by_cases hk : k = .text id
    · rw [if_pos (Entries.alike_text.2 hk), hk]
      split
      · subst_vars
        exact under_cons_same ..
      · rename_i h
        rw [under_cons_of_ne (htext h), under_cons_of_ne (htext h)]
    · rw [if_neg fun h => hk (Entries.alike_text.1 h)]
      by_cases ho : k = .text other
      · have hne : other ≠ id := fun he => hk (by rw [ho, he])
        rw [ho, under_cons_same, if_neg hne, under_cons_same]
      · rw [under_cons_of_ne ho, ih, under_cons_of_ne ho]

theorem under_erase (es : List (Value × α)) (id other : String) :
    under (es.filter fun e => !e.1.alike (.text id)) other =
      if other = id then none else under es other := by
  induction es with
  | nil => simp [under]
  | cons e es ih =>
    obtain ⟨k, b⟩ := e
    by_cases hk : k = .text id
    · rw [List.filter_cons_of_neg (by simp [alike_text_right.2 hk]), ih, hk]
      split
      · rfl
      · rename_i h
        rw [under_cons_of_ne fun he => h (Value.text.inj he).symm]
    · have hkeep : k.alike (.text id) = false :=
        Bool.eq_false_iff.2 fun he => hk (alike_text_right.1 he)
      rw [List.filter_cons_of_pos (by simp [hkeep])]
      by_cases ho : k = .text other
      · have hne : other ≠ id := fun he => hk (by rw [ho, he])
        rw [ho, under_cons_same, if_neg hne, under_cons_same]
      · rw [under_cons_of_ne ho, ih, under_cons_of_ne ho]

theorem key_of_mem_put {es : List (Value × α)} {k : Value} {a : α} {e : Value × α}
    (h : e ∈ Entries.put es k a) : e.1 = k ∨ ∃ e' ∈ es, e'.1 = e.1 := by
  induction es with
  | nil => exact .inl (List.mem_singleton.1 h ▸ rfl)
  | cons head es ih =>
    obtain ⟨l, b⟩ := head
    rw [Entries.put] at h
    split at h
    · rcases List.mem_cons.1 h with rfl | h
      · exact .inr ⟨_, List.mem_cons_self, rfl⟩
      · exact .inr ⟨e, List.mem_cons_of_mem _ h, rfl⟩
    · rcases List.mem_cons.1 h with rfl | h
      · exact .inr ⟨_, List.mem_cons_self, rfl⟩
      · obtain hkey | ⟨e', he', hkey⟩ := ih h
        · exact .inl hkey
        · exact .inr ⟨e', List.mem_cons_of_mem _ he', hkey⟩

theorem value_of_mem_put {es : List (Value × α)} {k : Value} {a : α} {e : Value × α}
    (h : e ∈ Entries.put es k a) : e.2 = a ∨ ∃ e' ∈ es, e'.2 = e.2 := by
  induction es with
  | nil =>
    obtain rfl := List.mem_singleton.1 h
    exact .inl rfl
  | cons head es ih =>
    obtain ⟨l, b⟩ := head
    rw [Entries.put] at h
    split at h
    · rcases List.mem_cons.1 h with rfl | h
      · exact .inl rfl
      · exact .inr ⟨e, List.mem_cons_of_mem _ h, rfl⟩
    · rcases List.mem_cons.1 h with rfl | h
      · exact .inr ⟨_, List.mem_cons_self, rfl⟩
      · obtain he | ⟨e', he', he⟩ := ih h
        · exact .inl he
        · exact .inr ⟨e', List.mem_cons_of_mem _ he', he⟩

end Bindings

/-! ### Mappings without their nulls -/

namespace Entries

/-- Whether a key is bound to anything but null; of a text that stands twice the first binding
counts. -/
def isBound (es : Entries) (e : Value × Value) : Bool := match e.1 with
  | .text key => !(get es key).isNull
  | _ => !e.2.isNull

/-- Without the keys that are bound to null. -/
def present (es : Entries) : Entries := es.filter es.isBound

/-- With what is bound to one key replaced. -/
def adjust (key : String) (f : Value → Value) (es : Entries) : Entries :=
  es.map fun e => (e.1, if e.1.alike (.text key) then f e.2 else e.2)

theorem get?_present (es : Entries) (key : String) :
    get? es.present key = (get? es key).filter fun v => !v.isNull := by
  have hbound : ∀ e : Value × Value, decide (es.isBound e = true ∧ e.1.alike (.text key) = true) =
      (!(get es key).isNull && e.1.alike (.text key)) := by
    intro e
    cases he : e.1.alike (.text key) with
    | false => simp
    | true => simp [isBound, alike_text_right.1 he]
  have hget : get es key = (under es key).getD .null := by rw [get, get?_eq_under]
  rw [get?_eq_under, get?_eq_under, under, present, List.find?_filter]
  simp only [hbound, hget, under]
  cases hfind : es.find? fun e => e.1.alike (.text key) with
  | none => simp [Value.isNull]
  | some e =>
    cases hnull : e.2.isNull with
    | false => simp [hfind, hnull, Option.filter]
    | true =>
      have hnone : es.find? (fun _ => false) = none := List.find?_eq_none.2 (by simp)
      simp [hnone, hnull, Option.filter]

theorem get_present (es : Entries) (key : String) : get es.present key = get es key := by
  rw [get, get?_present, get]
  cases get? es key with
  | none => rfl
  | some v => cases v <;> rfl

theorem get?_adjust (es : Entries) (key : String) (f : Value → Value) (other : String) :
    get? (adjust key f es) other = (get? es other).map (if other = key then f else id) := by
  rw [get?_eq_under, get?_eq_under, under, adjust, List.find?_map]
  show Option.map _ (Option.map _ (es.find? fun e => e.1.alike (.text other))) =
    Option.map _ (Option.map _ (es.find? fun e => e.1.alike (.text other)))
  cases hfind : es.find? fun e => e.1.alike (.text other) with
  | none => rfl
  | some e =>
    have halike := List.find?_some hfind
    have hkey : e.1 = .text other := alike_text_right.1 halike
    by_cases h : other = key
    · simp [hkey, h, alike_text_right]
    · simp [hkey, h, alike_text_right]

theorem get_adjust (es : Entries) (key : String) {f : Value → Value} (hf : f .null = .null)
    (other : String) :
    get (adjust key f es) other = if other = key then f (get es other) else get es other := by
  rw [get, get?_adjust, get]
  by_cases h : other = key <;> cases get? es other <;> simp [h, hf]

end Entries

/-! ### Rows of bindings -/

section Beside

variable {α β : Type} {R : α → β → Prop} {es : List (Value × α)} {fs : List (Value × β)}

/-- Rows of bindings with the same keys in the same order. -/
def Beside (R : α → β → Prop) (e : Value × α) (f : Value × β) : Prop :=
  e.1 = f.1 ∧ R e.2 f.2

theorem forall₂_put (h : List.Forall₂ (Beside R) es fs) (k : Value) {a : α} {b : β}
    (hab : R a b) : List.Forall₂ (Beside R) (Entries.put es k a) (Entries.put fs k b) := by
  induction h with
  | nil => exact .cons ⟨rfl, hab⟩ .nil
  | cons hpair hrest ih =>
    rename_i e f es fs
    obtain ⟨l, a'⟩ := e
    obtain ⟨m, b'⟩ := f
    obtain ⟨hkey, hvalue⟩ := hpair
    dsimp only at hkey
    subst hkey
    rw [Entries.put, Entries.put]
    split
    · exact .cons ⟨rfl, hab⟩ hrest
    · exact .cons ⟨rfl, hvalue⟩ ih

theorem forall₂_filter (h : List.Forall₂ (Beside R) es fs) (keep : Value → Bool) :
    List.Forall₂ (Beside R) (es.filter fun e => keep e.1) (fs.filter fun f => keep f.1) := by
  induction h with
  | nil => exact .nil
  | cons hpair hrest ih =>
    rw [List.filter_cons, List.filter_cons, hpair.1]
    split
    · exact .cons hpair ih
    · exact ih

/-- What is under a key in one row stands beside what is under it in the other. -/
theorem under_beside (h : List.Forall₂ (Beside R) es fs) (k : String) :
    Option.Rel R (under es k) (under fs k) := by
  induction h with
  | nil => exact .none
  | cons hpair hrest ih =>
    rename_i e f es fs
    obtain ⟨l, a⟩ := e
    obtain ⟨m, b⟩ := f
    obtain ⟨rfl, hvalue⟩ : l = m ∧ R a b := hpair
    by_cases hl : l = .text k
    · subst hl
      rw [under_cons_same, under_cons_same]
      exact .some hvalue
    · rwa [under_cons_of_ne hl, under_cons_of_ne hl]

end Beside

/-! ### Rows that differ under one key -/

namespace Entries

variable {k l : String} {R : Value → Value → Prop} {es fs : Entries}

/-- The same bindings, but for what is bound to one key. -/
def SameBut (k : String) (R : Value → Value → Prop) (es fs : Entries) : Prop :=
  List.Forall₂ (fun e f => e.1 = f.1 ∧ (f.2 = e.2 ∨ e.1 = .text k ∧ R e.2 f.2)) es fs

namespace SameBut

theorem refl (k : String) (R : Value → Value → Prop) (es : Entries) : SameBut k R es es :=
  List.forall₂_same.2 fun _ _ => ⟨rfl, .inl rfl⟩

variable (h : SameBut k R es fs)
include h

theorem get?_of_ne (hl : l ≠ k) : get? fs l = get? es l := by
  rw [get?_eq_under, get?_eq_under]
  induction h with
  | nil => rfl
  | @cons e f es fs hpair _ ih =>
    obtain ⟨key, v⟩ := e
    obtain ⟨key', w⟩ := f
    obtain ⟨rfl, hvalue⟩ : key = key' ∧ (w = v ∨ key = .text k ∧ R v w) := hpair
    by_cases hkey : key = .text l
    · subst hkey
      have hsame : w = v := hvalue.resolve_right fun he => hl (Value.text.inj he.1)
      rw [under_cons_same, under_cons_same, hsame]
    · rwa [under_cons_of_ne hkey, under_cons_of_ne hkey]

theorem get_of_ne (hl : l ≠ k) : get fs l = get es l := by
  rw [Entries.get, Entries.get, h.get?_of_ne hl]

theorem get : Entries.get fs k = Entries.get es k ∨ R (Entries.get es k) (Entries.get fs k) := by
  have hunder : Option.Rel (fun v w => w = v ∨ R v w) (under es k) (under fs k) :=
    under_beside (h.imp fun _ _ hpair => ⟨hpair.1, hpair.2.imp_right And.right⟩) k
  unfold Entries.get
  rw [get?_eq_under, get?_eq_under]
  generalize under es k = o at hunder ⊢
  generalize under fs k = o' at hunder ⊢
  cases hunder with
  | none => exact .inl rfl
  | some hvalue => exact hvalue

end SameBut

end Entries

end Syndicate
