import Mathlib.Tactic.Common
import Syndicate.Value.Coerce

/-! How computations fail: with an error of the domain, or by breaking on a value that nothing
checked before. For each way to use a loosely typed value, on which values it breaks. -/

namespace Syndicate

variable {α β γ : Type}

/-- A computation fails, and not with an error of the domain. -/
def Breaks (x : Outcome α) : Prop := ∃ f, x = .error (.fault f)

section Breaks

@[simp] theorem not_breaks_ok (a : α) : ¬ Breaks (.ok a : Outcome α) := nofun

@[simp] theorem not_breaks_pure (a : α) : ¬ Breaks (pure a : Outcome α) := nofun

@[simp] theorem not_breaks_fail (e : Error) : ¬ Breaks (fail e : Outcome α) := by
  rintro ⟨f, h⟩
  cases h

@[simp] theorem breaks_faulty (f : Fault) : Breaks (faulty f : Outcome α) := ⟨f, rfl⟩

/-- A computation breaks with its first part, or after it. -/
theorem breaks_bind {x : Outcome α} {f : α → Outcome β} :
    Breaks (x >>= f) ↔ Breaks x ∨ ∃ a, x = .ok a ∧ Breaks (f a) := by
  cases x with
  | error e => simp [Breaks, bind, Except.bind]
  | ok a => simp [bind, Except.bind]

theorem breaks_map {x : Outcome α} {f : α → β} : Breaks (x.map f) ↔ Breaks x := by
  cases x <;> simp [Breaks, Except.map]

@[simp] theorem breaks_mapped {x : Outcome α} {f : α → β} : Breaks (f <$> x) ↔ Breaks x := breaks_map

theorem breaks_failShowing {v : Value} {e : Error} :
    Breaks (failShowing v e : Outcome α) ↔ v.isShowable = false := by
  unfold failShowing
  cases v.isShowable <;> simp

end Breaks

/-- A computation that fails with an error of the domain fails with one of some only. -/
def FailsWith (P : Error → Prop) (x : Outcome α) : Prop := ∀ e, x = .error (.error e) → P e

/-- Errors that say that an input cannot be used. -/
def Error.IsInput : Error → Prop
  | .config _ | .contentRejected _ | .invalidDelay _ => True
  | _ => False

/-- A computation has no errors of the domain: it breaks or comes to something. -/
def Uses (x : Outcome α) : Prop := FailsWith (fun _ => False) x

theorem Uses.failsWith {P : Error → Prop} {x : Outcome α} (h : Uses x) : FailsWith P x :=
  fun e he => (h e he).elim

namespace FailsWith

variable {P : Error → Prop}

theorem ok (a : α) : FailsWith P (.ok a : Outcome α) := nofun

theorem pure (a : α) : FailsWith P (Pure.pure a : Outcome α) := nofun

theorem faulty (f : Fault) : FailsWith P (Syndicate.faulty f : Outcome α) := nofun

theorem fail {e : Error} (h : P e) : FailsWith P (Syndicate.fail e : Outcome α) := by
  rintro e' ⟨⟩
  exact h

theorem failShowing {v : Value} {e : Error} (h : P e) :
    FailsWith P (Syndicate.failShowing v e : Outcome α) := by
  unfold Syndicate.failShowing
  split
  · exact fail h
  · exact faulty _

theorem bind_of_ok {x : Outcome α} {f : α → Outcome β} (hx : FailsWith P x)
    (hf : ∀ a, x = .ok a → FailsWith P (f a)) : FailsWith P (x >>= f) := by
  rcases x with f | a
  · intro e h
    cases h
    exact hx e rfl
  · exact hf a rfl

theorem bind {x : Outcome α} {f : α → Outcome β} (hx : FailsWith P x)
    (hf : ∀ a, FailsWith P (f a)) : FailsWith P (x >>= f) :=
  bind_of_ok hx fun a _ => hf a

end FailsWith

section Uses

variable {x : Outcome α}

theorem Uses.not_breaks (h : Uses x) (hx : ¬ Breaks x) : ∃ a, x = .ok a := by
  rcases x with (e | f) | a
  · exact (h e rfl).elim
  · exact absurd ⟨f, rfl⟩ hx
  · exact ⟨a, rfl⟩

/-- What comes after a use breaks or not, whatever came of the use. -/
theorem Uses.breaks_bind (h : Uses x) {f : α → Outcome β} {p : Prop}
    (hf : ∀ a, Breaks (f a) ↔ p) : Breaks (x >>= f) ↔ Breaks x ∨ p := by
  rw [Syndicate.breaks_bind]
  by_cases hx : Breaks x
  · simp [hx]
  · obtain ⟨a, rfl⟩ := h.not_breaks hx
    simp [hf]

end Uses

/-! ### The first that breaks -/

/-- A computation breaks on a member of a row, and something comes of it on all before. -/
def FirstBreaks (g : α → Outcome β) (xs : List α) : Prop := ∃ before x after,
  xs = before ++ x :: after ∧ (∀ y ∈ before, ∃ b, g y = .ok b) ∧ Breaks (g x)

theorem not_firstBreaks_nil {g : α → Outcome β} : ¬ FirstBreaks g [] := by
  rintro ⟨before, x, after, h, -⟩
  simp at h

theorem firstBreaks_cons {g : α → Outcome β} {x : α} {xs : List α} :
    FirstBreaks g (x :: xs) ↔ Breaks (g x) ∨ ∃ b, g x = .ok b ∧ FirstBreaks g xs := by
  constructor
  · rintro ⟨before, y, after, h, hb, hy⟩
    cases before with
    | nil =>
      obtain ⟨rfl, -⟩ := List.cons.inj h
      exact .inl hy
    | cons z before =>
      obtain ⟨rfl, rfl⟩ := List.cons.inj h
      obtain ⟨b, hx⟩ := hb x List.mem_cons_self
      exact .inr ⟨b, hx, before, y, after, rfl, fun u hu => hb u (List.mem_cons_of_mem x hu), hy⟩
  · rintro (h | ⟨b, hx, before, y, after, rfl, hb, hy⟩)
    · exact ⟨[], x, xs, rfl, by simp, h⟩
    · refine ⟨x :: before, y, after, rfl, fun u hu => ?_, hy⟩
      rcases List.mem_cons.1 hu with rfl | hu
      · exact ⟨b, hx⟩
      · exact hb u hu

/-- A loop breaks where its body does, if something came of its body on all before. -/
theorem breaks_loop (loop : List α → Outcome γ) (g : α → Outcome β) (join : β → γ → γ) {c : γ}
    (hnil : loop [] = .ok c)
    (hcons : ∀ x xs, loop (x :: xs) = g x >>= fun b => (loop xs).map (join b)) (xs : List α) :
    Breaks (loop xs) ↔ FirstBreaks g xs := by
  induction xs with
  | nil => simp [hnil, not_firstBreaks_nil]
  | cons x xs ih => simp only [hcons, breaks_bind, breaks_map, ih, firstBreaks_cons]

/-! ### Outcomes up to the class of a failure -/

namespace Outcome

variable {δ : Type} {R : α → β → Prop} {S : γ → δ → Prop}

/-- Something related came of both, or both failed with errors of one class. -/
inductive Akin (R : α → β → Prop) : Outcome α → Outcome β → Prop
  | ok {a : α} {b : β} (h : R a b) : Akin R (.ok a) (.ok b)
  | error {e f : Failure} (h : e.name = f.name) : Akin R (.error e) (.error f)

/-- Both failed, with errors of different classes. -/
def Parted (x : Outcome α) (y : Outcome β) : Prop :=
  ∃ e f, x = .error e ∧ y = .error f ∧ e.name ≠ f.name

namespace Akin

theorem refl {R : α → α → Prop} (hr : ∀ a, R a a) (x : Outcome α) : Akin R x x := by
  cases x with
  | ok a => exact .ok (hr a)
  | error e => exact .error rfl

theorem bind {x : Outcome α} {y : Outcome β} {f : α → Outcome γ} {g : β → Outcome δ}
    (hx : Akin R x y) (hf : ∀ a b, x = .ok a → R a b → Akin S (f a) (g b)) :
    Akin S (x >>= f) (y >>= g) := by
  cases hx with
  | ok h => exact hf _ _ rfl h
  | error h => exact .error h

/-- After one and the same first part. -/
theorem after (x : Outcome α) {f : α → Outcome γ} {g : α → Outcome δ}
    (hf : ∀ a, x = .ok a → Akin S (f a) (g a)) : Akin S (x >>= f) (x >>= g) := by
  cases x with
  | ok a => exact hf a rfl
  | error e => exact .error rfl

/-- What comes of both is related more closely. -/
theorem strengthen {T : α → β → Prop} {x : Outcome α} {y : Outcome β} (h : Akin R x y)
    (ht : ∀ a b, x = .ok a → R a b → T a b) : Akin T x y := by
  cases h with
  | ok hab => exact .ok (ht _ _ rfl hab)
  | error he => exact .error he

theorem of_ok {a : α} {y : Outcome β} (h : Akin R (.ok a) y) : ∃ b, y = .ok b ∧ R a b := by
  cases h with
  | ok hab => exact ⟨_, rfl, hab⟩

end Akin

namespace Parted

variable {x : Outcome α} {y : Outcome β} (h : Parted x y)
include h

theorem bind (f : α → Outcome γ) (g : β → Outcome δ) : Parted (x >>= f) (y >>= g) := by
  obtain ⟨e, e', rfl, rfl, hne⟩ := h
  exact ⟨e, e', rfl, rfl, hne⟩

theorem not_akin : ¬ Akin R x y := by
  obtain ⟨e, e', rfl, rfl, hne⟩ := h
  rintro (_ | he)
  exact hne he

end Parted

variable {v w : Value} {p q : ConfigProblem}

theorem failShowing_akin (h : v.isShowable = w.isShowable) :
    Akin R (failShowing v (.config p)) (failShowing w (.config q)) := by
  unfold failShowing
  rw [h]
  split
  · exact .error rfl
  · exact .error rfl

theorem failShowing_parted (h : v.isShowable ≠ w.isShowable) :
    Parted (failShowing v (.config p) : Outcome α) (failShowing w (.config q) : Outcome β) := by
  unfold failShowing
  cases hv : v.isShowable <;> cases hw : w.isShowable
  · exact absurd (hv.trans hw.symm) h
  · exact ⟨_, _, rfl, rfl, show "ValueError" ≠ "ConfigError" by decide⟩
  · exact ⟨_, _, rfl, rfl, show "ConfigError" ≠ "ValueError" by decide⟩
  · exact absurd (hv.trans hw.symm) h

end Outcome

/-! ### Values -/

namespace Value

/-- Whether a value has members: a list, a text and a mapping do. -/
def isRow : Value → Bool
  | .list _ | .text _ | .map _ => true
  | _ => false

def isMap : Value → Bool
  | .map _ => true
  | _ => false

/-- A value in the place of a section: it does not count as false, and is no mapping. -/
def Misshapen (v : Value) : Prop := v.truthy = true ∧ v.isMap = false

variable {v : Value} {m : String}

theorem breaks_entries : Breaks (v.entries m) ↔ v.isMap = false := by
  cases v <;> simp [entries, isMap]

theorem breaks_section :
    Breaks (if v.truthy then v.entries m else .ok []) ↔ v.Misshapen := by
  unfold Misshapen
  cases v.truthy <;> simp [breaks_entries]

/-- Entries come only from a mapping that holds them. -/
theorem section_ok {es : Entries} (h : es ≠ []) :
    (if v.truthy then v.entries m else .ok []) = .ok es ↔ v = .map es := by
  constructor
  · intro hv
    split at hv
    · cases v <;> cases hv
      rfl
    · exact absurd (Except.ok.inj hv).symm h
  · rintro rfl
    have htruthy : (Value.map es).truthy = true := by
      cases es
      · contradiction
      · rfl
    rw [if_pos htruthy]
    rfl

theorem breaks_items : Breaks v.items ↔ v.isRow = false := by
  cases v <;> simp [items, isRow]

theorem breaks_length : Breaks v.length ↔ v.isRow = false := by
  cases v <;> simp [length, isRow]

theorem breaks_shown : Breaks v.shown ↔ v.isShowable = false := by
  unfold shown
  cases v.isShowable <;> simp

theorem entries_uses : Uses (v.entries m) := by
  cases v <;> nofun

theorem items_uses : Uses v.items := by
  cases v <;> nofun

theorem length_uses : Uses v.length := by
  cases v <;> nofun

theorem shown_uses : Uses v.shown := by
  unfold shown
  split <;> nofun

theorem section_uses : Uses (if v.truthy then v.entries m else .ok []) := by
  split
  · exact entries_uses
  · exact .ok _

theorem toFloat_uses : Uses v.toFloat := by
  -- behind a name, so that the rounding of an integer is not computed
  obtain ⟨round, hround⟩ : ∃ round, round = Binary64.ofInt? := ⟨_, rfl⟩
  unfold toFloat
  rw [← hround]
  split
  · exact .ok _
  · split
    · exact .ok _
    · exact .faulty _
  · split
    · exact .faulty _
    · split
      · exact .ok _
      · exact .faulty _

theorem toInt_uses : Uses v.toInt := by
  unfold toInt
  split
  · exact .ok _
  · exact .ok _
  · exact .faulty _
  · split
    · exact .ok _
    · exact .faulty _
  · split
    · exact .ok _
    · exact .faulty _
  · exact .faulty _

theorem pair_uses : Uses v.pair := by
  refine FailsWith.bind items_uses fun members => ?_
  split
  · split
    · exact .ok _
    · exact .faulty _
  · exact .faulty _

theorem putPairs_uses (es : Entries) (ps : List Value) : Uses (putPairs es ps) := by
  induction ps generalizing es with
  | nil => exact .ok _
  | cons p ps ih => exact FailsWith.bind pair_uses fun _ => ih _

theorem toEntries_uses : Uses v.toEntries := by
  unfold toEntries
  split
  · exact .ok _
  · exact FailsWith.bind items_uses fun _ => putPairs_uses _ _

theorem breaks_asSet {xs : List Value} : Breaks (asSet xs) ↔ ∃ x ∈ xs, x.isScalar = false := by
  unfold asSet
  split
  · rename_i h
    simp only [not_breaks_ok, false_iff, not_exists, not_and, Bool.not_eq_false]
    exact List.all_eq_true.1 h
  · rename_i h
    simp only [breaks_faulty, true_iff]
    simpa using h

end Value

end Syndicate
