import Mathlib.Tactic.Common
import Syndicate.Adapter.Basic

/-! Laws of actions: what they come to and the state they leave, read off step by step, relations
between the states before and after that hold however an action ends, and relations between the
states of two runs that an action keeps. -/

namespace Syndicate

/-- What comes of one outcome after another came of both. -/
theorem ok_of_bind {α β : Type} {x : Outcome α} {f : α → Outcome β} {b : β}
    (h : x >>= f = .ok b) : ∃ a, x = .ok a ∧ f a = .ok b := by
  cases x with
  | error e => cases h
  | ok a => exact ⟨a, rfl, h⟩

theorem ok_of_either {α β : Type} {p : Prop} [Decidable p] {x y : Outcome α}
    {f : α → Outcome β} {b : β} (h : (if p then x >>= f else y >>= f) = .ok b) :
    ∃ a, f a = .ok b := by
  split at h
  · exact (ok_of_bind h).imp fun _ h => h.2
  · exact (ok_of_bind h).imp fun _ h => h.2

/-- Whether a value can be shown or not, there is a failure. -/
theorem failShowing_error (v : Value) (e : Error) :
    ∃ f, ∀ {α : Type}, (failShowing v e : Outcome α) = .error f := by
  unfold failShowing
  split <;> exact ⟨_, rfl⟩

/-- Two outcomes are related: something related came of both, or both failed for the same reason. -/
inductive Outcome.Rel {α β : Type} (R : α → β → Prop) : Outcome α → Outcome β → Prop
  | ok {a : α} {b : β} (h : R a b) : Rel R (.ok a) (.ok b)
  | error (f : Failure) : Rel R (.error f) (.error f)

namespace Outcome.Rel

variable {α β γ δ : Type}

theorem refl {R : α → α → Prop} (hr : ∀ a, R a a) (x : Outcome α) : Outcome.Rel R x x := by
  cases x with
  | ok a => exact .ok (hr a)
  | error f => exact .error f

/-- If what follows comes to something related whenever the first parts do, both come to that. -/
theorem bind {R : α → β → Prop} {S : γ → δ → Prop} {x : Outcome α} {y : Outcome β}
    {f : α → Outcome γ} {g : β → Outcome δ} (hx : Outcome.Rel R x y)
    (hf : ∀ a b, R a b → Outcome.Rel S (f a) (g b)) : Outcome.Rel S (x >>= f) (y >>= g) := by
  cases hx with
  | ok h => exact hf _ _ h
  | error f => exact .error f

/-- After one and the same first part. -/
theorem after {S : γ → δ → Prop} (x : Outcome α) {f : α → Outcome γ} {g : α → Outcome δ}
    (hf : ∀ a, Outcome.Rel S (f a) (g a)) : Outcome.Rel S (x >>= f) (x >>= g) := by
  cases x with
  | ok a => exact hf a
  | error f => exact .error f

theorem map (x : Outcome α) (f : α → β) : Outcome.Rel (fun a b => b = f a) x (x.map f) := by
  cases x with
  | ok a => exact .ok rfl
  | error e => exact .error e

theorem of_ok {R : α → β → Prop} {a : α} {y : Outcome β} (h : Outcome.Rel R (.ok a) y) :
    ∃ b, y = .ok b ∧ R a b := by
  cases h with
  | ok hab => exact ⟨_, rfl, hab⟩

theorem of_error {R : α → β → Prop} {f : Failure} {y : Outcome β}
    (h : Outcome.Rel R (.error f) y) : y = .error f := by
  cases h
  rfl

end Outcome.Rel

namespace Act

variable {σ τ α β : Type}

section Outcome

variable (s : σ)

@[simp] theorem outcome_pure (a : α) : Act.outcome (pure a : Act σ α) s = (.ok a, s) := rfl

@[simp] theorem outcome_throw (f : Failure) :
    Act.outcome (throw f : Act σ α) s = (.error f, s) := rfl

@[simp] theorem outcome_get : Act.outcome (get : Act σ σ) s = (.ok s, s) := rfl

@[simp] theorem outcome_set (t : σ) : Act.outcome (set t : Act σ PUnit) s = (.ok ⟨⟩, t) := rfl

@[simp] theorem outcome_modify (f : σ → σ) :
    Act.outcome (modify f : Act σ PUnit) s = (.ok ⟨⟩, f s) := rfl

@[simp] theorem outcome_ofOutcome (o : Outcome α) :
    Act.outcome (Act.ofOutcome o : Act σ α) s = (o, s) := by
  cases o <;> rfl

end Outcome

variable {s s' : σ} {x : Act σ α} {f : α → Act σ β} {a : α} {e : Failure}

theorem outcome_bind (x : Act σ α) (f : α → Act σ β) (s : σ) :
    Act.outcome (x >>= f) s = match Act.outcome x s with
      | (.ok a, s) => Act.outcome (f a) s
      | (.error e, s) => (.error e, s) := by
  simp only [outcome, EStateM.run_bind]
  cases x.run s <;> rfl

theorem outcome_bind_ok (h : Act.outcome x s = (.ok a, s')) :
    Act.outcome (x >>= f) s = Act.outcome (f a) s' := by
  rw [outcome_bind, h]

theorem outcome_bind_error (h : Act.outcome x s = (.error e, s')) :
    Act.outcome (x >>= f) s = (.error e, s') := by
  rw [outcome_bind, h]

theorem outcome_bind_congr {g : α → Act σ β}
    (h : ∀ a t, Act.outcome (f a) t = Act.outcome (g a) t) :
    Act.outcome (x >>= f) s = Act.outcome (x >>= g) s := by
  rw [outcome_bind, outcome_bind]
  cases Act.outcome x s with
  | mk o t =>
    cases o with
    | ok a => exact h a t
    | error e => rfl

theorem outcome_ofOutcome_bind (o : Outcome α) (f : α → Act σ β) (s : σ) :
    Act.outcome (Act.ofOutcome o >>= f) s = match o with
      | .ok a => Act.outcome (f a) s
      | .error e => (.error e, s) := by
  rw [outcome_bind, outcome_ofOutcome]
  cases o <;> rfl

theorem outcome_bind_pure (x : Act σ α) (f : α → β) (s : σ) :
    Act.outcome (x >>= fun a => pure (f a)) s = ((x.outcome s).1.map f, (x.outcome s).2) := by
  rw [outcome_bind]
  cases Act.outcome x s with
  | mk o s' => cases o <;> rfl

/-- An outcome at the end of an action leaves the state as it is. -/
theorem state_bind_ofOutcome (x : Act σ α) (f : α → Outcome β) (s : σ) :
    (Act.outcome (x >>= fun a => Act.ofOutcome (f a)) s).2 = (Act.outcome x s).2 := by
  rw [outcome_bind]
  cases Act.outcome x s with
  | mk o s' => cases o <;> simp

theorem outcome_within (get : τ → σ) (set : τ → σ → τ) (x : Act σ α) (t : τ) :
    Act.outcome (x.within get set) t = ((x.outcome (get t)).1, set t (x.outcome (get t)).2) := by
  simp only [outcome, within, EStateM.run]
  cases x (get t) <;> rfl

/-- However an action ends, the state that it leaves is related to the one that it finds. -/
def Keeps (R : σ → σ → Prop) (x : Act σ α) : Prop := ∀ s, R s (x.outcome s).2

namespace Keeps

variable {R : σ → σ → Prop}

section Refl

variable (hr : ∀ s, R s s)
include hr

theorem pure (a : α) : Keeps R (Pure.pure a : Act σ α) := hr

theorem throw (f : Failure) : Keeps R (MonadExcept.throw f : Act σ α) := hr

theorem get : Keeps R (MonadState.get : Act σ σ) := hr

theorem ofOutcome (o : Outcome α) : Keeps R (Act.ofOutcome o : Act σ α) := by
  intro s
  rw [outcome_ofOutcome]
  exact hr s

end Refl

theorem modify {f : σ → σ} (h : ∀ s, R s (f s)) : Keeps R (modify f : Act σ PUnit) := h

theorem bind (ht : ∀ s t u, R s t → R t u → R s u) (hx : Keeps R x) (hf : ∀ a, Keeps R (f a)) :
    Keeps R (x >>= f) := by
  intro s
  have h := hx s
  cases ho : x.outcome s with
  | mk r t =>
    rw [ho] at h
    cases r with
    | ok a => rw [outcome_bind_ok ho]; exact ht s t _ h (hf a t)
    | error e => rw [outcome_bind_error ho]; exact h

/-- An action may depend on the state that it finds. -/
theorem bind_get {f : σ → Act σ β} (h : ∀ s, R s ((f s).outcome s).2) :
    Keeps R (MonadState.get >>= f) := h

theorem within {get : τ → σ} {set : τ → σ → τ} {Q : τ → τ → Prop} (hx : Keeps R x)
    (h : ∀ t s, R (get t) s → Q t (set t s)) : Keeps Q (x.within get set) := by
  intro t
  rw [outcome_within]
  exact h t _ (hx (get t))

end Keeps

/-- Whatever an action yields has a property. -/
def Yields (P : α → Prop) (x : Act σ α) : Prop := ∀ s a, (x.outcome s).1 = .ok a → P a

namespace Yields

variable {P : α → Prop}

theorem pure (h : P a) : Yields P (Pure.pure a : Act σ α) := by
  intro s b hb
  obtain rfl : a = b := by simpa using hb
  exact h

theorem throw (f : Failure) : Yields P (MonadExcept.throw f : Act σ α) := by
  intro s a ha
  simp at ha

theorem ofOutcome {o : Outcome α} (h : ∀ a, o = .ok a → P a) :
    Yields P (Act.ofOutcome o : Act σ α) := by
  intro s a ha
  rw [outcome_ofOutcome] at ha
  exact h a ha

/-- The rest of an action may rely on what its first part yields. -/
theorem bind_of {Q : β → Prop} (hx : Yields P x) (h : ∀ a, P a → Yields Q (f a)) :
    Yields Q (x >>= f) := by
  intro s b hb
  cases ho : x.outcome s with
  | mk r t =>
    cases r with
    | ok a =>
      rw [outcome_bind_ok ho] at hb
      exact h a (hx s a (by rw [ho])) t b hb
    | error e => rw [outcome_bind_error ho] at hb; simp at hb

theorem bind {Q : β → Prop} (h : ∀ a, Yields Q (f a)) : Yields Q (x >>= f) :=
  bind_of (P := fun _ => True) (fun _ _ _ => trivial) fun a _ => h a

theorem within {get : τ → σ} {set : τ → σ → τ} (hx : Yields P x) :
    Yields P (x.within get set) := by
  intro t a ha
  rw [outcome_within] at ha
  exact hx (get t) a ha

end Yields

/-- Two runs have come to the same, and to related states. -/
def Agree (R : σ → σ → Prop) (p q : Outcome α × σ) : Prop := q.1 = p.1 ∧ R p.2 q.2

/-- If the first parts of two actions come to the same, the rest goes on from there. -/
theorem Agree.bind {R : σ → σ → Prop} {t : σ} {y : Act σ α} {g : α → Act σ β}
    (hx : Agree R (x.outcome s) (y.outcome t))
    (hf : ∀ a s' t', x.outcome s = (.ok a, s') → y.outcome t = (.ok a, t') → R s' t' →
      Agree R ((f a).outcome s') ((g a).outcome t')) :
    Agree R ((x >>= f).outcome s) ((y >>= g).outcome t) := by
  obtain ⟨ho, hr⟩ := hx
  rw [outcome_bind, outcome_bind]
  cases hs : x.outcome s with
  | mk o s' =>
    cases ht : y.outcome t with
    | mk o' t' =>
      rw [hs, ht] at ho hr
      dsimp only at ho hr
      subst ho
      cases o' with
      | ok a => exact hf a s' t' hs ht hr
      | error e => exact ⟨rfl, hr⟩

/-- From related states two actions come to the same, and to related states. -/
def Matches (R : σ → σ → Prop) (x y : Act σ α) : Prop :=
  ∀ s t, R s t → Agree R (x.outcome s) (y.outcome t)

/-- From related states an action comes to the same, and to related states. -/
def Mirrors (R : σ → σ → Prop) (x : Act σ α) : Prop := Matches R x x

namespace Matches

variable {R : σ → σ → Prop} {y : Act σ α}

/-- What comes after the same result may differ with it. -/
theorem bind {g : α → Act σ β} (hx : Matches R x y) (hf : ∀ a, Matches R (f a) (g a)) :
    Matches R (x >>= f) (y >>= g) :=
  fun s t h => (hx s t h).bind fun a s' t' _ _ hr => hf a s' t' hr

/-- What comes after related outcomes may differ as they do. -/
theorem ofOutcome_bind {α' : Type} {S : α → α' → Prop} {o : Outcome α} {o' : Outcome α'}
    {g : α' → Act σ β} (ho : Outcome.Rel S o o') (hf : ∀ a b, S a b → Matches R (f a) (g b)) :
    Matches R (Act.ofOutcome o >>= f) (Act.ofOutcome o' >>= g) := by
  intro s t h
  rw [outcome_ofOutcome_bind, outcome_ofOutcome_bind]
  cases ho with
  | ok hab => exact hf _ _ hab s t h
  | error f => exact ⟨rfl, h⟩

/-- An action may depend on the state that it finds. -/
theorem bind_get {f g : σ → Act σ β}
    (h : ∀ s t, R s t → Agree R ((f s).outcome s) ((g t).outcome t)) :
    Matches R (MonadState.get >>= f) (MonadState.get >>= g) := h

theorem within {get : τ → σ} {set : τ → σ → τ} {Q : τ → τ → Prop} (hx : Matches R x y)
    (hget : ∀ s t, Q s t → R (get s) (get t))
    (hset : ∀ s t, Q s t → ∀ u v, R u v → Q (set s u) (set t v)) :
    Matches Q (x.within get set) (y.within get set) := by
  intro s t h
  obtain ⟨ho, hr⟩ := hx _ _ (hget s t h)
  rw [outcome_within, outcome_within]
  exact ⟨ho, hset s t h _ _ hr⟩

end Matches

namespace Mirrors

variable {R : σ → σ → Prop}

theorem pure (a : α) : Mirrors R (Pure.pure a : Act σ α) := fun _ _ h => ⟨rfl, h⟩

theorem throw (f : Failure) : Mirrors R (MonadExcept.throw f : Act σ α) := fun _ _ h => ⟨rfl, h⟩

theorem ofOutcome (o : Outcome α) : Mirrors R (Act.ofOutcome o : Act σ α) := by
  intro s t h
  rw [outcome_ofOutcome, outcome_ofOutcome]
  exact ⟨rfl, h⟩

theorem modify {f : σ → σ} (h : ∀ s t, R s t → R (f s) (f t)) :
    Mirrors R (modify f : Act σ PUnit) :=
  fun s t hst => ⟨rfl, h s t hst⟩

theorem bind (hx : Mirrors R x) (hf : ∀ a, Mirrors R (f a)) : Mirrors R (x >>= f) :=
  Matches.bind hx hf

/-- An action may depend on the state that it finds, as far as related states agree. -/
theorem bind_get {f : σ → Act σ β}
    (h : ∀ s t, R s t → Agree R ((f s).outcome s) ((f t).outcome t)) :
    Mirrors R (MonadState.get >>= f) := Matches.bind_get h

theorem within {get : τ → σ} {set : τ → σ → τ} {Q : τ → τ → Prop} (hx : Mirrors R x)
    (hget : ∀ s t, Q s t → R (get s) (get t))
    (hset : ∀ s t, Q s t → ∀ u v, R u v → Q (set s u) (set t v)) :
    Mirrors Q (x.within get set) :=
  Matches.within hx hget hset

end Mirrors

end Act

end Syndicate
