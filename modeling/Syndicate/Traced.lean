import Syndicate.Journal

/-! Computations that report events on their way. The events before a failure are kept. -/

namespace Syndicate

structure Traced (α : Type) where
  events : List Event := []
  outcome : Outcome α

namespace Traced

variable {α β : Type}

def bind (x : Traced α) (f : α → Traced β) : Traced β :=
  match x.outcome with
  | .ok a => ⟨x.events ++ (f a).events, (f a).outcome⟩
  | .error e => ⟨x.events, .error e⟩

instance : Monad Traced where
  pure a := ⟨[], .ok a⟩
  bind := bind

def ofOutcome (x : Outcome α) : Traced α := ⟨[], x⟩

def report (e : Event) : Traced Unit := ⟨[e], .ok ()⟩

theorem pure_bind (a : α) (f : α → Traced β) : bind (pure a) f = f a := rfl

theorem bind_pure (x : Traced α) : bind x pure = x := by
  obtain ⟨es, o⟩ := x
  cases o <;> simp [bind, pure]

theorem bind_assoc {γ : Type} (x : Traced α) (f : α → Traced β) (g : β → Traced γ) :
    bind (bind x f) g = bind x fun a => bind (f a) g := by
  obtain ⟨es, o⟩ := x
  cases o with
  | error e => rfl
  | ok a => simp only [bind]; cases (f a).outcome <;> simp

end Traced

end Syndicate
