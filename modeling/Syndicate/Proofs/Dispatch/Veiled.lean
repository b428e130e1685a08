import Syndicate.Proofs.Adapter.Veiled
import Syndicate.Proofs.Dispatch.Twins

/-! Batches in two worlds whose adapters differ in the tokens they sign in with. What is verified,
told and posted is the same in both. -/

namespace Syndicate

open Act (Agree Mirrors)

/-- Two registries with the same adapters, but for their tokens. -/
def Registry.Veiled (r r' : Registry) : Prop :=
  ∀ name, Option.Rel Adapter.Veiled (r.lookup name) (r'.lookup name)

namespace Registry.Veiled

variable {r r' : Registry}

theorem nil : Registry.Veiled [] [] := fun _ => .none

theorem isSome (h : r.Veiled r') (name : String) :
    (r'.lookup name).isSome = (r.lookup name).isSome := by
  have hname := h name
  generalize r.lookup name = o at hname ⊢
  generalize r'.lookup name = o' at hname ⊢
  cases hname <;> rfl

theorem put (h : r.Veiled r') (name : String) {a b : Adapter} (hab : a.Veiled b) :
    (r.put name a).Veiled (r'.put name b) := Registry.lookup_put_rel h hab name

end Registry.Veiled

namespace World

variable {p : Veil} {u v : World} {α : Type}

/-- Two worlds that tell the same and in which the same posts got anywhere, by the same adapters but
for their tokens. -/
structure Veiled (p : Veil) (u v : World) : Prop where
  adapters : u.adapters.Veiled v.adapters
  site : u.site.Veiled p v.site
  posts : v.posts = u.posts
  pace : v.pace = u.pace

namespace Veiled

theorem adapter (h : Veiled p u v) (name : String) :
    Outcome.Rel Adapter.Veiled (u.adapter name) (v.adapter name) := adapter_rel (h.adapters name)

theorem adapterId (h : Veiled p u v) (name : String) : v.adapterId name = u.adapterId name :=
  adapterId_eq_of_rel (h.adapter name) fun _ _ => Adapter.Veiled.id

theorem rest? (h : Veiled p u v) (name : String) : v.rest? name = u.rest? name :=
  rest?_eq_of_rel (h.adapter name) fun _ _ => Adapter.Veiled.rest?

theorem lag (h : Veiled p u v) : v.lag = u.lag := by
  rw [World.lag, World.lag, h.pace, h.posts]

theorem emit (h : Veiled p u v) (e : Event) : Veiled p (u.emit e) (v.emit e) :=
  ⟨h.adapters, h.site.emit e, h.posts, h.pace⟩

theorem write (h : Veiled p u v) (r : Record) : Veiled p (u.write r) (v.write r) :=
  ⟨h.adapters, h.site.write r, h.posts, h.pace⟩

theorem note (h : Veiled p u v) (t : Task) (stage : Stage) :
    Veiled p (u.note t stage) (v.note t stage) :=
  ⟨h.adapters, h.site, congrArg (· ++ [Posting.mk t stage]) h.posts, h.pace⟩

/-- The adapter under a name changes in both in the same way. -/
theorem put (h : Veiled p u v) (name : String) {x y : Station} (hs : x.Veiled p y) :
    Veiled p { u with adapters := u.adapters.put name x.adapter, site := x.site }
      { v with adapters := v.adapters.put name y.adapter, site := y.site } :=
  ⟨h.adapters.put name hs.adapter, hs.site, h.posts, h.pace⟩

theorem begin (h : Veiled p u v) (t : Task) : Veiled p (u.begin t) (v.begin t) := by
  have hn := h.note t .begun
  exact enter_rel (hn.adapter t.adapter) hn fun a b hab =>
    ⟨hn.adapters.put t.adapter hab.enter, hn.site, hn.posts, hn.pace⟩

theorem at_mirrors (name : String) {x : Act Station α} (hx : Mirrors (Station.Veiled p) x) :
    Mirrors (Veiled p) (at_ name x) := fun _ _ h =>
  at_agree (h.adapter name) h (fun _ _ hab => hx _ _ ⟨hab, h.site⟩) fun _ _ => h.put name

theorem publish_mirrors (t : Task) (clock : Nat) : Mirrors (Veiled p) (publish t clock) := by
  have hpost : Mirrors (Veiled p) (post t clock) := fun u v h => by
    obtain ⟨ho, hs⟩ := at_mirrors t.adapter (Station.publish_veiled clock t.content) u v h
    rw [outcome_post, outcome_post, ho]
    exact ⟨rfl, hs.note t _⟩
  refine Mirrors.bind hpost fun ref => Mirrors.bind_get fun u v h => ?_
  rw [h.adapterId]
  exact Mirrors.bind (Mirrors.ofOutcome _) (fun id => Mirrors.pure _) u v h

theorem echoes : Echoes (fun _ => True) (Veiled p) where
  adapterId _ _ h name := h.adapterId name
  rest? _ _ h name := h.rest? name
  lag _ _ h := h.lag
  emit _ _ h e := h.emit e
  write _ _ h r := h.write r
  begin _ _ h t _ := h.begin t
  publish t clock _ := publish_mirrors t clock

end Veiled

end World

namespace Session

variable {p : Veil} {s t : Session}

/-- Two sessions that differ in such worlds only. -/
abbrev Veiled (p : Veil) (s t : Session) : Prop :=
  Twins (World.Veiled p) s t

end Session

end Syndicate
