import Syndicate.Proofs.Adapter.Alike
import Syndicate.Proofs.Dispatch.Execute
import Syndicate.Proofs.Dispatch.Links
import Syndicate.Proofs.Scheduler.Twins

/-! Two runs of a batch whose worlds differ in what was done before it and in how often adapters
were verified. Both publish and tell the same, and come to the same. -/

namespace Syndicate

open Act (Agree Mirrors)

namespace World

/-- Two worlds whose adapters are the same but for the counts of verifications, and in which, since
they were `a` and `b`, the same was done and the same posts got anywhere, all of certain tasks. -/
structure Alike (T : Task → Prop) (k : String → Nat) (a b u v : World) : Prop where
  adapters : ∀ name,
    v.adapters.lookup name = (u.adapters.lookup name).map (Adapter.withCalls (k name))
  site : Site.Alike a.site b.site u.site v.site
  posts : ∃ ps, u.posts = a.posts ++ ps ∧ v.posts = b.posts ++ ps ∧ ∀ p ∈ ps, T p.task
  length : v.posts.length = u.posts.length
  pace : v.pace = u.pace

namespace Alike

variable {T : Task → Prop} {k : String → Nat} {a b u v : World} {t : Task} {α : Type}

theorem adapter (h : Alike T k a b u v) (name : String) :
    Outcome.Rel (fun x y => y = x.withCalls (k name)) (u.adapter name) (v.adapter name) := by
  refine adapter_rel ?_
  rw [h.adapters]
  cases u.adapters.lookup name with
  | none => exact .none
  | some x => exact .some rfl

theorem adapterId (h : Alike T k a b u v) (name : String) : v.adapterId name = u.adapterId name :=
  adapterId_eq_of_rel (h.adapter name) fun x _ hy => hy ▸ x.id_withCalls (k name)

theorem rest? (h : Alike T k a b u v) (name : String) : v.rest? name = u.rest? name :=
  rest?_eq_of_rel (h.adapter name) fun x _ hy => hy ▸ x.rest?_withCalls (k name)

theorem lag (h : Alike T k a b u v) : v.lag = u.lag := by
  rw [World.lag, World.lag, h.pace, h.length]

theorem emit (h : Alike T k a b u v) (e : Event) : Alike T k a b (u.emit e) (v.emit e) :=
  ⟨h.adapters, h.site.emit e, h.posts, h.length, h.pace⟩

theorem write (h : Alike T k a b u v) (r : Record) : Alike T k a b (u.write r) (v.write r) :=
  ⟨h.adapters, h.site.write r, h.posts, h.length, h.pace⟩

theorem note (h : Alike T k a b u v) (ht : T t) (stage : Stage) :
    Alike T k a b (u.note t stage) (v.note t stage) := by
  obtain ⟨ps, hu, hv, hps⟩ := h.posts
  refine ⟨h.adapters, h.site, ⟨ps ++ [⟨t, stage⟩], ?_, ?_, fun p hp => ?_⟩, ?_, h.pace⟩
  · simp only [World.note, hu, List.append_assoc]
  · simp only [World.note, hv, List.append_assoc]
  · rcases List.mem_append.1 hp with hp | hp
    · exact hps p hp
    · rw [List.mem_singleton.1 hp]
      exact ht
  · simp only [World.note, List.length_append, h.length]

/-- The adapter under a name changes in both in the same way. -/
theorem put (h : Alike T k a b u v) (name : String) {x y : Station}
    (hs : Station.Alike (k name) a.site b.site x y) :
    Alike T k a b { u with adapters := u.adapters.put name x.adapter, site := x.site }
      { v with adapters := v.adapters.put name y.adapter, site := y.site } := by
  refine ⟨fun other => ?_, hs.site, h.posts, h.length, h.pace⟩
  show (v.adapters.put name y.adapter).lookup other =
    ((u.adapters.put name x.adapter).lookup other).map _
  rw [Registry.lookup_put, Registry.lookup_put, hs.adapter]
  split
  · rename_i ho
    rw [ho]
    rfl
  · exact h.adapters other

theorem enter (h : Alike T k a b u v) (name : String) :
    Alike T k a b (u.enter name) (v.enter name) :=
  enter_rel (h.adapter name) h fun x y hy => h.put (x := ⟨x.enter, u.site⟩) (y := ⟨y.enter, v.site⟩)
    name ⟨hy ▸ x.enter_withCalls (k name), h.site⟩

theorem begin (h : Alike T k a b u v) (ht : T t) : Alike T k a b (u.begin t) (v.begin t) :=
  (h.note ht .begun).enter t.adapter

theorem at_mirrors (name : String) {x : Act Station α}
    (hx : Mirrors (Station.Alike (k name) a.site b.site) x) :
    Mirrors (Alike T k a b) (at_ name x) := fun _ _ h =>
  at_agree (h.adapter name) h (fun _ _ hy => hx _ _ ⟨hy, h.site⟩) fun _ _ => h.put name

theorem publish_mirrors (ht : T t) (clock : Nat) :
    Mirrors (Alike T k a b) (publish t clock) := by
  have hpost : Mirrors (Alike T k a b) (post t clock) := fun u v h => by
    obtain ⟨ho, hs⟩ := at_mirrors t.adapter (Station.publish_mirrors clock t.content) u v h
    rw [outcome_post, outcome_post, ho]
    exact ⟨rfl, hs.note ht _⟩
  refine Mirrors.bind hpost fun ref => Mirrors.bind_get fun u v h => ?_
  rw [h.adapterId]
  exact Mirrors.bind (Mirrors.ofOutcome _) (fun id => Mirrors.pure _) u v h

theorem echoes : Echoes T (Alike T k a b) where
  adapterId _ _ h name := h.adapterId name
  rest? _ _ h name := h.rest? name
  lag _ _ h := h.lag
  emit _ _ h e := h.emit e
  write _ _ h r := h.write r
  begin _ _ h _ ht := h.begin ht
  publish _ clock ht := publish_mirrors ht clock

end Alike

namespace Echoes

variable {T : Task → Prop} {R : World → World → Prop} {t : Task}

/-- The work of a task is the same in related worlds. -/
theorem work (hr : Echoes T R) {u v : World} (h : R u v) (t : Task) : v.work t = u.work t := by
  rw [World.work, World.work, hr.rest? u v h]

theorem pairs (hr : Echoes T R) (ht : T t) (w : World) : (w.work t).Pairs R where
  enter _ u v h := hr.begin u v h t ht
  lag u v h := (hr.lag u v h).symm
  leave clock u v h := hr.publish t clock ht u v h

end Echoes

end World

/-- Two sessions that differ in their worlds only, which stay related. -/
structure Session.Twins (R : World → World → Prop) (s t : Session) : Prop where
  lane : t.lane = s.lane
  calls : t.calls = s.calls
  scheduler : s.scheduler.Twins R t.scheduler

namespace Session

open Scheduler

namespace Twins

section

variable {R : World → World → Prop} {s t : Session} {α : Type}

theorem worlds (h : Twins R s t) : R s.world t.world := h.scheduler.worlds

theorem setWorld (h : Twins R s t) {u v : World} (hr : R u v) :
    Twins R (s.setWorld u) (t.setWorld v) :=
  ⟨h.lane, h.calls, h.scheduler.withWorld hr⟩

theorem setScheduler (h : Twins R s t) {m n : Scheduler World Publishing} (hm : m.Twins R n) :
    Twins R (s.setScheduler m) (t.setScheduler n) :=
  ⟨h.lane, h.calls, hm⟩

theorem links : Links R (Twins R) where
  worlds _ _ h := h.worlds
  clock _ _ h := h.scheduler.clock
  setWorld _ _ h _ _ hr := h.setWorld hr
  sleep _ _ h time := h.setScheduler (h.scheduler.sleep time)

end

end Twins

variable {T : Task → Prop} {R : World → World → Prop} {s t : Session} {u : Task} {ts : List Task}
  {α : Type}

/-! ### Deferred tasks -/

section Echoes

variable (hr : World.Echoes T R)
include hr

end Echoes

/-! ### Batches -/

/-- A session between batches or in one: a scheduler is made for a batch only when nothing is left
of the last one. -/
structure Steady (s : Session) : Prop where
  sound : s.scheduler.Sound
  idle : s.lane = .own → s.scheduler.Idle

theorem Steady.evolves (h : s.Steady) (he : s.Evolves t) : t.Steady := by
  obtain ⟨ops, hops, hm⟩ := he.ops
  refine ⟨?_, fun hl => ?_⟩
  · rw [hm]
    exact h.sound.run ops
  · rw [hm]
    exact (h.idle (he.lane ▸ hl)).run hops

end Session

end Syndicate
