import Syndicate.Proofs.Dispatch.Gate

/-! The same batch in two sessions. What it verifies, reports and publishes at once comes to the same
in both as long as their worlds answer alike. -/

namespace Syndicate

open Act (Agree Mirrors)

/-- Related worlds answer alike, and stay related while tasks of a kind are reported and
published. -/
structure World.Echoes (T : Task → Prop) (R : World → World → Prop) : Prop where
  adapterId : ∀ u v, R u v → ∀ name, v.adapterId name = u.adapterId name
  rest? : ∀ u v, R u v → ∀ name, v.rest? name = u.rest? name
  lag : ∀ u v, R u v → v.lag = u.lag
  emit : ∀ u v, R u v → ∀ e, R (u.emit e) (v.emit e)
  write : ∀ u v, R u v → ∀ r, R (u.write r) (v.write r)
  begin : ∀ u v, R u v → ∀ t, T t → R (u.begin t) (v.begin t)
  publish : ∀ t clock, T t → Mirrors R (World.publish t clock)

theorem World.Echoes.time? {T : Task → Prop} {R : World → World → Prop} (h : World.Echoes T R)
    {u v : World} (hr : R u v) (name : String) : v.time? name = u.time? name := by
  rw [World.time?, World.time?, h.lag u v hr, h.rest? u v hr]

theorem mirrors_eq {σ α : Type} (x : Act σ α) : Mirrors Eq x := by
  rintro s t rfl
  exact ⟨rfl, rfl⟩

/-- One and the same world answers as it does. -/
theorem World.echoes_eq (T : Task → Prop) : World.Echoes T Eq where
  adapterId := by rintro u v rfl name; rfl
  rest? := by rintro u v rfl name; rfl
  lag := by rintro u v rfl; rfl
  emit := by rintro u v rfl e; rfl
  write := by rintro u v rfl r; rfl
  begin := by rintro u v rfl t -; rfl
  publish t clock _ := mirrors_eq _

namespace Session

/-- Related sessions have related worlds and the same time, and stay related while the worlds do and
time passes. -/
structure Links (R : World → World → Prop) (S : Session → Session → Prop) : Prop where
  worlds : ∀ s t, S s t → R s.world t.world
  clock : ∀ s t, S s t → t.scheduler.clock = s.scheduler.clock
  setWorld : ∀ s t, S s t → ∀ u v, R u v → S (s.setWorld u) (t.setWorld v)
  sleep : ∀ s t, S s t → ∀ time,
    S (s.setScheduler (s.scheduler.sleep time)) (t.setScheduler (t.scheduler.sleep time))

/-- Sessions that know of the same jobs how they ended go on alike after waiting for them. -/
theorem haveSettled_mirrors {S : Session → Session → Prop} {α : Type}
    (h : ∀ s t, S s t → t.scheduler.hasSettled = s.scheduler.hasSettled) (jobs : List Nat)
    {x : Act Session α} (hx : Mirrors S x) :
    Mirrors S (get >>= fun s => Act.ofOutcome (haveSettled s.scheduler jobs) >>= fun _ => x) := by
  refine Mirrors.bind_get fun s t hs => ?_
  rw [haveSettled, haveSettled, h s t hs]
  exact Mirrors.bind (Mirrors.ofOutcome _) (fun _ => hx) s t hs

namespace Links

variable {R : World → World → Prop} {S : Session → Session → Prop} {T : Task → Prop}
  {ts : List Task} {u : Task} {α : Type}

theorem inWorld (h : Links R S) {x : Act World α} (hx : Mirrors R x) : Mirrors S (inWorld x) :=
  Mirrors.within hx h.worlds h.setWorld

section Echoes

variable (h : Links R S) (hr : World.Echoes T R)
include h hr

/-! ### Reporting -/

theorem emit (e : Event) : Mirrors S (emit e) := by
  unfold Session.emit
  split
  · exact Mirrors.modify fun s t hs => h.setWorld s t hs _ _ (hr.emit _ _ (h.worlds s t hs) e)
  · exact Mirrors.throw _

theorem write (r : Record) : Mirrors S (write r) :=
  Mirrors.modify fun s t hs => h.setWorld s t hs _ _ (hr.write _ _ (h.worlds s t hs) r)

theorem writeAll (rs : List Record) : Mirrors S (writeAll rs) := by
  induction rs with
  | nil => exact Mirrors.pure _
  | cons r rs ih => exact Mirrors.bind (h.write hr r) fun _ => ih

theorem adapterId (name : String) : Mirrors S (adapterId name) := by
  refine Mirrors.bind_get fun s t hs => ?_
  rw [hr.adapterId _ _ (h.worlds s t hs)]
  exact Mirrors.ofOutcome _ s t hs

theorem announce (t : Task) : Mirrors S (announce t) :=
  Mirrors.bind (h.adapterId hr t.adapter) fun _ => h.emit hr _

theorem reportAll (ps : List Publishing) : Mirrors S (reportAll ps) := by
  induction ps with
  | nil => exact Mirrors.pure _
  | cons p ps ih => exact Mirrors.bind (h.emit hr _) fun _ => ih

/-! ### Publishing at once -/

theorem publishNow (hu : T u) : Mirrors S (publishNow u) := by
  refine Mirrors.bind (Mirrors.modify fun s t hs => ?_) fun _ => ?_
  · exact h.setWorld s t hs _ _ (hr.begin _ _ (h.worlds s t hs) u hu)
  refine Mirrors.bind (Mirrors.modify fun s t hs => ?_) fun _ => ?_
  · rw [hr.time? (h.worlds s t hs)]
    exact h.sleep s t hs _
  · refine Mirrors.bind_get fun s t hs => ?_
    rw [h.clock s t hs]
    exact h.inWorld (hr.publish u _ hu) s t hs

theorem publishEach (hts : ∀ u ∈ ts, T u) : Mirrors S (publishEach ts) := by
  induction ts with
  | nil => exact Mirrors.pure _
  | cons u ts ih =>
    obtain ⟨hu, hts⟩ := List.forall_mem_cons.1 hts
    refine Mirrors.bind (h.publishNow hr hu) fun p => ?_
    refine Mirrors.bind (h.emit hr _) fun _ => ?_
    exact Mirrors.bind (ih hts) fun _ => Mirrors.pure _

/-! ### Verifying -/

section Verified

variable (hv : ∀ name, Mirrors R (World.at_ name Station.verify))
include hv

omit hr in
theorem verdictOf (name : String) : Mirrors S (verdictOf name) := by
  intro s t hs
  obtain ⟨ho, hafter⟩ := hv name s.world t.world (h.worlds s t hs)
  rw [outcome_verdictOf, outcome_verdictOf, ho]
  cases Answer.of ((World.at_ name Station.verify).outcome s.world).1 <;>
    exact ⟨rfl, h.setWorld s t hs _ _ hafter⟩

theorem check (checks : Checks) (name : String) : Mirrors S (check checks name) := by
  unfold Session.check
  split
  · exact Mirrors.pure _
  · refine Mirrors.bind (h.verdictOf hv name) fun verdict => ?_
    split
    · exact Mirrors.pure _
    · refine Mirrors.bind (h.adapterId hr name) fun id => ?_
      exact Mirrors.bind (h.emit hr _) fun _ => Mirrors.pure _

theorem checkAll (checks : Checks) (ts : List Task) : Mirrors S (checkAll checks ts) := by
  induction ts generalizing checks with
  | nil => exact Mirrors.pure _
  | cons t ts ih => exact Mirrors.bind (h.check hr hv checks _) fun r => ih r.2

theorem survivors (checks : Checks) (ts : List Task) : Mirrors S (survivors checks ts) := by
  induction ts generalizing checks with
  | nil => exact Mirrors.pure _
  | cons t ts ih =>
    refine Mirrors.bind (h.check hr hv checks _) fun r => ?_
    obtain ⟨passed, checks⟩ := r
    dsimp only
    split
    · exact Mirrors.bind (ih checks) fun _ => Mirrors.pure _
    · refine Mirrors.bind (h.adapterId hr _) fun id => ?_
      exact Mirrors.bind (h.emit hr _) fun _ => ih checks

theorem keptBy (verify : Bool) (ts : List Task) : Mirrors S (keptBy verify ts) := by
  cases verify with
  | false => exact Mirrors.pure _
  | true => exact Mirrors.bind (h.checkAll hr hv [] ts) fun cs => h.survivors hr hv cs ts

end Verified

end Echoes

end Links

end Session

end Syndicate
