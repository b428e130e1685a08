import Syndicate.Proofs.Dispatch.Links
import Syndicate.Proofs.Dispatch.Settle
import Syndicate.Proofs.Scheduler.Follow

/-! Two batches side by side, of tasks that correspond to one another. If the worlds of two sessions
answer alike and the posts of such tasks leave them so, the batches come to the same, on whichever
scheduler and whatever is still under way there. -/

namespace Syndicate

open Act (Agree Matches Mirrors)

namespace Act

variable {σ α α' β β' : Type}

/-- From related states two actions come to related results, and to related states. -/
def Relates (S : α → α' → Prop) (R : σ → σ → Prop) (x : Act σ α) (y : Act σ α') : Prop :=
  ∀ s t, R s t → Outcome.Rel S (x.outcome s).1 (y.outcome t).1 ∧ R (x.outcome s).2 (y.outcome t).2

variable {R : σ → σ → Prop} {S : α → α' → Prop} {U : β → β' → Prop}

theorem relates_eq {x y : Act σ α} : Relates Eq R x y ↔ Matches R x y := by
  have hrel : ∀ {o o' : Outcome α}, Outcome.Rel Eq o o' ↔ o' = o := by
    intro o o'
    refine ⟨fun h => ?_, fun h => h ▸ .refl (fun _ => rfl) o⟩
    cases h with
    | ok h => rw [h]
    | error f => rfl
  simp only [Relates, Matches, Agree, hrel]

namespace Relates

theorem bind {x : Act σ α} {y : Act σ α'} {f : α → Act σ β} {g : α' → Act σ β'}
    (hx : Relates S R x y) (hf : ∀ a b, S a b → Relates U R (f a) (g b)) :
    Relates U R (x >>= f) (y >>= g) := by
  intro s t h
  obtain ⟨ho, hr⟩ := hx s t h
  rw [outcome_bind, outcome_bind]
  cases hs : x.outcome s with
  | mk o s' =>
    cases ht : y.outcome t with
    | mk o' t' =>
      rw [hs, ht] at ho hr
      dsimp only at ho hr
      cases ho with
      | ok hab => exact hf _ _ hab s' t' hr
      | error f => exact ⟨.error f, hr⟩

/-- What comes after related results may come to the same. -/
theorem bind_matches {x : Act σ α} {y : Act σ α'} {f : α → Act σ β} {g : α' → Act σ β}
    (hx : Relates S R x y) (hf : ∀ a b, S a b → Matches R (f a) (g b)) :
    Matches R (x >>= f) (y >>= g) :=
  relates_eq.1 (hx.bind fun a b hab => relates_eq.2 (hf a b hab))

/-- What comes after the same result may come to related ones. -/
theorem of_mirrors {x : Act σ α} {f : α → Act σ β} {g : α → Act σ β'} (hx : Mirrors R x)
    (hf : ∀ a, Relates U R (f a) (g a)) : Relates U R (x >>= f) (x >>= g) :=
  (relates_eq.2 hx).bind fun a _ h => h ▸ hf a

theorem pure {a : α} {b : α'} (h : S a b) :
    Relates S R (Pure.pure a : Act σ α) (Pure.pure b : Act σ α') := fun _ _ hr => ⟨.ok h, hr⟩

end Relates

theorem Matches.modify {f g : σ → σ} (h : ∀ s t, R s t → R (f s) (g t)) :
    Matches R (modify f : Act σ PUnit) (modify g) := fun s t hst => ⟨rfl, h s t hst⟩

end Act

open Act (Relates)

/-- Tasks that correspond to one another go to the same adapter at the same time by the same rule,
and related worlds stay related while they are posted. -/
structure World.Accords (T : Task → Task → Prop) (R : World → World → Prop) : Prop where
  /-- Whatever has no task to it is the same in related worlds. -/
  echoes : World.Echoes (fun _ => False) R
  adapter : ∀ t t', T t t' → t'.adapter = t.adapter
  delay : ∀ t t', T t t' → t'.delay = t.delay
  rule : ∀ t t', T t t' → t'.rule = t.rule
  begin : ∀ u v, R u v → ∀ t t', T t t' → R (u.begin t) (v.begin t')
  publish : ∀ t t' clock, T t t' → Matches R (World.publish t clock) (World.publish t' clock)

namespace Session

/-- Two sessions side by side, in related worlds: their schedulers are at the same point of work
that matches. -/
structure Abreast (R : World → World → Prop) (s t : Session) : Prop where
  lane : t.lane = s.lane
  calls : t.calls = s.calls
  scheduler : Scheduler.Follows R [] 0 s.scheduler t.scheduler

variable {R : World → World → Prop} {S : Session → Session → Prop} {T : Task → Task → Prop}
  {s t : Session} {ts ts' : List Task} {u u' : Task} {α : Type}

/-! ### Verifying and publishing at once -/

namespace Links

variable (h : Links R S) (ha : World.Accords T R)
include h ha

theorem announce_matches (hu : T u u') : Matches S (Session.announce u) (Session.announce u') := by
  unfold Session.announce
  rw [ha.adapter u u' hu, ha.delay u u' hu, ha.rule u u' hu]
  exact h.announce ha.echoes u

theorem publishNow_matches (hu : T u u') : Matches S (Session.publishNow u) (Session.publishNow u') := by
  refine Matches.bind (Matches.modify fun s t hs => ?_) fun _ => ?_
  · exact h.setWorld s t hs _ _ (ha.begin _ _ (h.worlds s t hs) u u' hu)
  refine Matches.bind (Matches.modify fun s t hs => ?_) fun _ => ?_
  · rw [ha.adapter u u' hu, ha.echoes.time? (h.worlds s t hs)]
    exact h.sleep s t hs _
  · refine Matches.bind_get fun s t hs => ?_
    rw [h.clock s t hs]
    exact Matches.within (ha.publish u u' _ hu) h.worlds h.setWorld s t hs

theorem publishEach_matches (hts : List.Forall₂ T ts ts') :
    Matches S (Session.publishEach ts) (Session.publishEach ts') := by
  induction hts with
  | nil => exact Mirrors.pure _
  | cons hu _ ih =>
    refine Matches.bind (h.publishNow_matches ha hu) fun p => ?_
    refine Matches.bind (h.emit ha.echoes _) fun _ => ?_
    exact Matches.bind ih fun _ => Mirrors.pure _

variable (hv : ∀ name, Mirrors R (World.at_ name Station.verify))
include hv

theorem checkAll_matches (checks : Checks) (hts : List.Forall₂ T ts ts') :
    Matches S (Session.checkAll checks ts) (Session.checkAll checks ts') := by
  induction hts generalizing checks with
  | nil => exact Mirrors.pure _
  | cons hu _ ih =>
    unfold Session.checkAll
    rw [ha.adapter _ _ hu]
    exact Matches.bind (h.check ha.echoes hv checks _) fun r => ih r.2

/-- Of tasks that correspond to one another the same pass. -/
theorem survivors_relates (checks : Checks) (hts : List.Forall₂ T ts ts') :
    Relates (List.Forall₂ T) S (Session.survivors checks ts) (Session.survivors checks ts') := by
  induction hts generalizing checks with
  | nil => exact Relates.pure .nil
  | cons hu _ ih =>
    unfold Session.survivors
    rw [ha.adapter _ _ hu, ha.rule _ _ hu]
    refine Relates.of_mirrors (h.check ha.echoes hv checks _) fun r => ?_
    obtain ⟨passed, checks⟩ := r
    dsimp only
    split
    · exact (ih checks).bind fun _ _ hrest => Relates.pure (.cons hu hrest)
    · refine Relates.of_mirrors (h.adapterId ha.echoes _) fun id => ?_
      exact Relates.of_mirrors (h.emit ha.echoes _) fun _ => ih checks

theorem keptBy_relates (verify : Bool) (hts : List.Forall₂ T ts ts') :
    Relates (List.Forall₂ T) S (Session.keptBy verify ts) (Session.keptBy verify ts') := by
  cases verify with
  | false => exact Relates.pure hts
  | true =>
    refine (Act.relates_eq.2 (h.checkAll_matches ha hv [] hts)).bind fun cs _ heq => ?_
    exact heq ▸ h.survivors_relates ha hv cs hts

end Links

/-! ### Deferred tasks -/

namespace Abreast

theorem setScheduler (h : Abreast R s t) {m n : Scheduler World Publishing}
    (hm : Scheduler.Follows R [] 0 m n) : Abreast R (s.setScheduler m) (t.setScheduler n) :=
  ⟨h.lane, h.calls, hm⟩

theorem worlds (h : Abreast R s t) : R s.world t.world := h.scheduler.worlds

theorem links : Links R (Abreast R) where
  worlds _ _ h := h.worlds
  clock _ _ h := h.scheduler.clock
  setWorld _ _ h _ _ hr := ⟨h.lane, h.calls, h.scheduler.inWorld hr⟩
  sleep _ _ h time := h.setScheduler (h.scheduler.sleep time)

/-- Jobs have the same numbers in both. -/
theorem map_places (jobs : List Nat) :
    jobs.map (· + ([] : List (Job World Publishing)).length) = jobs := List.map_id jobs

theorem waitFirst {m n : Scheduler World Publishing} (h : Scheduler.Follows R [] 0 m n)
    (jobs : List Nat) : Scheduler.Follows R [] 0 (m.waitFirst jobs) (n.waitFirst jobs) := by
  simpa only [map_places] using h.waitFirst jobs

theorem waitAll {m n : Scheduler World Publishing} (h : Scheduler.Follows R [] 0 m n)
    (jobs : List Nat) : Scheduler.Follows R [] 0 (m.waitAll jobs) (n.waitAll jobs) := by
  simpa only [map_places] using h.waitAll jobs

theorem cancel {m n : Scheduler World Publishing} (h : Scheduler.Follows R [] 0 m n)
    (jobs : List Nat) : Scheduler.Follows R [] 0 (m.cancel jobs) (n.cancel jobs) := by
  simpa only [map_places] using h.cancel jobs

end Abreast

theorem cancelJobs_abreast (jobs : List Nat) : Mirrors (Abreast R) (cancelJobs jobs) := by
  refine Mirrors.modify fun s t h => ?_
  rw [h.lane]
  split
  · exact ⟨rfl, by rw [h.calls], h.scheduler⟩
  · exact h.setScheduler (Abreast.cancel h.scheduler jobs)

theorem results_abreast (h : Abreast R s t) (jobs : List Nat) :
    results t.scheduler jobs = results s.scheduler jobs := by
  induction jobs with
  | nil => rfl
  | cons i jobs ih =>
    have hfuture : t.scheduler.future i = s.scheduler.future i := h.scheduler.future i
    rw [results, results, hfuture, ih]

theorem settle_abreast (jobs : List Nat) : Mirrors (Abreast R) (settle jobs) := by
  have hsettled : ∀ s t, Abreast R s t → t.scheduler.hasSettled = s.scheduler.hasSettled :=
    fun s t h => funext h.scheduler.hasSettled
  refine Mirrors.bind (Mirrors.modify fun s t h => ?_) fun _ => ?_
  · exact h.setScheduler (Abreast.waitFirst h.scheduler jobs)
  · refine Mirrors.bind_get fun s t h => ?_
    have hfailure : t.scheduler.failure? = s.scheduler.failure? := funext h.scheduler.failure?
    rw [firstFailure?, firstFailure?, hfailure]
    split
    · refine haveSettled_mirrors hsettled jobs ?_ s t h
      refine Mirrors.bind_get fun s t h => ?_
      rw [results_abreast h]
      exact Mirrors.ofOutcome _ s t h
    · refine Mirrors.bind (cancelJobs_abreast jobs) (fun _ => ?_) s t h
      refine Mirrors.bind (Mirrors.modify fun s t h => ?_) fun _ => ?_
      · exact h.setScheduler (Abreast.waitAll h.scheduler jobs)
      · exact haveSettled_mirrors hsettled jobs (Mirrors.throw _)

section Accords

variable (ha : World.Accords T R)
include ha

/-- The work of tasks that correspond to one another matches in related worlds. -/
theorem work_matches (hu : T u u') {w w' : World} (h : R w w') :
    (w.work u).Matches R (w'.work u') where
  duration := by
    show (w'.rest? u'.adapter).getD 0 = (w.rest? u.adapter).getD 0
    rw [ha.adapter u u' hu, ha.echoes.rest? w w' h]
  lag _ _ hr := ha.echoes.lag _ _ hr
  enter _ _ _ hr := ha.begin _ _ hr u u' hu
  result clock _ _ hr := (ha.publish u u' clock hu _ _ hr).1
  leave clock _ _ hr := (ha.publish u u' clock hu _ _ hr).2

theorem submitJob_abreast (hu : T u u') :
    Matches (Abreast R) (submitJob u) (submitJob u') := by
  refine Matches.bind_get fun s t h => ?_
  rw [h.scheduler.settings, ha.delay u u' hu]
  refine Matches.bind (Abreast.links.writeAll ha.echoes _) (fun _ => ?_) s t h
  refine Matches.bind_get fun s t h => ?_
  rcases h.scheduler.submit (work_matches ha hu h.worlds) u.delay with
    ⟨f, hs, ht⟩ | ⟨i, m, n, hs, ht, hm⟩
  · rw [hs, ht]
    exact ⟨rfl, h⟩
  · rw [hs, ht]
    exact ⟨rfl, h.setScheduler hm⟩

theorem submitInline_abreast (hu : T u u') :
    Matches (Abreast R) (submitInline u) (submitInline u') := by
  refine Matches.bind (Matches.modify fun s t h => ?_) fun _ => ?_
  · rw [ha.delay u u' hu]
    exact ⟨h.lane, by rw [h.calls], h.scheduler⟩
  · refine Matches.bind_get fun s t h => ?_
    obtain ⟨ho, hnow⟩ := Abreast.links.publishNow_matches ha hu s t h
    obtain ⟨hi, hended⟩ := hnow.scheduler.submitEnded (work_matches ha hu h.worlds)
      ((publishNow u).outcome s).1
    dsimp only
    rw [ho]
    exact ⟨congrArg Except.ok hi, hnow.setScheduler hended⟩

theorem submit_abreast (hu : T u u') : Matches (Abreast R) (submit u) (submit u') := by
  refine Matches.bind_get fun s t h => ?_
  rw [h.lane]
  split
  · exact submitInline_abreast ha hu s t h
  · exact submitJob_abreast ha hu s t h

theorem submitAll_abreast (hts : List.Forall₂ T ts ts') :
    Matches (Abreast R) (submitAll ts) (submitAll ts') := by
  induction hts with
  | nil => exact Mirrors.pure _
  | cons hu _ ih =>
    refine Matches.bind (Abreast.links.announce_matches ha hu) fun _ => ?_
    refine Matches.bind (submit_abreast ha hu) fun i => ?_
    exact Matches.bind ih fun _ => Mirrors.pure _

theorem publishDeferred_abreast (hts : List.Forall₂ T ts ts') :
    Matches (Abreast R) (publishDeferred ts) (publishDeferred ts') :=
  Matches.bind (submitAll_abreast ha hts) settle_abreast

/-! ### Batches -/

omit ha in
theorem withOwnScheduler_abreast {x y : Act Session α} (hx : Matches (Abreast R) x y) :
    Matches (Abreast R) (withOwnScheduler x) (withOwnScheduler y) := by
  intro s t h
  have hopened : Abreast R s.opened t.opened := by
    rw [opened, opened, h.lane]
    split
    · have hown : t.ownSettings = s.ownSettings := by
        rw [ownSettings, ownSettings, h.scheduler.settings]
      rw [hown]
      exact h.setScheduler (h.scheduler.renew s.ownSettings)
    · exact h
  obtain ⟨ho, hafter⟩ := hx _ _ hopened
  rw [outcome_withOwnScheduler, outcome_withOwnScheduler, h.lane]
  refine ⟨ho, ?_⟩
  dsimp only
  rw [shut, shut]
  split
  · exact hafter.setScheduler hafter.scheduler.close
  · exact hafter

/-- Tasks that correspond to one another are split alike. -/
theorem upToLane_relates (hv : ∀ name, Mirrors R (World.at_ name Station.verify)) (verify : Bool)
    (hts : List.Forall₂ T ts ts') :
    Relates (fun r r' => r'.1 = r.1 ∧ List.Forall₂ T r.2 r'.2) (Abreast R) (upToLane verify ts)
      (upToLane verify ts') := by
  have hsame : ∀ t t', T t t' → t'.isImmediate = t.isImmediate := fun t t' h => by
    rw [Task.isImmediate, Task.isImmediate, ha.delay t t' h]
  refine (Abreast.links.keptBy_relates ha hv verify hts).bind fun kept kept' hkept => ?_
  have hnow := List.rel_filter (p := Task.isImmediate) (q := Task.isImmediate)
    (fun t t' h => by dsimp only; rw [hsame t t' h]) hkept
  have hlater := List.rel_filter (p := fun t => !t.isImmediate) (q := fun t => !t.isImmediate)
    (fun t t' h => by dsimp only; rw [hsame t t' h]) hkept
  dsimp only
  rw [hnow.length_eq, hlater.length_eq]
  refine Relates.of_mirrors (Abreast.links.write ha.echoes _) fun _ => ?_
  refine (Act.relates_eq.2 (Abreast.links.publishEach_matches ha hnow)).bind fun first _ h => ?_
  exact Relates.pure ⟨h.symm, hlater⟩

theorem afterLane_abreast {first : List Publishing} (hts : List.Forall₂ T ts ts') :
    Matches (Abreast R) (afterLane (first, ts)) (afterLane (first, ts')) := by
  have hdeferred := withOwnScheduler_abreast (publishDeferred_abreast ha hts)
  unfold afterLane
  cases hts with
  | nil => exact Mirrors.pure _
  | cons hu hrest =>
    rw [if_neg (List.cons_ne_nil _ _), if_neg (List.cons_ne_nil _ _)]
    refine Matches.bind hdeferred fun later => ?_
    exact Matches.bind (Abreast.links.reportAll ha.echoes later) fun _ => Mirrors.pure _

/-- Batches of tasks that correspond to one another come to the same, if verifying does. -/
theorem execute_abreast (hv : ∀ name, Mirrors R (World.at_ name Station.verify)) (verify : Bool)
    (hts : List.Forall₂ T ts ts') :
    Matches (Abreast R) (execute verify ts) (execute verify ts') := by
  rw [execute_eq, execute_eq]
  refine (upToLane_relates ha hv verify hts).bind_matches fun r r' hr => ?_
  obtain ⟨first, later⟩ := r
  obtain ⟨first', later'⟩ := r'
  obtain ⟨rfl, hlater⟩ : first' = first ∧ List.Forall₂ T later later' := hr
  exact afterLane_abreast ha hlater

end Accords

end Session

end Syndicate
