import Syndicate.Proofs.Act
import Syndicate.Proofs.Scheduler.Run

/-! Two schedulers that are the same but for their worlds, which are related. If the work of their
jobs comes to the same in related worlds and leaves them related, whatever is asked of both keeps
them so. -/

namespace Syndicate

variable {σ ρ : Type} {R : σ → σ → Prop}

/-- In related worlds the work of a job comes to the same, and leaves them related. -/
structure Work.Pairs (R : σ → σ → Prop) (work : Work σ ρ) : Prop where
  enter : ∀ clock u v, R u v → R (work.enter clock u) (work.enter clock v)
  lag : ∀ u v, R u v → work.lag u = work.lag v
  leave : ∀ clock u v, R u v → Act.Agree R (work.leave clock u) (work.leave clock v)

/-- In related worlds the work of a job takes equally long. -/
theorem Work.Pairs.span {work : Work σ ρ} (h : work.Pairs R) {u v : σ} (hr : R u v) :
    work.span u = work.span v :=
  congrArg (work.duration + ·) (h.lag u v hr)

/-- The work of a job that is not over keeps worlds related. -/
def Job.Pairs (R : σ → σ → Prop) (job : Job σ ρ) : Prop :=
  job.phase.isOver = false → job.work.Pairs R

namespace Scheduler

variable {m n : Scheduler σ ρ} {i : Nat} {job : Job σ ρ}

/-- A scheduler in another world. -/
def withWorld (m : Scheduler σ ρ) (w : σ) : Scheduler σ ρ := { m with world := w }

/-- Two schedulers differ in their worlds only, which are related. -/
structure Alike (R : σ → σ → Prop) (m n : Scheduler σ ρ) : Prop where
  same : n = m.withWorld n.world
  worlds : R m.world n.world

namespace Alike

/-- What does not look at the world treats both in the same way. -/
theorem map (h : Alike R m n) (f : Scheduler σ ρ → Scheduler σ ρ)
    (hf : ∀ w, f (m.withWorld w) = (f m).withWorld w) : Alike R (f m) (f n) := by
  have hn : f n = (f m).withWorld n.world := by
    rw [← hf, ← h.same]
  have hm : (f m).world = m.world := by
    have hw : f m = (f m).withWorld m.world := hf m.world
    rw [hw]
    rfl
  refine ⟨by rw [hn]; rfl, ?_⟩
  rw [hm, hn]
  exact h.worlds

theorem withWorld (h : Alike R m n) {u v : σ} (hr : R u v) :
    Alike R (m.withWorld u) (n.withWorld v) := by
  refine ⟨?_, hr⟩
  rw [h.same]
  rfl

/-- What does not look at the world is the same in both. -/
theorem reads {α : Type} (h : Alike R m n) (f : Scheduler σ ρ → α)
    (hf : ∀ w, f (m.withWorld w) = f m) : f n = f m :=
  (congrArg f h.same).trans (hf n.world)

theorem clock (h : Alike R m n) : n.clock = m.clock := h.reads Scheduler.clock fun _ => rfl

theorem queue (h : Alike R m n) : n.queue = m.queue := h.reads Scheduler.queue fun _ => rfl

theorem jobs (h : Alike R m n) : n.jobs = m.jobs := h.reads Scheduler.jobs fun _ => rfl

theorem slots (h : Alike R m n) : n.slots = m.slots := h.reads Scheduler.slots fun _ => rfl

theorem pending (h : Alike R m n) : n.pending = m.pending :=
  h.reads Scheduler.pending fun _ => rfl

theorem threads (h : Alike R m n) : n.threads = m.threads :=
  h.reads Scheduler.threads fun _ => rfl

theorem settings (h : Alike R m n) : n.settings = m.settings :=
  h.reads Scheduler.settings fun _ => rfl

theorem next? (h : Alike R m n) : n.next? = m.next? := h.reads Scheduler.next? fun _ => rfl

theorem bound (h : Alike R m n) : n.bound = m.bound := h.reads Scheduler.bound fun _ => rfl

theorem future (h : Alike R m n) : n.future = m.future := h.reads Scheduler.future fun _ => rfl

theorem failure? (h : Alike R m n) : n.failure? = m.failure? :=
  h.reads Scheduler.failure? fun _ => rfl

theorem hasSettled (h : Alike R m n) : n.hasSettled = m.hasSettled :=
  h.reads Scheduler.hasSettled fun _ => rfl

/-! ### One step -/

theorem setJob (h : Alike R m n) (i : Nat) (job : Job σ ρ) :
    Alike R (m.setJob i job) (n.setJob i job) :=
  h.map (fun k => k.setJob i job) fun _ => rfl

theorem schedule (h : Alike R m n) (due i : Nat) : Alike R (m.schedule due i) (n.schedule due i) :=
  h.map (fun k => k.schedule due i) fun _ => rfl

theorem finish (h : Alike R m n) (i : Nat) (job : Job σ ρ) (ending : Ending ρ) :
    Alike R (m.finish i job ending) (n.finish i job ending) :=
  h.map (fun k => k.finish i job ending) fun _ => rfl

theorem release (h : Alike R m n) : Alike R m.release n.release := by
  refine h.map Scheduler.release fun w => ?_
  cases hs : m.slots with
  | none => simp only [Scheduler.release, Scheduler.withWorld, hs]
  | some s =>
    obtain ⟨free, line⟩ := s
    cases line with
    | nil => simp only [Scheduler.release, Scheduler.withWorld, hs]
    | cons first line =>
      cases hj : m.jobs[first]? with
      | none => simp only [Scheduler.release, Scheduler.withWorld, hs, hj]
      | some job =>
        simp only [Scheduler.release, Scheduler.withWorld, hs, hj]
        rfl

theorem complete (h : Alike R m n) (hw : job.work.Pairs R) (i : Nat) :
    Alike R (m.complete i job) (n.complete i job) := by
  obtain ⟨ho, hr⟩ := hw.leave m.clock m.world n.world h.worlds
  have he : ∀ k : Scheduler σ ρ, k.complete i job =
      (k.withWorld (job.work.leave k.clock k.world).2).release.finish i job
        (.finished (job.work.leave k.clock k.world).1) := fun _ => rfl
  rw [he m, he n, h.clock, ho]
  exact (h.withWorld hr).release.finish i job _

theorem fire (h : Alike R m n) (hw : job.work.Pairs R) (i : Nat) :
    Alike R (m.fire i job) (n.fire i job) := by
  have hr := hw.enter m.clock m.world n.world h.worlds
  have he : ∀ k : Scheduler σ ρ, k.fire i job =
      if job.work.span (job.work.enter k.clock k.world) = 0 then
        (k.withWorld (job.work.enter k.clock k.world)).complete i job
      else ((k.withWorld (job.work.enter k.clock k.world)).setJob i
        { job with phase := .running }).schedule
          (k.clock + job.work.span (job.work.enter k.clock k.world)) i := fun _ => rfl
  rw [he m, he n, h.clock, ← hw.span hr]
  split
  · exact (h.withWorld hr).complete hw i
  · exact ((h.withWorld hr).setJob i _).schedule _ i

theorem acquire (h : Alike R m n) (hw : job.work.Pairs R) (i : Nat) :
    Alike R (m.acquire i job) (n.acquire i job) := by
  have hslots := h.slots
  cases hm : m.slots with
  | none =>
    rw [hm] at hslots
    simp only [Scheduler.acquire, hm, hslots]
    exact h.fire hw i
  | some s =>
    rw [hm] at hslots
    obtain ⟨free, line⟩ := s
    cases free with
    | zero =>
      simp only [Scheduler.acquire, hm, hslots]
      exact h.map (fun k => { k.setJob i { job with phase := .queued } with
        slots := some ⟨0, line ++ [i]⟩ }) fun _ => rfl
    | succ free =>
      simp only [Scheduler.acquire, hm, hslots]
      have htaken := h.map (fun k => { k with slots := some ⟨free, line⟩ }) fun _ => rfl
      exact htaken.fire hw i

theorem start (h : Alike R m n) (i : Nat) (job : Job σ ρ) :
    Alike R (m.start i job) (n.start i job) := by
  have he : ∀ k : Scheduler σ ρ, k.start i job =
      if job.revoked then k.finish i job .revoked
      else if job.cancelled then k.finish i job .calledOff
      else if job.overlong then k.finish i job .lost
      else (k.setJob i { job with phase := .waiting }).schedule (k.clock + job.wait) i :=
    fun _ => rfl
  rw [he m, he n, h.clock]
  split
  · exact h.finish i job _
  · split
    · exact h.finish i job _
    · split
      · exact h.finish i job _
      · exact (h.setJob i _).schedule _ i

end Alike

theorem Alike.resume (h : Alike R m n) (hp : ∀ job, m.jobs[i]? = some job → job.Pairs R) :
    Alike R (m.resume i) (n.resume i) := by
  cases hi : m.jobs[i]? with
  | none =>
    simp only [Scheduler.resume, h.jobs, hi]
    exact h
  | some job =>
    have hpairs := hp job hi
    simp only [Scheduler.resume, h.jobs, hi]
    cases hj : job.phase with
    | unstarted => exact h.start i job
    | waiting =>
      dsimp only
      split
      · exact h.finish i job _
      · exact h.acquire (hpairs (by rw [hj]; rfl)) i
    | granted => exact h.fire (hpairs (by rw [hj]; rfl)) i
    | running => exact h.complete (hpairs (by rw [hj]; rfl)) i
    | queued => exact h
    | ended _ => exact h

theorem kept_pairs : Kept (Job.Pairs R : Job σ ρ → Prop) where
  moves h hm _ := h hm.not_over
  granted h hq _ := h (by rw [hq]; rfl)
  told h := h

/-- A job that is over already asks nothing of a scheduler. -/
theorem Sound.submitEnded (h : m.Sound) (work : Work σ ρ) (result : Outcome ρ) :
    (m.submitEnded work result).2.Sound := by
  let job : Job σ ρ := { work := work, wait := 0, phase := .ended (.finished result) }
  have hjobs : ∀ j, (m.submitEnded work result).2.jobs[j]? =
      if j = m.jobs.length then some job else m.jobs[j]? := getElem?_takeOn m job
  refine ⟨⟨fun j => ?_, h.booked.due, fun j => ?_⟩, h.slots.append rfl rfl⟩
  · have hentries : m.queue.countP (fun e => e.job = j) = m.wanted j := h.booked.entries j
    show m.queue.countP (fun e => e.job = j) = _
    rw [hentries, wanted, wanted, hjobs]
    by_cases hj : j = m.jobs.length
    · subst hj; simp [job, Phase.inQueue]
    · simp [hj]
  · have hpending := h.booked.pending j
    show j ∈ m.pending ↔ _
    rw [hpending, hjobs]
    by_cases hj : j = m.jobs.length
    · subst hj; simp [job, Phase.isOver]
    · simp [hj]

/-- Taking on a job does not look at the world. -/
theorem submit_withWorld (m : Scheduler σ ρ) (w : σ) (work : Work σ ρ) (delay : Int) :
    (m.withWorld w).submit work delay =
      (m.submit work delay).map fun r => (r.1, r.2.withWorld w) := by
  have hsettings : (m.withWorld w).settings = m.settings := rfl
  rw [submit_eq, submit_eq, hsettings]
  cases m.settings.wait delay with
  | error f => rfl
  | ok wait =>
    -- Whether the job starts at once, and whether its wait is too long, depends on settings only.
    dsimp only
    cases m.settings.deferStart <;> cases m.settings.isOverlong wait <;> rfl

/-! ### Twins -/

/-- Two sound schedulers that differ in their worlds only, and whose jobs keep these related. -/
structure Twins (R : σ → σ → Prop) (m n : Scheduler σ ρ) : Prop extends Alike R m n where
  sound : m.Sound
  paired : ∀ i < m.jobs.length, Holds (Job.Pairs R) i m

namespace Twins

variable {go : Scheduler σ ρ → Bool}

theorem withWorld (h : Twins R m n) {u v : σ} (hr : R u v) :
    Twins R (m.withWorld u) (n.withWorld v) :=
  ⟨h.toAlike.withWorld hr, h.sound.of_eq rfl rfl rfl rfl rfl rfl, h.paired⟩

theorem step (h : Twins R m n) : Twins R m.step n.step := by
  by_cases hq : m.queue = []
  · rwa [step_of_queue_nil hq, step_of_queue_nil (h.queue.trans hq)]
  · -- Both take the same entry, so only the work of its job could tell them apart.
    obtain ⟨e, job, p, he, hj, ht, -⟩ := h.sound.step hq
    have htaken : Alike R (m.taken e) (n.taken e) := h.map (fun k => k.taken e) fun _ => rfl
    refine ⟨?_, ht.sound, fun i hi => ?_⟩
    · rw [step_eq he, step_eq (h.next?.trans he)]
      refine htaken.resume fun other ho => ?_
      exact (h.paired e.job (List.getElem?_eq_some_iff.1 ho).1).of_getElem? ho
    · rw [ht.length] at hi
      exact kept_pairs.step h.sound (h.paired i hi)

/-- Both take the same steps while a condition holds that does not look at the world. -/
theorem stepWhile (h : Twins R m n) (hgo : ∀ (k : Scheduler σ ρ) w, go (k.withWorld w) = go k)
    (steps : Nat) : Twins R (Scheduler.stepWhile go steps m) (Scheduler.stepWhile go steps n) := by
  induction steps generalizing m n with
  | zero => exact h
  | succ steps ih =>
    unfold Scheduler.stepWhile
    rw [h.reads go (hgo m), h.queue]
    split
    · exact ih h.step
    · exact h

theorem runWhile (h : Twins R m n) (hgo : ∀ (k : Scheduler σ ρ) w, go (k.withWorld w) = go k) :
    Twins R (m.runWhile go) (n.runWhile go) := by
  rw [Scheduler.runWhile, Scheduler.runWhile, h.bound]
  exact h.stepWhile hgo m.bound

/-! ### Operations -/

theorem waitAll (h : Twins R m n) (names : List Nat) :
    Twins R (m.waitAll names) (n.waitAll names) :=
  h.runWhile fun _ _ => rfl

theorem waitFirst (h : Twins R m n) (names : List Nat) :
    Twins R (m.waitFirst names) (n.waitFirst names) :=
  h.runWhile fun _ _ => rfl

theorem joins (h : Twins R m n) (names : List Nat) :
    Twins R (names.foldl Scheduler.join m) (names.foldl Scheduler.join n) := by
  induction names generalizing m n with
  | nil => exact h
  | cons i names ih => exact ih (h.runWhile fun _ _ => rfl)

theorem close (h : Twins R m n) : Twins R m.close n.close := by
  have hun : Twins R { m with threads := [] } { n with threads := [] } :=
    ⟨h.map (fun k => { k with threads := [] }) fun _ => rfl, h.sound.unthreaded, h.paired⟩
  rw [Scheduler.close, Scheduler.close, h.threads]
  exact hun.joins m.threads

theorem advance (h : Twins R m n) (time : Nat) : Twins R (m.advance time) (n.advance time) := by
  have hrun : Twins R (m.runWhile (isDueBy (m.clock + time)))
      (n.runWhile (isDueBy (m.clock + time))) := h.runWhile fun _ _ => rfl
  have halike := hrun.map (fun k => { k with clock := m.clock + time }) fun _ => rfl
  have hn : n.advance time = { n.runWhile (isDueBy (m.clock + time)) with
      clock := m.clock + time } := by
    rw [← h.clock]
    rfl
  rw [hn]
  exact ⟨halike, h.sound.advance time, hrun.paired⟩

theorem sleep (h : Twins R m n) (time : Option Nat) : Twins R (m.sleep time) (n.sleep time) := by
  cases time with
  | none => exact h
  | some time => exact h.advance time

theorem cancelJob (h : Twins R m n) (i : Nat) : Twins R (m.cancelJob i) (n.cancelJob i) := by
  obtain ⟨hs, ht⟩ := h.sound.cancelJob i
  refine ⟨h.map (fun k => k.cancelJob i) fun w => ?_, hs, fun j hj => ?_⟩
  · cases hi : m.jobs[i]? with
    | none => simp only [Scheduler.cancelJob, Scheduler.withWorld, hi]
    | some job => cases hp : job.phase <;>
        simp only [Scheduler.cancelJob, Scheduler.withWorld, hi, hp] <;> rfl
  · rw [ht.length] at hj
    exact kept_pairs.told_of ht (h.paired j hj)

theorem cancel (h : Twins R m n) (names : List Nat) :
    Twins R (m.cancel names) (n.cancel names) := by
  rw [Scheduler.cancel, Scheduler.cancel, h.pending]
  induction names.filter m.pending.contains generalizing m n with
  | nil => exact h
  | cons i names ih =>
    exact ih (h.cancelJob i)

/-- Both take on a job, or neither does. -/
theorem submit (h : Twins R m n) {work : Work σ ρ} (hw : work.Pairs R) (delay : Int) :
    (∃ f, m.submit work delay = .error f ∧ n.submit work delay = .error f) ∨
    ∃ i m' n', m.submit work delay = .ok (i, m') ∧ n.submit work delay = .ok (i, n') ∧
      Twins R m' n' := by
  have hn : n.submit work delay =
      (m.submit work delay).map fun r => (r.1, r.2.withWorld n.world) :=
    (congrArg (fun k => k.submit work delay) h.same).trans (submit_withWorld m n.world work delay)
  cases hm : m.submit work delay with
  | error f => exact .inl ⟨f, rfl, by rw [hn, hm]; rfl⟩
  | ok r =>
    obtain ⟨i, m'⟩ := r
    obtain ⟨hs, -, ht⟩ := h.sound.submit hm
    refine .inr ⟨i, m', m'.withWorld n.world, rfl, by rw [hn, hm]; rfl, ⟨rfl, ?_⟩, hs,
      fun j hj => ?_⟩
    · rw [ht.world]
      exact h.worlds
    · by_cases hlt : j < m.jobs.length
      · obtain ⟨job, hat, hjob⟩ := h.paired j hlt
        exact ⟨job, ht.getElem? hat, hjob⟩
      · obtain ⟨job, hnew, hjobs⟩ := ht.jobs
        have hlen := ht.length
        obtain rfl : j = m.jobs.length := by omega
        exact ⟨job, by rw [hjobs]; simp, fun _ => hnew.work ▸ hw⟩

theorem submitEnded (h : Twins R m n) (work : Work σ ρ) (result : Outcome ρ) :
    (n.submitEnded work result).1 = (m.submitEnded work result).1 ∧
    Twins R (m.submitEnded work result).2 (n.submitEnded work result).2 := by
  refine ⟨congrArg List.length h.jobs, h.map (fun k => (k.submitEnded work result).2) fun _ => rfl,
    h.sound.submitEnded work result, fun j hj => ?_⟩
  by_cases hlt : j < m.jobs.length
  · obtain ⟨job, hat, hjob⟩ := h.paired j hlt
    refine ⟨job, ?_, hjob⟩
    rw [Scheduler.submitEnded, List.getElem?_append_left hlt, hat]
  · simp only [Scheduler.submitEnded, List.length_append, List.length_singleton] at hj
    obtain rfl : j = m.jobs.length := by omega
    exact ⟨{ work := work, wait := 0, phase := .ended (.finished result) },
      by simp [Scheduler.submitEnded], fun hover => by simp [Phase.isOver] at hover⟩

theorem renew (h : Twins R m n) (settings : Settings) (hi : m.Idle) :
    Twins R (m.renew settings) (n.renew settings) :=
  ⟨h.map (fun k => k.renew settings) fun _ => rfl, (hi.renew settings).sound, h.paired⟩

end Twins

end Scheduler

end Syndicate
