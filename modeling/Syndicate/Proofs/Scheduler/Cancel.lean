import Syndicate.Proofs.Scheduler.Run

/-! What being told to stop does to a job. One that is before the end of its delay never does its
work; one that is past it, in line for a slot or granted one, does its work all the same. -/

namespace Syndicate

variable {σ ρ : Type}

/-- The work leaves something about the world alone. -/
def Work.Spares {τ : Type} (seen : σ → τ) (work : Work σ ρ) : Prop :=
  ∀ clock w, seen (work.enter clock w) = seen w ∧ seen (work.leave clock w).2 = seen w

namespace Job

variable {job : Job σ ρ}

/-- Whether a job was told to stop in time. -/
def Stopped (job : Job σ ρ) : Prop :=
  job.phase = .ended .calledOff ∨
    job.phase.isEarly = true ∧ job.cancelled = true ∧ job.revoked = false

/-- Whether a job is past its delay and on its way to its work, or has come to it. -/
def Committed (job : Job σ ρ) : Prop := job.phase.isDue = true ∨ job.phase.hasFired = true

theorem Committed.fired (h : job.Committed) (ho : job.phase.isOver = true) :
    job.phase.hasFired = true := by
  rcases h with hd | hf
  · rw [(Phase.isOver_out ho).2.1] at hd
    cases hd
  · exact hf

/-- Whether the work of a job does not begin any more. -/
def Barred (job : Job σ ρ) : Prop :=
  job.phase.isOver = true ∨ job.phase = .running ∨
    job.phase.isEarly = true ∧ job.cancelled = true

theorem Barred.not_mayFire (h : job.Barred) : ¬ job.MayFire := by
  rintro (⟨hp, hc⟩ | hp)
  · simp [Barred, hp, hc, Phase.isOver] at h
  · simp [Barred, hp, Phase.isOver, Phase.isEarly] at h

/-- A job that nobody has stopped and whose delay can be waited out. -/
structure OnCourse (job : Job σ ρ) : Prop where
  cancelled : job.cancelled = false
  revoked : job.revoked = false
  overlong : job.overlong = false
  phase : job.phase.isEarly = true ∨ job.Committed

theorem OnCourse.fired (h : job.OnCourse) (ho : job.phase.isOver = true) :
    job.phase.hasFired = true := by
  rcases h.phase with he | hc
  · rw [Phase.isOver_of_isEarly he] at ho
    cases ho
  · exact hc.fired ho

/-- A job that nobody has stopped and whose delay is too long: it is lost, or will be. -/
structure Doomed (job : Job σ ρ) : Prop where
  cancelled : job.cancelled = false
  revoked : job.revoked = false
  overlong : job.overlong = true
  phase : job.phase = .unstarted ∨ job.phase = .ended .lost

theorem IsNew.doomed {settings : Settings} {work : Work σ ρ} {delay : Int}
    (h : job.IsNew settings work delay) (ho : job.overlong = true) : job.Doomed := by
  refine ⟨h.cancelled, h.revoked, ho, h.phase.imp (fun he => ?_) And.left⟩
  cases hp : job.phase with
  | unstarted => rfl
  | waiting =>
    rw [h.waiting hp] at ho
    cases ho
  | _ => simp [hp, Phase.isEarly] at he

theorem IsNew.onCourse {settings : Settings} {work : Work σ ρ} {delay : Int}
    (h : job.IsNew settings work delay) (ho : job.overlong = false) : job.OnCourse := by
  refine ⟨h.cancelled, h.revoked, ho, .inl (h.phase.resolve_right fun hl => ?_)⟩
  rw [ho] at hl
  cases hl.2

/-- A job that nobody has stopped: it comes to its work, or it is lost. -/
def Free (job : Job σ ρ) : Prop := job.OnCourse ∨ job.Doomed

theorem Free.revoked (h : job.Free) : job.revoked = false := by
  rcases h with h | h
  · exact h.revoked
  · exact h.revoked

/-- How far a job has come that nobody has stopped. -/
theorem Free.stage (h : job.Free) : job.phase.isEarly = true ∨ job.phase.isDue = true ∨
    job.phase.hasFired = true ∨ job.phase = .ended .lost := by
  rcases h with h | h
  · rcases h.phase with he | hd | hf
    · exact .inl he
    · exact .inr (.inl hd)
    · exact .inr (.inr (.inl hf))
  · rcases h.phase with hp | hp
    · exact .inl (by rw [hp]; rfl)
    · exact .inr (.inr (.inr hp))

theorem Free.ended (h : job.Free) (ho : job.phase.isOver = true) :
    job.phase.hasFired = true ∨ job.phase = .ended .lost := by
  rcases h with h | h
  · exact .inl (h.fired ho)
  · refine .inr (h.phase.resolve_left fun hp => ?_)
    rw [hp] at ho
    cases ho

/-- A job with a delay that is too long is lost at once unless it begins later. -/
theorem IsNew.lost {settings : Settings} {work : Work σ ρ} {delay : Int}
    (h : job.IsNew settings work delay) (ho : job.overlong = true)
    (hs : settings.deferStart = false) : job.phase = .ended .lost := by
  refine (h.doomed ho).phase.resolve_left fun hp => ?_
  rw [h.unstarted hp] at hs
  cases hs

theorem IsNew.free {settings : Settings} {work : Work σ ρ} {delay : Int}
    (h : job.IsNew settings work delay) : job.Free := by
  cases ho : job.overlong with
  | false => exact .inl (h.onCourse ho)
  | true => exact .inr (h.doomed ho)

theorem Moves.spares {τ : Type} {seen : σ → τ} {clock : Nat} {w w' : σ} {p : Phase ρ}
    (h : job.Moves clock w p w') (hs : Work.Spares seen job.work) : seen w' = seen w := by
  cases h with
  | begins => exact (hs clock w).1
  | passes => exact (hs clock _).2.trans (hs clock w).1
  | ends => exact (hs clock w).2
  | _ => rfl

theorem Moves.stopped {clock : Nat} {w w' : σ} {p : Phase ρ}
    (h : job.Moves clock w p w') (hs : job.Stopped) : w' = w := by
  rcases hs with hp | ⟨he, hc, -⟩
  · cases h <;> simp_all [MayFire]
  · cases h with
    | begins hf | passes hf =>
      rcases hf with ⟨-, hc'⟩ | hp
      · simp [hc] at hc'
      · simp [hp, Phase.isEarly] at he
    | ends hp => simp [hp, Phase.isEarly] at he
    | _ => rfl

end Job

namespace Scheduler

variable {m : Scheduler σ ρ} {i : Nat} {job : Job σ ρ}

theorem kept_stopped : Kept (Job.Stopped : Job σ ρ → Prop) where
  moves {clock job w w' p} h hm := by
    rcases h with h | ⟨he, hc, hr⟩
    · cases hm <;> simp_all [Job.MayFire, Phase.isEarly]
    · cases hm with
      | revoked _ hr' => simp [hr] at hr'
      | calledOff => exact .inl rfl
      | waits _ _ hc' | lost _ _ hc' => simp [hc] at hc'
      | queues _ hc' => simp [hc] at hc'
      | begins hf | passes hf =>
        rcases hf with ⟨-, hc'⟩ | hp
        · simp [hc] at hc'
        · simp [hp, Phase.isEarly] at he
      | ends hp => simp [hp, Phase.isEarly] at he
  granted {job} h hq := by
    rcases h with h | ⟨he, -⟩
    · simp [hq] at h
    · simp [hq, Phase.isEarly] at he
  told {job} h := h.imp id fun ⟨he, _, hr⟩ => ⟨he, rfl, hr⟩

theorem kept_committed : Kept (Job.Committed : Job σ ρ → Prop) where
  moves {clock job w w' p} h hm := by
    have hp : job.phase ≠ .unstarted ∧ job.phase ≠ .waiting := by
      constructor <;> intro hp <;> simp [Job.Committed, hp, Phase.isDue, Phase.hasFired] at h
    cases hm with
    | revoked hp' => exact absurd hp' hp.1
    | calledOff he =>
      cases hj : job.phase <;> simp [hj, Phase.isEarly] at he hp
    | waits hp' | lost hp' => exact absurd hp' hp.1
    | queues hp' => exact absurd hp' hp.2
    | begins => exact .inr rfl
    | passes => exact .inr rfl
    | ends => exact .inr rfl
  granted _ _ := .inl rfl
  told h := h

theorem steady_onCourse : Steady (Job.OnCourse : Job σ ρ → Prop) where
  moves {clock job w w' p} h hm := by
    refine ⟨h.cancelled, h.revoked, h.overlong, ?_⟩
    cases hm with
    | lost _ _ _ ho => simp [h.overlong] at ho
    | revoked _ hr => simp [h.revoked] at hr
    | calledOff _ _ hc => simp [h.cancelled] at hc
    | waits => exact .inl rfl
    | queues => exact .inr (.inl rfl)
    | begins | passes | ends => exact .inr (.inr rfl)
  granted h _ := ⟨h.cancelled, h.revoked, h.overlong, .inr (.inl rfl)⟩

theorem steady_doomed : Steady (Job.Doomed : Job σ ρ → Prop) where
  moves {clock job w w' p} h hm := by
    refine ⟨h.cancelled, h.revoked, h.overlong, ?_⟩
    cases hm with
    | lost => exact .inr rfl
    | revoked _ hr => simp [h.revoked] at hr
    | calledOff _ _ hc => simp [h.cancelled] at hc
    | waits _ _ _ ho => simp [h.overlong] at ho
    | queues hp => rcases h.phase with hp' | hp' <;> simp [hp] at hp'
    | begins hf | passes hf => rcases h.phase with hp | hp <;> simp [Job.MayFire, hp] at hf
    | ends hp => rcases h.phase with hp' | hp' <;> simp [hp] at hp'
  granted h hq := by rcases h.phase with hp | hp <;> simp [hq] at hp

theorem steady_free : Steady (Job.Free : Job σ ρ → Prop) where
  moves h hm := h.imp (fun h => steady_onCourse.moves h hm) fun h => steady_doomed.moves h hm
  granted h hq := h.imp (fun h => steady_onCourse.granted h hq) fun h => steady_doomed.granted h hq

theorem kept_ended (e : Ending ρ) : Kept fun job : Job σ ρ => job.phase = .ended e where
  moves {clock job w w' p} h hm := by
    cases hm <;> simp_all [Job.MayFire, Phase.isEarly]
  granted {job} h hq := by simp [hq] at h
  told h := h

theorem steady_barred : Steady (Job.Barred : Job σ ρ → Prop) where
  moves {clock job w w' p} h hm := by
    cases hm with
    | revoked | calledOff | lost => exact .inl rfl
    | waits hp _ hc | queues hp hc =>
      simp [Job.Barred, hp, hc, Phase.isOver] at h
    | begins hf | passes hf => exact absurd hf h.not_mayFire
    | ends => exact .inl rfl
  granted {job} h hq := by simp [Job.Barred, hq, Phase.isOver, Phase.isEarly] at h

/-- Without a bound on slots no job is kept from its work. -/
theorem Sound.not_due (h : m.Sound) (hs : m.settings.slots = none) (hi : m.jobs[i]? = some job) :
    job.phase.isDue = false := by
  have hfit := h.slots
  rw [hs] at hfit
  cases hm : m.slots with
  | none =>
    rw [hm] at hfit
    exact hfit.of_none.2 i job hi
  | some s =>
    rw [hm] at hfit
    obtain ⟨b, hb, -⟩ := hfit.of_some
    cases hb

theorem Sound.mem_pending (h : m.Sound) (hi : m.jobs[i]? = some job) :
    i ∈ m.pending ↔ job.phase.isOver = false := by
  rw [h.booked.pending i]
  simp [hi]

/-- What becomes of a job when those that are not over are told to stop. -/
theorem Told.getElem? {n : Scheduler σ ρ} {names : List Nat} (ht : m.Told names n)
    (hi : m.jobs[i]? = some job) (hn : i ∈ names ↔ job.phase.isOver = false) :
    n.jobs[i]? = some (if job.phase.isOver then job else { job with cancelled := true }) := by
  rw [ht.jobs, hi, Option.map_some]
  cases ho : job.phase.isOver <;> simp [hn, ho]

theorem Sound.getElem?_cancel (h : m.Sound) {names : List Nat} (hn : i ∈ names)
    (hi : m.jobs[i]? = some job) : (m.cancel names).jobs[i]? =
      some (if job.phase.isOver then job else { job with cancelled := true }) := by
  apply (h.cancel names).2.getElem? hi
  rw [List.mem_filter, List.contains_iff_mem, h.mem_pending hi]
  exact and_iff_right hn

/-- A job that is before the end of its delay is told to stop in time. -/
theorem Sound.stopped_of_cancel (h : m.Sound) {names : List Nat} (hn : i ∈ names)
    (hi : m.jobs[i]? = some job) (he : job.phase.isEarly = true) (hr : job.revoked = false) :
    Holds Job.Stopped i (m.cancel names) := by
  refine ⟨_, h.getElem?_cancel hn hi, ?_⟩
  rw [Phase.isOver_of_isEarly he]
  exact .inr ⟨he, rfl, hr⟩

/-- Without a bound on slots a job that is told to stop is at work or does not begin any more. -/
theorem Sound.barred_of_cancel (h : m.Sound) (hs : m.settings.slots = none) {names : List Nat}
    (hn : i ∈ names) (hc : Holds Job.Free i m) : Holds Job.Barred i (m.cancel names) := by
  obtain ⟨job, hi, hfree⟩ := hc
  refine ⟨_, h.getElem?_cancel hn hi, ?_⟩
  rcases hfree.stage with he | hd | hf | hl
  · rw [Phase.isOver_of_isEarly he]
    exact .inr (.inr ⟨he, rfl⟩)
  · rw [h.not_due hs hi] at hd
    cases hd
  · have hphase : job.phase.isOver = true ∨ job.phase = .running := by
      cases hp : job.phase with
      | running => exact .inr rfl
      | ended => exact .inl rfl
      | _ => simp [hp, Phase.hasFired] at hf
    split
    · exact hphase.imp id .inl
    · exact hphase.imp id .inl
  · have hover : job.phase.isOver = true := by rw [hl]; rfl
    rw [if_pos hover]
    exact .inl hover

theorem kept_unrevoked :
    Kept fun job : Job σ ρ => job.revoked = false ∧ job.phase ≠ .ended .revoked where
  moves {clock job w w' p} h hm := by
    refine ⟨h.1, ?_⟩
    cases hm with
    | revoked _ hr => simp [h.1] at hr
    | _ => simp
  granted h _ := ⟨h.1, by simp⟩
  told h := h

/-- Whether the work of a job has begun. -/
def hasFired (m : Scheduler σ ρ) (i : Nat) : Bool := m.jobs[i]?.any fun job => job.phase.hasFired

theorem hasFired_of (h : m.jobs[i]? = some job) : m.hasFired i = job.phase.hasFired := by
  rw [hasFired, h, Option.any_some]

/-- A job that can only end with its work done has come to it once it is over. -/
theorem hasFired_of_over {Q : Job σ ρ → Prop}
    (hQ : ∀ job : Job σ ρ, Q job → job.phase.isOver = true → job.phase.hasFired = true)
    (h : Holds Q i m) (ho : Holds (fun job => job.phase.isOver = true) i m) :
    m.hasFired i = true := by
  obtain ⟨job, hi, hj⟩ := h
  rw [hasFired_of hi]
  exact hQ job hj (ho.of_getElem? hi)

/-! ### Leaving no trace -/

/-- What is asked for brings nothing that does not leave it alone. -/
def Op.Spares {τ : Type} (seen : σ → τ) : Op σ ρ → Prop
  | .submit work _ => Work.Spares seen work
  | .act f => ∀ w, seen (f w) = seen w
  | _ => True

theorem kept_spares {τ : Type} (seen : σ → τ) :
    Kept fun job : Job σ ρ => Work.Spares seen job.work where
  moves h _ := h
  granted h _ := h
  told h := h

/-- A job has been told to stop in time, and all other jobs leave something alone that is as it
was. -/
structure Spared {τ : Type} (seen : σ → τ) (i : Nat) (was : τ) (m : Scheduler σ ρ) : Prop where
  sound : m.Sound
  stopped : Holds Job.Stopped i m
  others : ∀ j < m.jobs.length, j ≠ i → Holds (fun job => Work.Spares seen job.work) j m
  same : seen m.world = was

section Spared

variable {τ : Type} {seen : σ → τ} {was : τ}

theorem Spared.step (h : Spared seen i was m) : Spared seen i was m.step := by
  by_cases hq : m.queue = []
  · rwa [step_of_queue_nil hq]
  · obtain ⟨e, job, p, -, hj, ht, -⟩ := h.sound.step hq
    refine ⟨ht.sound, kept_stopped.step h.sound h.stopped, fun j hlt hji => ?_, ?_⟩
    · exact (kept_spares seen).step h.sound (h.others j (ht.length ▸ hlt) hji)
    · have hsame : seen m.step.world = seen m.world := by
        by_cases hei : e.job = i
        · rw [ht.moves.stopped (h.stopped.of_getElem? (hei ▸ hj))]
          rfl
        · have hother := h.others e.job (List.getElem?_eq_some_iff.1 hj).1 hei
          exact ht.moves.spares (hother.of_getElem? hj)
      exact hsame.trans h.same

theorem persists_spared : Persists (Spared seen i was : Scheduler σ ρ → Prop) where
  sound h := h.sound
  step h := h.step
  told h hn ht := {
    sound := hn
    stopped := kept_stopped.told_of ht h.stopped
    others := fun j hlt hji => (kept_spares seen).told_of ht (h.others j (ht.length ▸ hlt) hji)
    same := by rw [ht.world]; exact h.same }
  still h hs := {
    sound := hs.sound
    stopped := h.stopped.congr hs.jobs
    others := fun j hlt hji => (h.others j (hs.jobs ▸ hlt) hji).congr hs.jobs
    same := by rw [hs.world]; exact h.same }

/-- A new job that leaves the same alone changes nothing about that. -/
theorem Spared.submit {n : Scheduler σ ρ} {work : Work σ ρ} {delay : Int} {k : Nat}
    (h : Spared seen i was m) (ho : work.Spares seen) (hs : m.submit work delay = .ok (k, n)) :
    Spared seen i was n := by
  obtain ⟨hn, -, ht⟩ := h.sound.submit hs
  obtain ⟨new, hnew, hjobs⟩ := ht.jobs
  have hlen := ht.length
  obtain ⟨stopped, hi, hstopped⟩ := h.stopped
  refine ⟨hn, ⟨stopped, ht.getElem? hi, hstopped⟩, fun j hlt hji => ?_, ?_⟩
  · by_cases hj : j < m.jobs.length
    · obtain ⟨job, hj, hspares⟩ := h.others j hj hji
      exact ⟨job, ht.getElem? hj, hspares⟩
    · obtain rfl : j = m.jobs.length := by omega
      rw [← hnew.work] at ho
      exact ⟨new, by rw [hjobs]; simp, ho⟩
  · rw [ht.world]
    exact h.same

theorem Spared.perform (h : Spared seen i was m) {op : Op σ ρ} (ho : op.Spares seen) :
    Spared seen i was (m.perform op) := by
  refine persists_spared.perform h (fun hop hs => ?_) fun {f} hop => ?_
  · rw [hop] at ho
    exact h.submit ho hs
  · rw [hop] at ho
    exact ⟨h.sound.inWorld _, h.stopped, h.others, (ho m.world).trans h.same⟩

theorem Spared.run (h : Spared seen i was m) {ops : List (Op σ ρ)}
    (ho : ∀ op ∈ ops, op.Spares seen) : Spared seen i was (m.run ops) := by
  induction ops generalizing m with
  | nil => exact h
  | cons op ops ih =>
    exact ih (h.perform (ho op List.mem_cons_self)) fun op' hop =>
      ho op' (List.mem_cons_of_mem _ hop)

end Spared

/-! ### Being called off -/

/-- From now on a job does none of its work: it does not fire, what all others leave alone stays as
it is, and those who wait for the job learn that it was called off. -/
structure CalledOff (m : Scheduler σ ρ) (i : Nat) : Prop where
  unfired : ∀ later : List (Op σ ρ), (m.run later).hasFired i = false
  traceless : ∀ (τ : Type) (seen : σ → τ) (later : List (Op σ ρ)),
    (∀ j job, j ≠ i → m.jobs[j]? = some job → Work.Spares seen job.work) →
    (∀ op ∈ later, op.Spares seen) → seen (m.run later).world = seen m.world
  future : ∀ later : List (Op σ ρ),
    ((m.run later).waitAll [i]).future i = .done (fail Error.calledOff)

/-- Tells the named jobs to stop, or all of them. -/
def stop (m : Scheduler σ ρ) : Option (List Nat) → Scheduler σ ρ
  | none => m.cancelAll
  | some names => m.cancel names

theorem calledOff_of_stopped (hm : m.Sound) (h : Holds Job.Stopped i m) : m.CalledOff i where
  unfired later := by
    obtain ⟨job, hi, hj⟩ := kept_stopped.run hm h later
    rw [hasFired_of hi]
    rcases hj with hj | ⟨hj, -⟩
    · rw [hj]; rfl
    · exact Phase.hasFired_of_isEarly hj
  traceless τ seen later ho hl := by
    have hs : Spared seen i (seen m.world) m := by
      refine ⟨hm, h, fun j hlt hji => ?_, rfl⟩
      exact ⟨_, List.getElem?_eq_getElem hlt, ho j _ hji (List.getElem?_eq_getElem hlt)⟩
    exact (hs.run hl).same
  future later := by
    obtain ⟨job, hi, hj⟩ := kept_stopped.waitAll (hm.run later) (kept_stopped.run hm h later) [i]
    have hover := (hm.run later).waitAll_over [i] (List.mem_singleton_self i) hi
    have hp : job.phase = .ended .calledOff := by
      rcases hj with hj | ⟨hj, -⟩
      · exact hj
      · rw [Phase.isOver_of_isEarly hj] at hover
        cases hover
    simp only [Scheduler.future, hi, hp]

/-- A job that is committed comes to its work. -/
theorem fires_of_committed (hm : m.Sound) (h : Holds Job.Committed i m) :
    (m.run [.waitAll [i]]).hasFired i = true := by
  obtain ⟨job, hi, hj⟩ := kept_committed.waitAll hm h [i]
  have hover := hm.waitAll_over [i] (List.mem_singleton_self i) hi
  exact hasFired_of_over (fun _ hc => hc.fired) ⟨job, hi, hj⟩ ⟨job, hi, hover⟩

theorem Sound.stop (hm : m.Sound) (names : Option (List Nat)) (hi : m.jobs[i]? = some job)
    (hn : ∀ is, names = some is → i ∈ is) : (m.stop names).Sound ∧
    (m.stop names).jobs[i]? = some (if job.phase.isOver then job
      else { job with cancelled := true }) := by
  cases names with
  | none =>
    obtain ⟨hs, ht⟩ := hm.cancelAll
    exact ⟨hs, ht.getElem? hi (hm.mem_pending hi)⟩
  | some names => exact ⟨(hm.cancel names).1, hm.getElem?_cancel (hn names rfl) hi⟩

/-- A job that was taken on is not over as one that was taken back. -/
theorem unrevoked_of_new {settings : Settings} {work : Work σ ρ} {delay : Int}
    (h : job.IsNew settings work delay) : job.revoked = false ∧ job.phase ≠ .ended .revoked := by
  refine ⟨h.revoked, fun hp => ?_⟩
  rcases h.phase with he | ⟨hl, -⟩
  · simp [hp, Phase.isEarly] at he
  · simp [hp] at hl

/-- Nobody learns that a job was called off that is lost. -/
theorem not_calledOff_of_lost (hm : m.Sound)
    (h : Holds (fun job => job.phase = .ended .lost) i m) : ¬ m.CalledOff i := by
  intro hc
  have hf := hc.future []
  obtain ⟨job, hi, hp⟩ := (kept_ended .lost).waitAll hm h [i]
  rw [run, List.foldl_nil] at hf
  simp only [Scheduler.future, hi, hp] at hf
  split at hf <;> cases hf

/-- Stopping a job that has not fired, by name or with all others, calls it off if and only if it
is not past the end of its delay and was not lost before. In line for a slot, or granted one, it
does its work. -/
theorem calledOff_iff_not_due (settings : Settings) (w : σ) (ops : List (Op σ ρ))
    (names : Option (List Nat)) (i : Nat) (job : Job σ ρ)
    (hi : ((fresh settings w).run ops).jobs[i]? = some job) (hf : job.phase.hasFired = false)
    (hn : ∀ is, names = some is → i ∈ is) :
    (((fresh settings w).run ops).stop names).CalledOff i ↔
      job.phase.isDue = false ∧ job.phase ≠ .ended .lost := by
  have hm : ((fresh settings w).run ops).Sound := (idle_fresh settings w).sound.run ops
  obtain ⟨hs, hj⟩ := hm.stop names hi hn
  constructor
  · intro h
    refine ⟨?_, fun hl => not_calledOff_of_lost hs ⟨_, hj, by simp [hl, Phase.isOver]⟩ h⟩
    by_contra hd
    have hc : Holds Job.Committed i (((fresh settings w).run ops).stop names) := by
      refine ⟨_, hj, .inl ?_⟩
      split <;> simpa using hd
    have hfired := fires_of_committed hs hc
    simp [h.unfired] at hfired
  · rintro ⟨hd, hl⟩
    have hall := kept_unrevoked.run_all (fun _ _ _ _ => unrevoked_of_new)
      (idle_fresh settings w).sound (by simp [fresh]) ops i (List.getElem?_eq_some_iff.1 hi).1
    obtain ⟨hr, hp⟩ := hall.of_getElem? hi
    refine calledOff_of_stopped hs ⟨_, hj, ?_⟩
    cases hj : job.phase with
    | unstarted | waiting => exact .inr (by simp [Phase.isOver, Phase.isEarly, hr])
    | queued | granted => simp [hj, Phase.isDue] at hd
    | running => simp [hj, Phase.hasFired] at hf
    | ended ending =>
      cases ending with
      | calledOff => exact .inl (by simp [hj, Phase.isOver])
      | finished => simp [hj, Phase.hasFired] at hf
      | revoked => exact absurd hj hp
      | lost => exact absurd hj hl

/-- Work that leaves a mark when it begins. -/
def marking (n duration : Nat) : Work (List Nat) Unit where
  enter _ w := w ++ [n]
  duration := duration
  leave _ w := (.ok (), w)

theorem calledOff_while_waiting :
    (((fresh {} []).run [.submit (marking 0 10) 5]).stop none).CalledOff 0 := by
  have h : (((fresh {} []).run [.submit (marking 0 10) 5]).jobs[0]?).any
      (fun job => job.phase.isEarly) = true := by decide +kernel
  obtain ⟨job, hi, hp⟩ := (Option.any_eq_true _ _).1 h
  have hlost : job.phase ≠ .ended .lost := by
    intro hl
    simp [hl, Phase.isEarly] at hp
  have hdue : job.phase.isDue = false := by
    cases hj : job.phase <;> simp [hj, Phase.isEarly, Phase.isDue] at hp ⊢
  exact (calledOff_iff_not_due {} [] _ none 0 job hi (Phase.hasFired_of_isEarly hp) (by simp)).2
    ⟨hdue, hlost⟩

/-- Two jobs for one slot: the first is at work, and the second is in line. -/
def lined : Scheduler (List Nat) Unit :=
  (fresh { maxConcurrency := some 1 } []).run
    [.submit (marking 0 10) 0, .submit (marking 1 0) 0, .advance 1]

/-- A job in line has not fired when it is told to stop, and does its work all the same. -/
theorem not_calledOff_in_line : lined.hasFired 1 = false ∧ ¬ (lined.stop none).CalledOff 1 ∧
    ((lined.stop none).run [.advance 100]).world = [0, 1] := by
  refine ⟨by decide +kernel, fun h => ?_, by decide +kernel⟩
  have hf : ((lined.stop none).run [.advance 100]).hasFired 1 = true := by decide +kernel
  simp [h.unfired] at hf

end Scheduler

end Syndicate
