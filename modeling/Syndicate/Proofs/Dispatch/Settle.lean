import Syndicate.Proofs.Dispatch.Submit
import Syndicate.Proofs.Scheduler.Raised

/-! How the deferred part of a batch ends, and what it leaves behind. When all tasks became jobs,
the jobs that a failure finds before the end of their delay do none of their work, and those in line
for a slot do it all the same. When a task could not become a job, the jobs before it go on. -/

namespace Syndicate

open Scheduler

namespace Session

variable {s s' : Session} {t : Task} {ts : List Task} {es : List Event} {α : Type}

/-! ### The parts of a batch -/

/-- A batch up to its deferred tasks. -/
def upToLane (verify : Bool) (ts : List Task) : Act Session (List Publishing × List Task) := do
  let kept ← keptBy verify ts
  let immediate := kept.filter Task.isImmediate
  let deferred := kept.filter fun t => !t.isImmediate
  write (splitLine immediate.length deferred.length)
  let first ← publishEach immediate
  pure (first, deferred)

/-- The deferred tasks of a batch. -/
def afterLane (r : List Publishing × List Task) : Act Session (List Publishing) :=
  if r.2 = [] then pure r.1
  else do
    let later ← withOwnScheduler (publishDeferred r.2)
    reportAll later
    pure (r.1 ++ later)

theorem execute_eq (verify : Bool) (ts : List Task) :
    execute verify ts = upToLane verify ts >>= afterLane := by
  simp only [execute, publishAll, upToLane, afterLane, keptBy, bind_assoc, pure_bind]
  cases verify <;> rfl

theorem upToLane_evolves (verify : Bool) (ts : List Task) :
    Act.Keeps Evolves (upToLane verify ts) := by
  refine Act.Keeps.bind Evolves.trans (fun s => (keptBy_talks verify ts s).evolves) fun kept => ?_
  refine Act.Keeps.bind Evolves.trans (fun s => ?_) fun _ => ?_
  · have hsource : dispatchSource ≠ "core.diagnostics" := by decide
    exact (write_talks (r := splitLine _ _) hsource s).evolves
  · exact Act.Keeps.bind Evolves.trans (publishEach_evolves _) fun _ =>
      Act.Keeps.pure Evolves.refl _

/-- The session in which the deferred tasks are submitted. -/
def opened (s : Session) : Session :=
  if s.lane = .own then s.setScheduler (s.scheduler.renew s.ownSettings) else s

/-- The session after the deferred tasks of a batch in a lane. -/
def shut (lane : Lane) (s : Session) : Session :=
  if lane = .own then s.setScheduler s.scheduler.close else s

theorem outcome_withOwnScheduler (x : Act Session α) (s : Session) :
    (withOwnScheduler x).outcome s =
      ((x.outcome s.opened).1, (x.outcome s.opened).2.shut s.lane) := by
  simp only [Act.outcome, withOwnScheduler, opened, shut, EStateM.run]
  by_cases hl : s.lane = .own
  · simp only [hl, ↓reduceIte]
    cases x (s.setScheduler (s.scheduler.renew s.ownSettings)) <;> rfl
  · simp only [hl, ↓reduceIte]

/-- Waiting for jobs ends with their results, or with the first failure once all have settled. -/
theorem outcome_settle (hl : s.lane ≠ .inline) (jobs : List Nat) : (settle jobs).outcome s =
    match firstFailure? (s.scheduler.waitFirst jobs) jobs with
    | none => (haveSettled (s.scheduler.waitFirst jobs) jobs >>= fun _ =>
          results (s.scheduler.waitFirst jobs) jobs,
        s.setScheduler (s.scheduler.waitFirst jobs))
    | some f => (haveSettled (((s.scheduler.waitFirst jobs).cancel jobs).waitAll jobs) jobs >>=
          fun _ => .error f,
        s.setScheduler (((s.scheduler.waitFirst jobs).cancel jobs).waitAll jobs)) := by
  rw [settle, Act.outcome_bind_ok (Act.outcome_modify s _),
    Act.outcome_bind_ok (Act.outcome_get _)]
  have hm : (s.setScheduler (s.scheduler.waitFirst jobs)).scheduler =
    s.scheduler.waitFirst jobs := rfl
  rw [hm]
  cases firstFailure? (s.scheduler.waitFirst jobs) jobs with
  | none =>
    dsimp only
    rw [Act.outcome_bind_ok (Act.outcome_get _), Act.outcome_ofOutcome_bind, hm]
    cases haveSettled (s.scheduler.waitFirst jobs) jobs with
    | error g => rfl
    | ok u =>
      dsimp only
      rw [Act.outcome_bind_ok (Act.outcome_get _), Act.outcome_ofOutcome, hm]
      rfl
  | some f =>
    have hc : (cancelJobs jobs).outcome (s.setScheduler (s.scheduler.waitFirst jobs)) =
        (.ok (), s.setScheduler ((s.scheduler.waitFirst jobs).cancel jobs)) := by
      have hl' : (s.setScheduler (s.scheduler.waitFirst jobs)).lane ≠ .inline := hl
      rw [cancelJobs, Act.outcome_modify, if_neg hl']
      rfl
    dsimp only
    rw [Act.outcome_bind_ok hc, Act.outcome_bind_ok (Act.outcome_modify _ _),
      Act.outcome_bind_ok (Act.outcome_get _), Act.outcome_ofOutcome_bind]
    have hw : ((s.setScheduler ((s.scheduler.waitFirst jobs).cancel jobs)).setScheduler
        ((s.setScheduler ((s.scheduler.waitFirst jobs).cancel jobs)).scheduler.waitAll
          jobs)).scheduler = ((s.scheduler.waitFirst jobs).cancel jobs).waitAll jobs := rfl
    rw [hw]
    cases haveSettled (((s.scheduler.waitFirst jobs).cancel jobs).waitAll jobs) jobs <;> rfl

/-! ### What is left behind -/

/-- From the time `m` at which it is settled how a batch ends to the time `n` at which it has ended
nothing of it is left: its jobs, which are numbered from `b` on, are over, and if it has failed,
those that had not fired are called off. -/
structure LeavesNothing (b : Nat) (failed : Bool) (m n : Scheduler World Publishing) : Prop where
  settled : ∀ k job, b ≤ k → n.jobs[k]? = some job → job.phase.isOver = true
  stopped : failed = true → ∀ k, b ≤ k → k < m.jobs.length → m.hasFired k = false → n.CalledOff k

section LeavesNothing

variable {b : Nat} {failed : Bool} {m n : Scheduler World Publishing}
  {ops : List (Op World Publishing)}

/-- A batch without jobs leaves nothing. -/
theorem leavesNothing_of_length (hm : m.jobs.length ≤ b) (hn : n.jobs.length ≤ b) :
    LeavesNothing b failed m n where
  settled k job hk hj := by
    have := (List.getElem?_eq_some_iff.1 hj).1
    omega
  stopped _ k hk hlt := by omega

/-- A batch whose jobs are all done leaves nothing. -/
theorem leavesNothing_of_fired (hm : m.Sound) (hops : ∀ op ∈ ops, op.submits = false)
    (h : ∀ k, b ≤ k → k < m.jobs.length →
      Holds (fun job => job.phase.isOver = true ∧ job.phase.hasFired = true) k m) :
    LeavesNothing b failed m (m.run ops) where
  settled k job hk hj := by
    have hlt := (List.getElem?_eq_some_iff.1 hj).1
    rw [hm.length_run hops] at hlt
    obtain ⟨other, ho, hover, -⟩ := h k hk hlt
    exact (kept_over.run hm ⟨other, ho, hover⟩ ops).of_getElem? hj
  stopped _ k hk hlt hf := by
    obtain ⟨job, hj, -, hfired⟩ := h k hk hlt
    simp [hasFired_of hj, hfired] at hf

section Failed

variable {jobs : List Nat} {k : Nat} {job : Job World Publishing} (hm : m.Sound)
include hm

theorem length_settled (hops : ∀ op ∈ ops, op.submits = false) :
    (((m.cancel jobs).waitAll jobs).run ops).jobs.length = m.jobs.length := by
  obtain ⟨hcs, hct⟩ := hm.cancel jobs
  have haged : (m.cancel jobs).Aged ((m.cancel jobs).waitAll jobs) := hcs.aged_runWhile _
  rw [haged.sound.length_run hops, haged.length, hct.length]

/-- After a failure all jobs of a batch are waited for. -/
theorem over_settled (hk : k ∈ jobs) (hlt : k < m.jobs.length)
    (ops : List (Op World Publishing)) :
    Holds (fun job => job.phase.isOver = true) k (((m.cancel jobs).waitAll jobs).run ops) := by
  obtain ⟨hcs, hct⟩ := hm.cancel jobs
  have haged : (m.cancel jobs).Aged ((m.cancel jobs).waitAll jobs) := hcs.aged_runWhile _
  have hlt' : k < ((m.cancel jobs).waitAll jobs).jobs.length := by
    rw [haged.length, hct.length]
    exact hlt
  have hat := List.getElem?_eq_getElem hlt'
  exact kept_over.run haged.sound ⟨_, hat, hcs.waitAll_over jobs hk hat⟩ ops

/-- A job past its delay comes to its work in spite of a failure. -/
theorem fired_settled (hk : k ∈ jobs) (hj : m.jobs[k]? = some job) (hd : job.phase.isDue = true)
    (ops : List (Op World Publishing)) :
    (((m.cancel jobs).waitAll jobs).run ops).hasFired k = true := by
  obtain ⟨hcs, hct⟩ := hm.cancel jobs
  have hcommitted := kept_committed.waitAll hcs
    (kept_committed.told_of hct ⟨job, hj, .inl hd⟩) jobs
  exact hasFired_of_over (fun _ hc => hc.fired) (kept_committed.run (hcs.runWhile _) hcommitted ops)
    (over_settled hm hk (List.getElem?_eq_some_iff.1 hj).1 ops)

/-- A job before the end of its delay is told to stop in time. -/
theorem calledOff_settled (hk : k ∈ jobs) (hj : m.jobs[k]? = some job)
    (he : job.phase.isEarly = true) (hr : job.revoked = false)
    (ops : List (Op World Publishing)) :
    (((m.cancel jobs).waitAll jobs).run ops).CalledOff k := by
  have hcs := (hm.cancel jobs).1
  have hws : ((m.cancel jobs).waitAll jobs).Sound := hcs.runWhile _
  have hstop := kept_stopped.waitAll hcs (hm.stopped_of_cancel hk hj he hr) jobs
  exact calledOff_of_stopped (hws.run ops) (kept_stopped.run hws hstop ops)

/-- A job that is lost stays lost, whoever waits for it. -/
theorem lost_settled (hj : m.jobs[k]? = some job) (hp : job.phase = .ended .lost)
    (ops : List (Op World Publishing)) :
    Holds (fun job => job.phase = .ended .lost) k (((m.cancel jobs).waitAll jobs).run ops) := by
  obtain ⟨hcs, hct⟩ := hm.cancel jobs
  have hws : ((m.cancel jobs).waitAll jobs).Sound := hcs.runWhile _
  have hlost := (kept_ended .lost).told_of hct ⟨job, hj, hp⟩
  exact (kept_ended .lost).run hws ((kept_ended .lost).waitAll hcs hlost jobs) ops

/-- After a failure a batch leaves nothing if and only if no job was due or lost when it came. -/
theorem leavesNothing_iff_not_due (hops : ∀ op ∈ ops, op.submits = false)
    (hj : ∀ k, k ∈ jobs ↔ b ≤ k ∧ k < m.jobs.length)
    (hc : ∀ k ∈ jobs, Holds Job.Free k m) :
    LeavesNothing b true m (((m.cancel jobs).waitAll jobs).run ops) ↔
      ∀ k job, b ≤ k → m.jobs[k]? = some job →
        job.phase.isDue = false ∧ job.phase ≠ .ended .lost := by
  constructor
  · intro h k job hk hjob
    have hlt := (List.getElem?_eq_some_iff.1 hjob).1
    refine ⟨?_, fun hp => ?_⟩
    · by_contra hd
      have hdue : job.phase.isDue = true := by simpa using hd
      have hunfired : m.hasFired k = false := by
        rw [hasFired_of hjob]
        exact Phase.hasFired_of_isDue hdue
      have hcalled := (h.stopped rfl k hk hlt hunfired).unfired []
      rw [run, List.foldl_nil, fired_settled hm ((hj k).2 ⟨hk, hlt⟩) hjob hdue] at hcalled
      cases hcalled
    · have hunfired : m.hasFired k = false := by
        rw [hasFired_of hjob, hp]
        rfl
      have hws : ((m.cancel jobs).waitAll jobs).Sound := (hm.cancel jobs).1.runWhile _
      exact not_calledOff_of_lost (hws.run ops) (lost_settled hm hjob hp ops)
        (h.stopped rfl k hk hlt hunfired)
  · intro hnd
    refine ⟨fun k job hk hjob => ?_, fun _ k hk hlt hf => ?_⟩
    · have hlt := (List.getElem?_eq_some_iff.1 hjob).1
      rw [length_settled hm hops] at hlt
      exact (over_settled hm ((hj k).2 ⟨hk, hlt⟩) hlt ops).of_getElem? hjob
    · obtain ⟨job, hjob, hfree⟩ := hc k ((hj k).2 ⟨hk, hlt⟩)
      have hearly : job.phase.isEarly = true := by
        rcases hfree.stage with he | hd | hfired | hlost
        · exact he
        · simp [hnd k job hk hjob] at hd
        · simp [hasFired_of hjob, hfired] at hf
        · exact absurd hlost (hnd k job hk hjob).2
      exact calledOff_settled hm ((hj k).2 ⟨hk, hlt⟩) hjob hearly hfree.revoked ops

end Failed

/-- Nobody learns that a job was called off that nobody has stopped and that is over. -/
theorem not_calledOff_of_over {k : Nat} (hn : n.Sound) (hf : Holds Job.Free k n)
    (ho : Holds (fun job => job.phase.isOver = true) k n) : ¬ n.CalledOff k := by
  obtain ⟨job, hj, hfree⟩ := hf
  rcases hfree.ended (ho.of_getElem? hj) with hfired | hlost
  · intro hc
    have hunfired := hc.unfired []
    rw [run, List.foldl_nil, hasFired_of hj, hfired] at hunfired
    cases hunfired
  · exact not_calledOff_of_lost hn ⟨job, hj, hlost⟩

/-- When a task could not become a job and the jobs before it go on to their ends, a batch leaves
nothing if and only if there was no job before it. -/
theorem leavesNothing_close_iff (hm : m.Sound) (hb : b ≤ m.jobs.length)
    (hj : ∀ k, b ≤ k → k < m.jobs.length → k ∈ m.threads ∧
      Holds (fun job => job.Free ∧ job.phase.hasFired = false) k m) :
    LeavesNothing b true m m.close ↔ m.jobs.length = b := by
  constructor
  · intro h
    by_contra hne
    have hlt : b < m.jobs.length := by omega
    obtain ⟨hthread, job, hjob, hfree, hnew⟩ := hj b (Nat.le_refl b) hlt
    have hunfired : m.hasFired b = false := by rw [hasFired_of hjob, hnew]
    exact not_calledOff_of_over hm.close (steady_free.close hm ⟨job, hjob, hfree⟩)
      (hm.close_over hthread hlt) (h.stopped rfl b (Nat.le_refl b) hlt hunfired)
  · intro hl
    exact leavesNothing_of_length (by omega) (by rw [hm.length_close]; omega)

/-- When the jobs before it stay as they are the same is true. -/
theorem leavesNothing_self_iff (hm : m.Sound) (hb : b ≤ m.jobs.length)
    (hj : ∀ k, b ≤ k → k < m.jobs.length →
      Holds (fun job => job.Free ∧ job.phase.hasFired = false) k m) :
    LeavesNothing b true m m ↔ m.jobs.length = b := by
  constructor
  · intro h
    by_contra hne
    have hlt : b < m.jobs.length := by omega
    obtain ⟨job, hjob, hfree, hnew⟩ := hj b (Nat.le_refl b) hlt
    have hunfired : m.hasFired b = false := by rw [hasFired_of hjob, hnew]
    exact not_calledOff_of_over hm ⟨job, hjob, hfree⟩
      ⟨job, hjob, h.settled b job (Nat.le_refl b) hjob⟩ (h.stopped rfl b (Nat.le_refl b) hlt hunfired)
  · intro hl
    exact leavesNothing_of_length (by omega) (by omega)

end LeavesNothing

/-! ### Batches -/

/-- A session between batches: with a scheduler for each batch nothing is left of the last one, and
the scheduler of all batches may be in any state that it comes to. -/
def Ready (s : Session) : Prop :=
  s.lane = .own ∧ s.scheduler.Idle ∨ s.lane = .shared ∧ s.scheduler.Sound

theorem Ready.sound (h : s.Ready) : s.scheduler.Sound := by
  rcases h with ⟨-, h⟩ | ⟨-, h⟩
  · exact h.sound
  · exact h

theorem Ready.lane (h : s.Ready) : s.lane ≠ .inline := by
  rcases h with ⟨h, -⟩ | ⟨h, -⟩ <;> simp [h]

theorem Ready.evolves (h : s.Ready) (he : s.Evolves s') :
    s'.Ready ∧ s'.scheduler.jobs.length = s.scheduler.jobs.length := by
  obtain ⟨ops, hops, hm⟩ := he.ops
  rw [Ready, he.lane, hm]
  refine ⟨?_, h.sound.length_run hops⟩
  rcases h with ⟨hl, h⟩ | ⟨hl, h⟩
  · exact .inl ⟨hl, h.run hops⟩
  · exact .inr ⟨hl, h.run ops⟩

theorem Ready.opened (h : s.Ready) : s.opened.lane = s.lane ∧ s.opened.scheduler.Sound ∧
    s.opened.scheduler.jobs = s.scheduler.jobs := by
  rcases h with ⟨hl, h⟩ | ⟨hl, h⟩
  · simp only [Session.opened, hl, ↓reduceIte]
    exact ⟨hl, (h.renew _).sound, rfl⟩
  · rw [Session.opened, if_neg (by simp [hl])]
    exact ⟨rfl, h, rfl⟩

theorem shut_evolves (lane : Lane) (s : Session) : s.Evolves (s.shut lane) := by
  unfold shut
  split
  · exact ⟨rfl, [.close], by simp [Op.submits], rfl⟩
  · exact Evolves.refl s

theorem afterLane_error {r : List Publishing × List Task} {f : Failure} (hr : r.2 ≠ [])
    (h : (publishDeferred r.2).outcome s.opened = (.error f, s')) :
    (afterLane r).outcome s = (.error f, s'.shut s.lane) := by
  have hw := outcome_withOwnScheduler (publishDeferred r.2) s
  rw [h] at hw
  rw [afterLane, if_neg hr, Act.outcome_bind_error hw]

/-- Once the deferred tasks have ended they are only reported. -/
theorem afterLane_talks {r : List Publishing × List Task} (hr : r.2 ≠ []) :
    (((publishDeferred r.2).outcome s.opened).2.shut s.lane).Evolves
      ((afterLane r).outcome s).2 := by
  cases hd : (publishDeferred r.2).outcome s.opened with
  | mk o s' =>
    cases o with
    | error f =>
      rw [afterLane_error hr hd]
      exact Evolves.refl _
    | ok later =>
      have hw := outcome_withOwnScheduler (publishDeferred r.2) s
      rw [hd] at hw
      rw [afterLane, if_neg hr, Act.outcome_bind_ok hw]
      exact (Act.Keeps.bind Talks.trans (reportAll_talks later)
        (fun _ => Act.Keeps.pure Talks.refl _) _).evolves

theorem afterLane_evolves {r : List Publishing × List Task} (hr : r.2 ≠ []) :
    ((publishDeferred r.2).outcome s.opened).2.Evolves ((afterLane r).outcome s).2 :=
  (shut_evolves s.lane _).trans _ _ _ (afterLane_talks hr)

/-- The time at which it is settled how a batch ends: whether a task could not become a job, and
the scheduler then, or else the scheduler once a job has failed or all are over. -/
structure Crux where
  refused : Bool
  scheduler : Scheduler World Publishing

def crux (verify : Bool) (ts : List Task) (s : Session) : Crux :=
  match (upToLane verify ts).outcome s with
  | (.error _, s₁) => ⟨false, s₁.scheduler⟩
  | (.ok r, s₁) => match (submitAll r.2).outcome s₁.opened with
    | (.error _, s₂) => ⟨true, s₂.scheduler⟩
    | (.ok jobs, s₂) => ⟨false, s₂.scheduler.waitFirst jobs⟩

theorem Submitted.holds (h : s.Submitted ts es s') {k : Nat} (hk : s.scheduler.jobs.length ≤ k)
    (hlt : k < s'.scheduler.jobs.length) : k ∈ s'.scheduler.threads ∧
      Holds (fun job => job.Free ∧ job.phase.hasFired = false) k s'.scheduler := by
  obtain ⟨j, rfl⟩ := Nat.exists_eq_add_of_le hk
  have hat := List.getElem?_eq_getElem hlt
  obtain ⟨t, -, w, hnew⟩ := h.getElem? hat
  refine ⟨?_, _, hat, hnew.free, hnew.unfired⟩
  have hlen := h.length
  rw [h.threads, List.mem_append, List.mem_range'_1]
  omega

/-- The jobs of tasks that have just been taken on. -/
theorem Submitted.new (h : s.Submitted ts es s') {k : Nat} (hk : ts[k]? = some t) :
    Holds (IsNew s.scheduler.settings t) (s.scheduler.jobs.length + k) s'.scheduler := by
  have hlt := (List.getElem?_eq_some_iff.1 hk).1
  have hat := List.getElem?_eq_getElem (l := s'.scheduler.jobs)
    (i := s.scheduler.jobs.length + k) (by rw [h.length]; omega)
  obtain ⟨u, hu, hnew⟩ := h.getElem? hat
  rw [hk] at hu
  cases hu
  exact ⟨_, hat, hnew⟩

theorem Submitted.free (h : s.Submitted ts es s') :
    ∀ k < ts.length, Holds Job.Free (s.scheduler.jobs.length + k) s'.scheduler := by
  intro k hk
  obtain ⟨job, hj, w, hnew⟩ := h.new (List.getElem?_eq_getElem hk)
  exact ⟨job, hj, hnew.free⟩

/-- A job is that of a task, and it is lost only if the wait of that is too long. -/
structure IsOf (settings : Settings) (t : Task) (job : Job World Publishing) : Prop where
  work : ∃ u : World, job.work = u.work t
  overlong : job.overlong = true → ¬ settings.Fits t.delay
  lost : job.phase = .ended .lost → job.overlong = true

theorem isOf_of_new {settings : Settings} {job : Job World Publishing}
    (h : IsNew settings t job) : IsOf settings t job := by
  obtain ⟨w, hnew⟩ := h
  refine ⟨⟨w, hnew.work⟩, fun ho hfits => ?_, fun hl => ?_⟩
  · rw [hnew.fits_iff.1 hfits] at ho
    cases ho
  · rcases hnew.phase with he | ⟨-, ho⟩
    · simp [hl, Phase.isEarly] at he
    · exact ho

theorem kept_isOf (settings : Settings) (t : Task) : Kept (IsOf settings t) where
  moves {clock job w w' p} h hm := by
    refine ⟨h.work, h.overlong, fun hl => ?_⟩
    cases hm with
    | lost _ _ _ ho => exact ho
    | _ => cases hl
  granted h _ := ⟨h.work, h.overlong, nofun⟩
  told h := ⟨h.work, h.overlong, h.lost⟩

/-- The jobs of tasks, which are numbered from `b` on, once one of them has failed or all are over:
nobody has stopped them yet, and no more than one has failed. -/
structure AtCrux (settings : Settings) (b : Nat) (ts : List Task) (jobs : List Nat)
    (m : Scheduler World Publishing) : Prop where
  sound : m.Sound
  works : ∀ i t, ts[i]? = some t → Holds (IsOf settings t) (b + i) m
  mem : ∀ k, k ∈ jobs ↔ b ≤ k ∧ k < m.jobs.length
  free : ∀ k ∈ jobs, Holds Job.Free k m
  allOver : (∀ k ∈ jobs, m.failure? k = none) →
    ∀ k ∈ jobs, Holds (fun job => job.phase.isOver = true) k m
  unique : ∀ i ∈ jobs, ∀ j ∈ jobs, m.failure? i ≠ none → m.failure? j ≠ none → i = j

theorem IsNew.failure? {m : Scheduler World Publishing} {k : Nat} {job : Job World Publishing}
    {settings : Settings} (h : IsNew settings t job) (hk : m.jobs[k]? = some job) :
    m.failure? k = none := by
  obtain ⟨w, hnew⟩ := h
  rw [failure?_of_free ⟨job, hk, hnew.free⟩]
  exact raised?_of_unfired (by rw [hasFired_of hk, hnew.unfired])

theorem Submitted.atCrux (h : s.Submitted ts es s') {jobs : List Nat}
    (hj : jobs = List.range' s.scheduler.jobs.length ts.length) :
    AtCrux s.scheduler.settings s.scheduler.jobs.length ts jobs (s'.scheduler.waitFirst jobs) := by
  have haged : s'.scheduler.Aged (s'.scheduler.waitFirst jobs) := h.sound.aged_runWhile _
  have hmem : ∀ k, k ∈ jobs ↔
      s.scheduler.jobs.length ≤ k ∧ k < (s'.scheduler.waitFirst jobs).jobs.length := by
    intro k
    rw [haged.length, h.length, hj, List.mem_range'_1]
  have hunfailed : ∀ k ∈ jobs, s'.scheduler.failure? k = none := by
    intro k hk
    rw [hj, List.mem_range'_1] at hk
    obtain ⟨i, rfl⟩ := Nat.exists_eq_add_of_le hk.1
    have hlt : i < ts.length := by omega
    obtain ⟨job, hat, hn⟩ := h.new (List.getElem?_eq_getElem hlt)
    exact hn.failure? hat
  refine ⟨haged.sound, fun i t ht => ?_, hmem, fun k hk => ?_, fun hf k hk => ?_,
    fun i hi j hj => ?_⟩
  · obtain ⟨job, hat, hn⟩ := h.new ht
    exact (kept_isOf _ t).runWhile h.sound ⟨job, hat, isOf_of_new hn⟩ _
  · rw [hj, List.mem_range'_1] at hk
    obtain ⟨j, rfl⟩ := Nat.exists_eq_add_of_le hk.1
    exact steady_free.runWhile h.sound (h.free j (by omega)) _
  · have hat := List.getElem?_eq_getElem ((hmem k).1 hk).2
    exact ⟨_, hat, h.sound.waitFirst_over jobs hf hk hat⟩
  · exact h.sound.waitFirst_unique hunfailed hi hj

/-- Whether the delay of a task can be waited out. -/
def Waitable (s : Session) (t : Task) : Prop := s.opened.scheduler.settings.Fits t.delay

/-- A job of a batch, whose jobs are numbered from `b` on, is lost. -/
def Lost (b : Nat) (m : Scheduler World Publishing) : Prop :=
  ∃ k, b ≤ k ∧ Holds (fun job => job.phase = .ended .lost) k m

/-- Once all jobs of a batch are over, those who wait for them wait forever if and only if one is
lost. -/
theorem haveSettled_eq {m : Scheduler World Publishing} {b : Nat} {jobs : List Nat}
    (hj : ∀ k, k ∈ jobs ↔ b ≤ k ∧ k < m.jobs.length)
    (ho : ∀ k ∈ jobs, Holds (fun job => job.phase.isOver = true) k m) :
    (¬ Lost b m → haveSettled m jobs = .ok ()) ∧
    (Lost b m → haveSettled m jobs = faulty .endless) := by
  refine ⟨fun hnot => if_pos ?_, fun ⟨k, hb, job, hk, hp⟩ => if_neg fun hall => ?_⟩
  · rw [List.all_eq_true]
    intro k hk
    obtain ⟨job, hjob, hover⟩ := ho k hk
    rw [hasSettled_iff]
    intro other hother
    rw [hjob] at hother
    cases hother
    exact ⟨hover, fun hp => hnot ⟨k, ((hj k).1 hk).1, job, hjob, hp⟩⟩
  · have hlt := (List.getElem?_eq_some_iff.1 hk).1
    have hsettled := hasSettled_iff.1 (List.all_eq_true.1 hall k ((hj k).2 ⟨hb, hlt⟩)) job hk
    exact hsettled.2 hp

/-- What a batch raises once its jobs are over: nothing but that it has no end if one is lost. -/
def Settled (b : Nat) (n : Scheduler World Publishing) (o o' : Outcome (List Publishing)) : Prop :=
  (¬ Lost b n → o = o') ∧ (Lost b n → o = .error (.fault .endless))

theorem settled_of {m : Scheduler World Publishing} {b : Nat} {jobs : List Nat}
    (hj : ∀ k, k ∈ jobs ↔ b ≤ k ∧ k < m.jobs.length)
    (ho : ∀ k ∈ jobs, Holds (fun job => job.phase.isOver = true) k m)
    (o : Outcome (List Publishing)) : Settled b m (haveSettled m jobs >>= fun _ => o) o := by
  obtain ⟨hsome, hnone⟩ := haveSettled_eq hj ho
  refine ⟨fun h => ?_, fun h => ?_⟩
  · rw [hsome h]
    rfl
  · rw [hnone h]
    rfl

/-- After a failure all jobs of a batch are over once they have been told to stop and waited for,
and they are still those from the first of them on. -/
theorem jobs_settled {m : Scheduler World Publishing} {b : Nat} {jobs : List Nat} (hm : m.Sound)
    (hj : ∀ k, k ∈ jobs ↔ b ≤ k ∧ k < m.jobs.length) :
    (∀ k, k ∈ jobs ↔ b ≤ k ∧ k < ((m.cancel jobs).waitAll jobs).jobs.length) ∧
    ∀ k ∈ jobs, Holds (fun job => job.phase.isOver = true) k
      ((m.cancel jobs).waitAll jobs) := by
  obtain ⟨hcs, hct⟩ := hm.cancel jobs
  have haged : (m.cancel jobs).Aged ((m.cancel jobs).waitAll jobs) := hcs.aged_runWhile _
  refine ⟨?_, fun k hk => over_settled hm hk ((hj k).1 hk).2 []⟩
  rw [haged.length, hct.length]
  exact hj

/-- What is raised after a failure is an error. -/
theorem Settled.exists_error {n : Scheduler World Publishing} {b : Nat}
    {o : Outcome (List Publishing)} {f : Failure} (h : Settled b n o (.error f)) :
    ∃ g, o = .error g := by
  by_cases hlost : Lost b n
  · exact ⟨_, h.2 hlost⟩
  · exact ⟨f, h.1 hlost⟩

/-- Time does not change which jobs of a batch are lost, once all of them are over. -/
theorem lost_run_iff {m : Scheduler World Publishing} {b : Nat} {jobs : List Nat}
    {ops : List (Op World Publishing)} (hm : m.Sound) (hops : ∀ op ∈ ops, op.submits = false)
    (hj : ∀ k, k ∈ jobs ↔ b ≤ k ∧ k < m.jobs.length)
    (ho : ∀ k ∈ jobs, Holds (fun job => job.phase.isOver = true) k m) :
    Lost b (m.run ops) ↔ Lost b m := by
  constructor
  · rintro ⟨k, hb, job, hk, hp⟩
    have hlt := (List.getElem?_eq_some_iff.1 hk).1
    rw [hm.length_run hops] at hlt
    obtain ⟨before, hbefore, hover⟩ := ho k ((hj k).2 ⟨hb, hlt⟩)
    refine ⟨k, hb, before, hbefore, ?_⟩
    cases hphase : before.phase with
    | ended e =>
      have hsame := ((kept_ended e).run hm ⟨before, hbefore, hphase⟩ ops).of_getElem? hk
      rw [hphase, ← hsame, hp]
    | _ => simp [hphase, Phase.isOver] at hover
  · rintro ⟨k, hb, hlost⟩
    exact ⟨k, hb, (kept_ended .lost).run hm hlost ops⟩

/-- How a batch ends all of whose deferred tasks became jobs: all of them are over and none has
failed, or the first failure is raised once the other jobs were told to stop and have settled. -/
theorem atCrux_ends (h : s.Ready) {r : List Publishing × List Task} {jobs : List Nat}
    (hr : r.2 ≠ []) (ho : (submitAll r.2).outcome s.opened = (.ok jobs, s')) :
    AtCrux s.opened.scheduler.settings s.scheduler.jobs.length r.2 jobs
      (s'.scheduler.waitFirst jobs) ∧
    ∃ ops : List (Op World Publishing), (∀ op ∈ ops, op.submits = false) ∧
      (firstFailure? (s'.scheduler.waitFirst jobs) jobs = none ∧
          (Lost s.scheduler.jobs.length (s'.scheduler.waitFirst jobs) →
            ((afterLane r).outcome s).1 = .error (.fault .endless)) ∧
          ((afterLane r).outcome s).2.scheduler = (s'.scheduler.waitFirst jobs).run ops ∨
        ∃ f, firstFailure? (s'.scheduler.waitFirst jobs) jobs = some f ∧
          Settled s.scheduler.jobs.length ((afterLane r).outcome s).2.scheduler
            ((afterLane r).outcome s).1 (.error f) ∧
          ((afterLane r).outcome s).2.scheduler =
            (((s'.scheduler.waitFirst jobs).cancel jobs).waitAll jobs).run ops) := by
  obtain ⟨hlane, hsound, hopened⟩ := h.opened
  rcases submitAll_cases (hlane ▸ h.lane) hsound r.2 with ⟨-, s'', ho', hsub⟩ |
      ⟨done, t, rest, g, n, s'', -, -, -, ho', -⟩
  · rw [ho, Prod.mk.injEq, Except.ok.injEq] at ho'
    obtain ⟨hjobs, rfl⟩ := ho'
    have hcrux := hsub.atCrux hjobs
    rw [hopened] at hcrux
    have hl' : s'.lane ≠ .inline := by
      rw [hsub.lane, hlane]
      exact h.lane
    have hd : (publishDeferred r.2).outcome s.opened = _ :=
      (Act.outcome_bind_ok ho).trans (outcome_settle hl' jobs)
    obtain ⟨ops, hops, ha⟩ := (afterLane_evolves (s := s) hr).ops
    refine ⟨hcrux, ops, hops, ?_⟩
    cases hf : firstFailure? (s'.scheduler.waitFirst jobs) jobs with
    | none =>
      rw [hf] at hd
      refine .inl ⟨rfl, fun hlost => ?_, by rw [hd] at ha; exact ha⟩
      have hover := hcrux.allOver (List.findSome?_eq_none_iff.1 hf)
      dsimp only at hd
      rw [(haveSettled_eq hcrux.mem hover).2 hlost] at hd
      rw [afterLane_error hr hd]
    | some f =>
      rw [hf] at hd
      have hafter : ((afterLane r).outcome s).2.scheduler =
          (((s'.scheduler.waitFirst jobs).cancel jobs).waitAll jobs).run ops := by
        rw [hd] at ha
        exact ha
      refine .inr ⟨f, rfl, ?_, hafter⟩
      obtain ⟨hmem, hover⟩ := jobs_settled hcrux.sound hcrux.mem
      have hsettled := settled_of hmem hover (.error f)
      obtain ⟨g, hg⟩ := hsettled.exists_error
      dsimp only at hd
      rw [hg] at hd hsettled
      have hsound' : (((s'.scheduler.waitFirst jobs).cancel jobs).waitAll jobs).Sound :=
        (hcrux.sound.cancel jobs).1.runWhile _
      rw [hafter, afterLane_error hr hd, Settled, lost_run_iff hsound' hops hmem hover]
      exact hsettled
  · rw [ho] at ho'
    cases ho'

/-- The deferred tasks of a batch when one of them cannot become a job. -/
theorem leavesNothing_refused_iff (h : s.Ready) {r : List Publishing × List Task} {f : Failure}
    (hr : r.2 ≠ []) (ho : (submitAll r.2).outcome s.opened = (.error f, s')) :
    LeavesNothing s.scheduler.jobs.length (!((afterLane r).outcome s).1.isOk) s'.scheduler
        ((afterLane r).outcome s).2.scheduler ↔
      s'.scheduler.jobs.length = s.scheduler.jobs.length := by
  obtain ⟨hlane, hsound, hjobs⟩ := h.opened
  have hd : (publishDeferred r.2).outcome s.opened = (.error f, s') := Act.outcome_bind_error ho
  rw [afterLane_error hr hd]
  rcases submitAll_cases (hlane ▸ h.lane) hsound r.2 with ⟨-, s'', ho', -⟩ |
      ⟨done, t, rest, g, es, s'', -, -, -, ho', hsub⟩
  · rw [ho] at ho'
    cases ho'
  · rw [ho] at ho'
    cases ho'
    have hlen := hsub.length
    have hholds := fun k => hsub.holds (k := k)
    rw [hjobs] at hlen hholds
    rcases h with ⟨hl, -⟩ | ⟨hl, -⟩
    · rw [shut, if_pos hl]
      exact leavesNothing_close_iff hsub.sound (by omega) hholds
    · rw [shut, if_neg (by simp [hl])]
      exact leavesNothing_self_iff hsub.sound (by omega) fun k hk hlt => (hholds k hk hlt).2

/-- The deferred tasks of a batch when all of them have become jobs. -/
theorem leavesNothing_settled_iff (h : s.Ready) {r : List Publishing × List Task}
    {jobs : List Nat} (hr : r.2 ≠ [])
    (ho : (submitAll r.2).outcome s.opened = (.ok jobs, s')) :
    LeavesNothing s.scheduler.jobs.length (!((afterLane r).outcome s).1.isOk)
        (s'.scheduler.waitFirst jobs) ((afterLane r).outcome s).2.scheduler ↔
      ∀ k job, s.scheduler.jobs.length ≤ k → (s'.scheduler.waitFirst jobs).jobs[k]? = some job →
        job.phase.isDue = false ∧ job.phase ≠ .ended .lost := by
  obtain ⟨hcrux, ops, hops, ⟨hf, hlost, ha⟩ | ⟨f, -, ho', ha⟩⟩ := atCrux_ends h hr ho
  · have hover := hcrux.allOver (List.findSome?_eq_none_iff.1 hf)
    by_cases hany : Lost s.scheduler.jobs.length (s'.scheduler.waitFirst jobs)
    · rw [ha, hlost hany]
      obtain ⟨k, hk, job, hj, hp⟩ := hany
      refine iff_of_false (fun hleft => ?_) fun hnone => (hnone k job hk hj).2 hp
      have hunfired : (s'.scheduler.waitFirst jobs).hasFired k = false := by
        rw [hasFired_of hj, hp]
        rfl
      have hcalled := hleft.stopped rfl k hk (List.getElem?_eq_some_iff.1 hj).1 hunfired
      exact not_calledOff_of_lost (hcrux.sound.run ops)
        ((kept_ended .lost).run hcrux.sound ⟨job, hj, hp⟩ ops) hcalled
    · refine iff_of_true ?_ fun k job hk hj => ⟨?_, fun hp => hany ⟨k, hk, job, hj, hp⟩⟩
      · rw [ha]
        refine leavesNothing_of_fired hcrux.sound hops fun k hk hlt => ?_
        have hin := (hcrux.mem k).2 ⟨hk, hlt⟩
        obtain ⟨job, hj, hfree⟩ := hcrux.free k hin
        have hjob := (hover k hin).of_getElem? hj
        exact ⟨job, hj, hjob, (hfree.ended hjob).resolve_right fun hp => hany ⟨k, hk, job, hj, hp⟩⟩
      · have hin := (hcrux.mem k).2 ⟨hk, (List.getElem?_eq_some_iff.1 hj).1⟩
        exact (Phase.isOver_out ((hover k hin).of_getElem? hj)).2.1
  · have hfailed : ((afterLane r).outcome s).1.isOk = false := by
      by_cases hany : Lost s.scheduler.jobs.length ((afterLane r).outcome s).2.scheduler
      · rw [ho'.2 hany]
        rfl
      · rw [ho'.1 hany]
        rfl
    rw [ha, hfailed]
    exact leavesNothing_iff_not_due hcrux.sound hops hcrux.mem hcrux.free

/-- Whether a batch returns or fails, nothing of it is left behind if and only if no job was due
when a failure came, and none was lost, and no job had been submitted when a task could not become
one. -/
theorem execute_leavesNothing_iff (s : Session) (h : s.Ready) (verify : Bool) (ts : List Task) :
    LeavesNothing s.scheduler.jobs.length (!((execute verify ts).outcome s).1.isOk)
        (crux verify ts s).scheduler ((execute verify ts).outcome s).2.scheduler ↔
      ((crux verify ts s).refused = true →
        (crux verify ts s).scheduler.jobs.length = s.scheduler.jobs.length) ∧
      ((crux verify ts s).refused = false → ∀ k job, s.scheduler.jobs.length ≤ k →
        (crux verify ts s).scheduler.jobs[k]? = some job →
          job.phase.isDue = false ∧ job.phase ≠ .ended .lost) := by
  rw [execute_eq, crux]
  obtain ⟨hready, hlen⟩ := h.evolves (upToLane_evolves verify ts s)
  cases hu : (upToLane verify ts).outcome s with
  | mk o s₁ =>
    rw [hu] at hready hlen
    cases o with
    | error f =>
      rw [Act.outcome_bind_error hu]
      dsimp only at hlen ⊢
      refine iff_of_true (leavesNothing_of_length (by omega) (by omega)) ⟨nofun, ?_⟩
      intro _ k job hk hj
      have := (List.getElem?_eq_some_iff.1 hj).1
      omega
    | ok r =>
      rw [Act.outcome_bind_ok hu]
      dsimp only at hlen ⊢
      rw [← hlen]
      by_cases hr : r.2 = []
      · obtain ⟨-, hsound, hjobs⟩ := hready.opened
        have hwait : (s₁.opened.scheduler.waitFirst []).jobs.length = s₁.scheduler.jobs.length := by
          rw [waitFirst, (hsound.aged_runWhile _).length, hjobs]
        rw [hr, afterLane, if_pos hr]
        refine iff_of_true ?_ ⟨nofun, ?_⟩
        · exact leavesNothing_of_length (Nat.le_of_eq hwait) (Nat.le_refl _)
        · intro _ k job hk hj
          have := (List.getElem?_eq_some_iff.1 hj).1
          change k < (s₁.opened.scheduler.waitFirst []).jobs.length at this
          omega
      · cases hsub : (submitAll r.2).outcome s₁.opened with
        | mk o s₂ =>
          cases o with
          | error f => simpa using leavesNothing_refused_iff hready hr hsub
          | ok jobs => simpa using leavesNothing_settled_iff hready hr hsub

/-- A session with an adapter for rehearsals, which fails on a text, and one without an id. -/
def rehearsal : Session where
  scheduler := fresh {} { adapters := [
    ("a", .recorder { id := .text "a", failOn := [.text "bad"] }), ("b", .bare {})] }

theorem ready_rehearsal : rehearsal.Ready := .inl ⟨rfl, idle_fresh _ _⟩

def rehearsed (adapter text : String) (delay : Int) : Task :=
  { adapter := adapter, content := { text := .text text }, delay := delay }

/-- The first post fails while the second one waits. -/
def failing : List Task := [rehearsed "a" "bad" 5, rehearsed "a" "late" 10]

theorem leavesNothing_failing : LeavesNothing 0 true (crux false failing rehearsal).scheduler
    ((execute false failing).outcome rehearsal).2.scheduler := by
  have hf : (!((execute false failing).outcome rehearsal).1.isOk) = true := by decide +kernel
  have hr : (crux false failing rehearsal).refused = false := by decide +kernel
  have hd : (crux false failing rehearsal).scheduler.jobs.all
      (fun job => !job.phase.isDue && !job.phase.isLost) = true := by decide +kernel
  have h := (execute_leavesNothing_iff rehearsal ready_rehearsal false failing).2
    ⟨by simp [hr], fun _ k job _ hj => by
      have hjob := List.all_eq_true.1 hd job (List.mem_of_getElem? hj)
      rw [Bool.and_eq_true, Bool.not_eq_true', Bool.not_eq_true'] at hjob
      exact ⟨hjob.1, fun hp => by simp [hp, Phase.isLost] at hjob⟩⟩
  rw [hf] at h
  exact h

/-- The first post waits, and the second task cannot be announced. -/
def unannounced : List Task := [rehearsed "a" "early" 5, rehearsed "b" "late" 5]

/-- A post that waits when a later task cannot be announced comes about all the same. -/
theorem not_leavesNothing_unannounced :
    ((execute false unannounced).outcome rehearsal).1.isOk = false ∧
    (crux false unannounced rehearsal).scheduler.hasFired 0 = false ∧
    ((execute false unannounced).outcome rehearsal).2.scheduler.hasFired 0 = true ∧
    ¬ LeavesNothing 0 true (crux false unannounced rehearsal).scheduler
      ((execute false unannounced).outcome rehearsal).2.scheduler := by
  have hbefore : (crux false unannounced rehearsal).scheduler.hasFired 0 = false := by
    decide +kernel
  have hafter : ((execute false unannounced).outcome rehearsal).2.scheduler.hasFired 0 = true := by
    decide +kernel
  refine ⟨by decide +kernel, hbefore, hafter, fun h => ?_⟩
  have hlt : 0 < (crux false unannounced rehearsal).scheduler.jobs.length := by decide +kernel
  have hcalled := (h.stopped rfl 0 (Nat.le_refl 0) hlt hbefore).unfired []
  rw [run, List.foldl_nil, hafter] at hcalled
  cases hcalled

/-! ### Batches in a row -/

theorem Submitted.threaded (h : s.Submitted ts es s') (hi : s.scheduler.Idle) :
    Threaded s'.scheduler := by
  intro k hk
  by_cases hlt : k < s.scheduler.jobs.length
  · obtain ⟨js, hj, -⟩ := h.jobs
    refine .inr ⟨s.scheduler.jobs[k], ?_, hi.ended _ (List.getElem_mem hlt)⟩
    rw [hj, List.getElem?_append_left hlt, List.getElem?_eq_getElem hlt]
  · exact .inl (h.holds (Nat.le_of_not_lt hlt) hk).1

/-- Waiting for jobs keeps what is over over, and what is waited for waited for. -/
theorem settle_threaded (hl : s.lane ≠ .inline) (hs : s.scheduler.Sound) (jobs : List Nat) :
    ((settle jobs).outcome s).2.lane = s.lane ∧ ((settle jobs).outcome s).2.scheduler.Sound ∧
    (Threaded s.scheduler → Threaded ((settle jobs).outcome s).2.scheduler) := by
  have hw : (s.scheduler.waitFirst jobs).Sound := hs.runWhile _
  obtain ⟨hcs, hct⟩ := hw.cancel jobs
  rw [outcome_settle hl]
  cases firstFailure? (s.scheduler.waitFirst jobs) jobs with
  | none =>
    refine ⟨rfl, hw, fun h => h.of_kept (hs.aged_runWhile _).length (hs.aged_runWhile _).threads ?_⟩
    exact fun k hk => kept_over.runWhile hs hk _
  | some f =>
    refine ⟨rfl, hcs.runWhile _, fun h => h.of_kept ?_ ?_ fun k hk => ?_⟩
    · exact (hcs.aged_runWhile _).length.trans (hct.length.trans (hs.aged_runWhile _).length)
    · exact (hcs.aged_runWhile _).threads.trans (hct.threads.trans (hs.aged_runWhile _).threads)
    · exact kept_over.waitAll hcs (kept_over.told_of hct (kept_over.runWhile hs hk _)) jobs

/-- However the deferred tasks of a batch end. -/
theorem publishDeferred_threaded (h : s.Ready) (ts : List Task) :
    ((publishDeferred ts).outcome s.opened).2.lane = s.lane ∧
    ((publishDeferred ts).outcome s.opened).2.scheduler.Sound ∧
    (s.scheduler.Idle → Threaded ((publishDeferred ts).outcome s.opened).2.scheduler) := by
  obtain ⟨hlane, hsound, -⟩ := h.opened
  have hidle : s.scheduler.Idle → s.opened.scheduler.Idle := by
    intro hi
    unfold Session.opened
    split
    · exact hi.renew _
    · exact hi
  rcases submitAll_cases (hlane ▸ h.lane) hsound ts with ⟨-, s', ho, hsub⟩ |
      ⟨done, t, rest, f, es, s', -, -, -, ho, hsub⟩
  · have hd : (publishDeferred ts).outcome s.opened = (settle _).outcome s' :=
      Act.outcome_bind_ok ho
    have hl' : s'.lane = s.lane := hsub.lane.trans hlane
    obtain ⟨hlast, hsettled, hthreaded⟩ := settle_threaded (hl' ▸ h.lane) hsub.sound
      (List.range' s.opened.scheduler.jobs.length ts.length)
    rw [hd]
    exact ⟨hlast.trans hl', hsettled, fun hi => hthreaded (hsub.threaded (hidle hi))⟩
  · have hd : (publishDeferred ts).outcome s.opened = (.error f, s') := Act.outcome_bind_error ho
    rw [hd]
    exact ⟨hsub.lane.trans hlane, hsub.sound, fun hi => hsub.threaded (hidle hi)⟩

theorem ready_shut (h : s.Ready) (hl : s'.lane = s.lane) (hs : s'.scheduler.Sound)
    (ht : s.scheduler.Idle → Threaded s'.scheduler) : (s'.shut s.lane).Ready := by
  rcases h with ⟨hown, hi⟩ | ⟨hshared, -⟩
  · rw [shut, if_pos hown]
    exact .inl ⟨hl.trans hown, idle_close hs (ht hi)⟩
  · rw [shut, if_neg (by simp [hshared])]
    exact .inr ⟨hl.trans hshared, hs⟩

/-- A session is ready for the next batch after each one. -/
theorem Ready.execute (h : s.Ready) (verify : Bool) (ts : List Task) :
    ((execute verify ts).outcome s).2.Ready := by
  rw [execute_eq]
  obtain ⟨hready, -⟩ := h.evolves (upToLane_evolves verify ts s)
  cases hu : (upToLane verify ts).outcome s with
  | mk o s₁ =>
    rw [hu] at hready
    cases o with
    | error f => rwa [Act.outcome_bind_error hu]
    | ok r =>
      rw [Act.outcome_bind_ok hu]
      by_cases hr : r.2 = []
      · rw [afterLane, if_pos hr]
        exact hready
      · obtain ⟨hl, hs, ht⟩ := publishDeferred_threaded hready r.2
        exact ((ready_shut hready hl hs ht).evolves (afterLane_talks hr)).1

end Session

end Syndicate
