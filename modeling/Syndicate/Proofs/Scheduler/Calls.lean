import Syndicate.Proofs.Scheduler.Follow
import Syndicate.Proofs.Scheduler.Punctual
import Syndicate.Proofs.Scheduler.Seconds

/-! What a run calls. Beside the world it is noted when the function of a job is called, and when
it comes to its end and with what; nothing else about the run changes. A job that nobody stops is
called exactly once, not before its delay is over, and its future ends with what the call came
to. -/

namespace Syndicate

variable {σ ρ : Type}

/-- The function of a job is called, and comes to its end. -/
inductive Note (ρ : Type) where
  | begins (job clock : Nat)
  | ends (job clock : Nat) (result : Outcome ρ)

def Note.job : Note ρ → Nat
  | .begins job _ | .ends job _ _ => job

def Note.clock : Note ρ → Nat
  | .begins _ clock | .ends _ clock _ => clock

/-- The same work, which notes its calls under the number of its job. -/
def Work.noted (i : Nat) (work : Work σ ρ) : Work (σ × List (Note ρ)) ρ where
  enter clock w := (work.enter clock w.1, w.2 ++ [.begins i clock])
  duration := work.duration
  lag w := work.lag w.1
  leave clock w :=
    ((work.leave clock w.1).1,
      (work.leave clock w.1).2, w.2 ++ [.ends i clock (work.leave clock w.1).1])

theorem Work.matches_noted (work : Work σ ρ) (i : Nat) :
    Work.Matches (fun (w : σ) (v : σ × List (Note ρ)) => v.1 = w) work (work.noted i) where
  duration := rfl
  enter clock u v h := by rw [← h]; rfl
  lag u v h := by rw [← h]; rfl
  result clock u v h := by rw [← h]; rfl
  leave clock u v h := by rw [← h]; rfl

namespace Scheduler

variable {m m' : Scheduler σ ρ} {n n' : Scheduler (σ × List (Note ρ)) ρ} {i k t : Nat}
  {work : Work σ ρ}

def Op.noted (i : Nat) : Op σ ρ → Op (σ × List (Note ρ)) ρ
  | .submit work delay => .submit (work.noted i) delay
  | .cancel names => .cancel names
  | .cancelAll => .cancelAll
  | .step => .step
  | .advance time => .advance time
  | .waitAll names => .waitAll names
  | .close => .close
  | .act f => .act fun w => (f w.1, w.2)

def Demand.noted (i : Nat) : Demand σ ρ → Demand (σ × List (Note ρ)) ρ
  | .op asked => .op (asked.noted i)
  | .revoke j => .revoke j

/-- A new job is noted under the number that it is given. -/
def meetNoted (n : Scheduler (σ × List (Note ρ)) ρ) (d : Demand σ ρ) :
    Scheduler (σ × List (Note ρ)) ρ :=
  n.meet (d.noted n.jobs.length)

/-- A run of a new scheduler with its calls noted. -/
def notedRun (settings : Settings) (w : σ) (ds : List (Demand σ ρ)) :
    Scheduler (σ × List (Note ρ)) ρ :=
  ds.foldl meetNoted (fresh settings (w, []))

/-- The calls of a run that is closed in the end. -/
def calls (settings : Settings) (w : σ) (ds : List (Demand σ ρ)) : List (Note ρ) :=
  (notedRun settings w ds).close.world.2

/-- What lasts does so in a run with its calls noted, if a job that is taken on under its own number
leaves it, and a change of the world as well. -/
theorem Persists.performNoted {P : Scheduler (σ × List (Note ρ)) ρ → Prop} (hP : Persists P)
    (h : P n) (op : Op σ ρ)
    (hsubmit : ∀ {work : Work σ ρ} {delay : Int} {i : Nat} {n' : Scheduler (σ × List (Note ρ)) ρ},
      n.submit (work.noted n.jobs.length) delay = .ok (i, n') → P n')
    (hact : ∀ f : σ → σ, P { n with world := (f n.world.1, n.world.2) }) :
    P (n.perform (op.noted n.jobs.length)) := by
  refine hP.perform h (fun hop hs => ?_) fun hop => ?_
  · cases op <;> cases hop
    exact hsubmit hs
  · cases op <;> cases hop
    exact hact _

/-! ### Noting changes nothing -/

/-- A scheduler and its twin that notes its calls. -/
abbrev Noting (m : Scheduler σ ρ) (n : Scheduler (σ × List (Note ρ)) ρ) : Prop :=
  Follows (fun w v => v.1 = w) [] 0 m n

theorem noting_fresh (settings : Settings) (w : σ) :
    Noting (fresh settings w : Scheduler σ ρ) (fresh settings (w, [])) :=
  (idle_fresh settings (w, [])).follows Nat.one_pos (by simp [fresh]) rfl

theorem Noting.perform (h : Noting m n) (op : Op σ ρ) (i : Nat) :
    Noting (m.perform op) (n.perform (op.noted i)) := by
  have hzero : ∀ names : List Nat, names.map (· + ([] : List (Job (σ × List (Note ρ)) ρ)).length) =
      names := fun names => by simp
  cases op with
  | submit work delay =>
    rcases h.submit (work.matches_noted i) delay with
      ⟨f, hm, hn⟩ | ⟨j, m', n', hm, hn, hf⟩
    · rw [Op.noted, perform_submit_error hm, perform_submit_error hn]
      exact h
    · rw [Op.noted, perform_submit_ok hm, perform_submit_ok hn]
      exact hf
  | cancel names =>
    have hc := h.cancel names
    rwa [hzero] at hc
  | cancelAll => exact h.cancelAll
  | step => exact h.step
  | advance time => exact h.advance time
  | waitAll names =>
    have hw := h.waitAll names
    rwa [hzero] at hw
  | close => exact h.close
  | act f => exact h.inWorld (congrArg f h.worlds)

theorem Noting.meet (h : Noting m n) (d : Demand σ ρ) : Noting (m.meet d) (n.meetNoted d) := by
  cases d with
  | op op => exact Noting.perform h op _
  | revoke j => exact h.revoke j

theorem Noting.run (h : Noting m n) (ds : List (Demand σ ρ)) :
    Noting (m.meetAll ds) (ds.foldl meetNoted n) := by
  induction ds generalizing m n with
  | nil => exact h
  | cons d ds ih => exact ih (Noting.meet h d)

/-! ### The calls of one job -/

/-- What is noted of a job by a phase: nothing until it fires, then one call, not before its time,
and in the end what its function came to. -/
inductive Row (work : Work σ ρ) (t i : Nat) : Phase ρ → List (Note ρ) → Prop
  | unfired {p : Phase ρ} (h : p.hasFired = false) : Row work t i p []
  | running {begun : Nat} (h : t ≤ begun) : Row work t i .running [.begins i begun]
  | finished {begun ended : Nat} (h : t ≤ begun) (w : σ) :
    Row work t i (.ended (.finished (work.leave ended w).1))
      [.begins i begun, .ends i ended (work.leave ended w).1]

theorem Row.nil {p : Phase ρ} {row : List (Note ρ)} (h : Row work t i p row)
    (hp : p.hasFired = false) : row = [] := by
  cases h with
  | unfired => rfl
  | running => simp [Phase.hasFired] at hp
  | finished => simp [Phase.hasFired] at hp

/-- What a move of a job to a phase notes. -/
inductive Notes (work : Work σ ρ) (k clock : Nat) (job : Job (σ × List (Note ρ)) ρ) :
    Phase ρ → List (Note ρ) → Prop
  | nothing {p : Phase ρ} (h : job.phase.hasFired = false) (hp : p.hasFired = false) :
    Notes work k clock job p []
  | begins (hf : job.MayFire) : Notes work k clock job .running [.begins k clock]
  | passes (hf : job.MayFire) (w : σ) :
    Notes work k clock job (.ended (.finished (work.leave clock w).1))
      [.begins k clock, .ends k clock (work.leave clock w).1]
  | ends (hp : job.phase = .running) (w : σ) :
    Notes work k clock job (.ended (.finished (work.leave clock w).1))
      [.ends k clock (work.leave clock w).1]

theorem moves_notes {job : Job (σ × List (Note ρ)) ρ} {clock : Nat} {w w' : σ × List (Note ρ)}
    {p : Phase ρ} (hw : job.work = work.noted k) (h : job.Moves clock w p w') :
    ∃ new, w'.2 = w.2 ++ new ∧ Notes work k clock job p new := by
  cases h with
  | revoked hp => exact ⟨[], by simp, .nothing (by rw [hp]; rfl) rfl⟩
  | calledOff he => exact ⟨[], by simp, .nothing (Phase.hasFired_of_isEarly he) rfl⟩
  | waits hp | lost hp | queues hp => exact ⟨[], by simp, .nothing (by rw [hp]; rfl) rfl⟩
  | begins hf => exact ⟨_, by rw [hw]; rfl, .begins hf⟩
  | passes hf =>
    rw [hw]
    exact ⟨_, by simp [Work.noted], .passes hf (work.enter clock w.1)⟩
  | ends hp =>
    rw [hw]
    exact ⟨_, rfl, .ends hp w.1⟩

namespace Notes

variable {job : Job (σ × List (Note ρ)) ρ} {clock : Nat} {p : Phase ρ} {new row : List (Note ρ)}

theorem job_eq (h : Notes work k clock job p new) : ∀ c ∈ new, c.job = k := by
  cases h <;> simp [Note.job]

/-- The calls of a job keep in step with its phase. -/
theorem keeps_row (h : Notes work k clock job p new) (ht : job.MayFire → t ≤ clock)
    (hr : Row work t k job.phase row) : Row work t k p (row ++ new) := by
  cases h with
  | nothing hj hp =>
    obtain rfl := hr.nil hj
    exact .unfired hp
  | begins hf =>
    obtain rfl := hr.nil hf.unfired
    exact .running (ht hf)
  | passes hf w =>
    obtain rfl := hr.nil hf.unfired
    exact .finished (ht hf) w
  | ends hp w =>
    rw [hp] at hr
    cases hr with
    | unfired hp' => simp [Phase.hasFired] at hp'
    | running hb => exact .finished hb w

end Notes

/-- Every job notes its calls under its own number, and nothing else is noted. -/
structure Numbered (n : Scheduler (σ × List (Note ρ)) ρ) : Prop where
  sound : n.Sound
  works : ∀ j < n.jobs.length, Holds (fun job => ∃ x : Work σ ρ, job.work = x.noted j) j n
  calls : ∀ c ∈ n.world.2, c.job < n.jobs.length

theorem lasting_noted (j : Nat) : Lasting fun job : Job (σ × List (Note ρ)) ρ =>
    ∃ x : Work σ ρ, job.work = x.noted j where
  moves h _ := h
  granted h _ := h
  told h := h
  revoked h _ := h

/-- The calls of a job, and its row. -/
def Recorded (work : Work σ ρ) (t i : Nat) (n : Scheduler (σ × List (Note ρ)) ρ) : Prop :=
  Holds (fun job => job.work = work.noted i ∧
    Row work t i job.phase (n.world.2.filter fun c => c.job = i)) i n

theorem Recorded.same (h : Recorded work t i n) (hw : n'.world.2 = n.world.2)
    (hj : ∀ job, n.jobs[i]? = some job → Holds
      (fun job' => job'.work = job.work ∧ job'.phase = job.phase) i n') :
    Recorded work t i n' := by
  obtain ⟨job, hi, hwork, hrow⟩ := h
  obtain ⟨job', hi', hwork', hphase⟩ := hj job hi
  exact ⟨job', hi', hwork'.trans hwork, by rw [hw, hphase]; exact hrow⟩

theorem Numbered.step (h : Numbered n) : Numbered n.step := by
  by_cases hq : n.queue = []
  · rwa [step_of_queue_nil hq]
  · obtain ⟨e, job, p, -, hj, ht, -⟩ := h.sound.step hq
    have hlt := (List.getElem?_eq_some_iff.1 hj).1
    obtain ⟨x, hx⟩ := (h.works e.job hlt).of_getElem? hj
    obtain ⟨new, hnew, hnotes⟩ := moves_notes hx ht.moves
    refine ⟨ht.sound, fun j hl => ?_, fun c hc => ?_⟩
    · rw [ht.length] at hl
      exact (lasting_noted j).step h.sound (h.works j hl)
    · rw [ht.length]
      rw [hnew, List.mem_append] at hc
      rcases hc with hc | hc
      · exact h.calls c hc
      · rw [hnotes.job_eq c hc]
        exact hlt

theorem Recorded.step (hn : Numbered n) (hp : Punctual t i n) (h : Recorded work t i n) :
    Recorded work t i n.step := by
  by_cases hq : n.queue = []
  · rwa [step_of_queue_nil hq]
  · obtain ⟨e, job, p, he, hj, ht, -⟩ := hn.sound.step hq
    by_cases hi : i = e.job
    · subst hi
      obtain ⟨hwork, hrow⟩ := h.of_getElem? hj
      obtain ⟨new, hnew, hnotes⟩ := moves_notes hwork ht.moves
      have htime : job.MayFire → t ≤ (n.taken e).clock :=
        (hp.of_getElem? hj).le_clock (first?_mem he) rfl
      have hall : new.filter (fun c => c.job = e.job) = new :=
        List.filter_eq_self.2 fun c hc => by simpa using hnotes.job_eq c hc
      refine ⟨_, ht.moved, hwork, ?_⟩
      rw [hnew, List.filter_append, hall]
      exact hnotes.keeps_row htime hrow
    · obtain ⟨x, hx⟩ := (hn.works e.job (List.getElem?_eq_some_iff.1 hj).1).of_getElem? hj
      obtain ⟨new, hnew, hnotes⟩ := moves_notes hx ht.moves
      have hnone : new.filter (fun c => c.job = i) = [] :=
        List.filter_eq_nil_iff.2 fun c hc => by simpa [hnotes.job_eq c hc] using Ne.symm hi
      obtain ⟨other, ho, hwork, hrow⟩ := h
      have hsame : n.step.world.2.filter (fun c => c.job = i) =
          n.world.2.filter fun c => c.job = i := by
        rw [hnew, List.filter_append, hnone, List.append_nil]
        rfl
      rcases ht.others i other hi ho with hother | ⟨hqueued, hother⟩
      · exact ⟨other, hother, hwork, by rw [hsame]; exact hrow⟩
      · refine ⟨_, hother, hwork, ?_⟩
        rw [hsame, hrow.nil (by rw [hqueued]; rfl)]
        exact .unfired rfl

theorem persists_numbered :
    Persists (Numbered : Scheduler (σ × List (Note ρ)) ρ → Prop) where
  sound h := h.sound
  step h := h.step
  told h hn ht := {
    sound := hn
    works := fun j hl => (lasting_noted j).told_of ht (h.works j (ht.length ▸ hl))
    calls := fun c hc => by
      rw [ht.world] at hc
      rw [ht.length]
      exact h.calls c hc }
  still h hs := {
    sound := hs.sound
    works := fun j hl => (h.works j (hs.jobs ▸ hl)).congr hs.jobs
    calls := fun c hc => by
      rw [hs.world] at hc
      rw [hs.jobs]
      exact h.calls c hc }

theorem Numbered.submit {delay : Int} (h : Numbered n)
    (hs : n.submit (work.noted n.jobs.length) delay = .ok (i, n')) : Numbered n' := by
  obtain ⟨hsound, -, ht⟩ := h.sound.submit hs
  refine ⟨hsound, fun j hl => ?_, fun c hc => ?_⟩
  · rw [ht.length] at hl
    by_cases hj : j < n.jobs.length
    · obtain ⟨job, hi, hx⟩ := h.works j hj
      exact ⟨job, ht.getElem? hi, hx⟩
    · obtain ⟨job, hnew, hjobs⟩ := ht.jobs
      obtain rfl : j = n.jobs.length := by omega
      exact ⟨job, by rw [hjobs, List.getElem?_concat_length], work, hnew.work⟩
  · rw [ht.world] at hc
    rw [ht.length]
    exact Nat.lt_succ_of_lt (h.calls c hc)

theorem Numbered.inWorld (h : Numbered n) (f : σ → σ) :
    Numbered { n with world := (f n.world.1, n.world.2) } :=
  ⟨h.sound.inWorld _, h.works, h.calls⟩

theorem Numbered.revoke (h : Numbered n) (k : Nat) : Numbered (n.revoke k).2 := by
  refine ⟨h.sound.revoke k, fun j hl => (lasting_noted j).revoke (h.works j ?_) k, fun c hc => ?_⟩
  · rcases revoke_cases n k with he | ⟨job, -, -, he⟩
    · rwa [he] at hl
    · simpa [he] using hl
  · rcases revoke_cases n k with he | ⟨job, -, -, he⟩
    · rw [he] at hc ⊢
      exact h.calls c hc
    · rw [he] at hc
      simpa [he] using h.calls c hc

theorem Numbered.meetNoted (h : Numbered n) (d : Demand σ ρ) : Numbered (n.meetNoted d) := by
  cases d with
  | op op => exact persists_numbered.performNoted h op h.submit h.inWorld
  | revoke k => exact h.revoke k

theorem numbered_run (settings : Settings) (w : σ) (ds : List (Demand σ ρ)) :
    Numbered (notedRun settings w ds) := by
  have hstart : Numbered (fresh settings (w, []) : Scheduler (σ × List (Note ρ)) ρ) :=
    ⟨(idle_fresh settings (w, [])).sound, by simp [fresh], by simp [fresh]⟩
  unfold notedRun
  generalize fresh settings (w, ([] : List (Note ρ))) = n at hstart
  induction ds generalizing n with
  | nil => exact hstart
  | cons d ds ih => exact ih _ (hstart.meetNoted d)

/-- A job and its calls in a run that goes on: it is called at most once, not before a time, and
what its call came to is how it ended. -/
structure Tracked (work : Work σ ρ) (t i : Nat) (n : Scheduler (σ × List (Note ρ)) ρ) : Prop where
  numbered : Numbered n
  punctual : Punctual t i n
  recorded : Recorded work t i n

theorem Tracked.step (h : Tracked work t i n) : Tracked work t i n.step :=
  ⟨h.numbered.step, h.punctual.step h.numbered.sound, h.recorded.step h.numbered h.punctual⟩

theorem Tracked.close (h : Tracked work t i n) : Tracked work t i n.close := by
  have hun : Tracked work t i { n with threads := [] } :=
    ⟨persists_numbered.still h.numbered ⟨h.numbered.sound.unthreaded, rfl, rfl, rfl, rfl⟩,
      h.punctual.later rfl rfl (Nat.le_refl _), h.recorded⟩
  exact close_induct (fun _ h _ => h.step) hun

theorem Recorded.told {names : List Nat} (h : Recorded work t i n) (ht : n.Told names n') :
    Recorded work t i n' := by
  refine h.same (congrArg Prod.snd ht.world) fun job hi => ⟨_, by rw [ht.jobs, hi]; rfl, ?_⟩
  split <;> exact ⟨rfl, rfl⟩

theorem Recorded.revoke (h : Recorded work t i n) (k : Nat) :
    Recorded work t i (n.revoke k).2 := by
  rcases revoke_cases n k with he | ⟨job, hk, -, he⟩
  · rwa [he]
  · rw [he]
    refine h.same rfl fun other hi => ?_
    by_cases hik : i = k
    · subst hik
      rw [hk] at hi
      cases hi
      exact ⟨{ job with revoked := true },
        by rw [setJob_jobs, getElem?_set_of_some hk, if_pos rfl], rfl, rfl⟩
    · exact ⟨other, by rw [setJob_jobs, getElem?_set_of_some hk, if_neg hik, hi], rfl, rfl⟩

theorem Tracked.meetNoted (h : Tracked work t i n) (d : Demand σ ρ) :
    Tracked work t i (n.meetNoted d) := by
  have hs := h.numbered.sound
  have hn := h.numbered.meetNoted d
  have hp : Punctual t i (n.meetNoted d) := h.punctual.meet hs _
  cases d with
  | op asked =>
    cases asked with
    | submit x delay =>
      refine ⟨hn, hp, ?_⟩
      show Recorded work t i (n.perform (.submit (x.noted n.jobs.length) delay))
      cases hx : n.submit (x.noted n.jobs.length) delay with
      | error f => rw [perform_submit_error hx]; exact h.recorded
      | ok r =>
        obtain ⟨-, -, ht⟩ := hs.submit hx
        rw [perform_submit_ok hx]
        exact h.recorded.same (congrArg Prod.snd ht.world) fun job hi =>
          ⟨job, ht.getElem? hi, rfl, rfl⟩
    | cancel names => exact ⟨hn, hp, h.recorded.told (hs.cancel names).2⟩
    | cancelAll => exact ⟨hn, hp, h.recorded.told hs.cancelAll.2⟩
    | step => exact h.step
    | advance time =>
      have hr : Tracked work t i (n.runWhile (isDueBy (n.clock + time))) :=
        runWhile_induct (fun _ h _ => h.step) _ h
      exact ⟨hn, hp, hr.recorded⟩
    | waitAll names => exact runWhile_induct (fun _ h _ => Tracked.step h) _ h
    | close => exact h.close
    | act f => exact ⟨hn, hp, h.recorded⟩
  | revoke k => exact ⟨hn, hp, h.recorded.revoke k⟩

theorem Tracked.run (h : Tracked work t i n) (ds : List (Demand σ ρ)) :
    Tracked work t i (ds.foldl Scheduler.meetNoted n) := by
  induction ds generalizing n with
  | nil => exact h
  | cons d ds ih => exact ih (h.meetNoted d)

/-- A new job has not been called, and is not to be called before its delay is over. -/
theorem Numbered.tracked {delay : Int} {wait : Nat} (h : Numbered n)
    (hw : n.settings.wait delay = .ok wait)
    (hs : n.submit (work.noted n.jobs.length) delay = .ok (i, n')) :
    Tracked work (n'.clock + wait) i n' := by
  obtain ⟨-, rfl, ht⟩ := h.sound.submit hs
  obtain ⟨job, hnew, hjobs⟩ := ht.jobs
  refine ⟨h.submit hs, h.sound.punctual_submit hw hs, job,
    by rw [hjobs, List.getElem?_concat_length], hnew.work, ?_⟩
  have hnone : n'.world.2.filter (fun c => c.job = n.jobs.length) = [] := by
    rw [ht.world]
    exact List.filter_eq_nil_iff.2 fun c hc => by simpa using Nat.ne_of_lt (h.calls c hc)
  rw [hnone]
  exact .unfired hnew.unfired

/-! ### What is promised -/

/-- A job that is over and was on its course has been called once, and its future has the result. -/
theorem Tracked.served {a : Job σ ρ} (h : Tracked work t i n) (hf : Noting m n)
    (ha : m.jobs[i]? = some a) (hc : a.OnCourse) (ho : a.phase.isOver = true) :
    ∃ begun ended result, n.world.2.filter (fun c => c.job = i) =
        [.begins i begun, .ends i ended result] ∧
      t ≤ begun ∧ (∃ w, result = (work.leave ended w).1) ∧ m.future i = .done result := by
  rcases hf.getElem? i with ⟨hnone, -⟩ | ⟨a', b, ha', hb, hab⟩
  · rw [ha] at hnone
    cases hnone
  · rw [ha] at ha'
    cases ha'
    obtain ⟨-, hrow⟩ := h.recorded.of_getElem? hb
    have hfired : b.phase.hasFired = true := by rw [hab.phase]; exact hc.fired ho
    have hover : b.phase.isOver = true := by rw [hab.phase]; exact ho
    have hphase := hab.phase
    generalize n.world.2.filter (fun c => c.job = i) = row at hrow ⊢
    generalize b.phase = p at hrow hfired hover hphase
    cases hrow with
    | unfired hp => simp [hp] at hfired
    | running => simp [Phase.isOver] at hover
    | @finished begun ended hb w =>
      exact ⟨begun, ended, _, rfl, hb, ⟨w, rfl⟩, by simp only [future, ha, ← hphase]⟩

/-- A job that is lost has not been called, and its future has not ended. -/
theorem Tracked.unserved {a : Job σ ρ} (h : Tracked work t i n) (hf : Noting m n)
    (ha : m.jobs[i]? = some a) (hd : a.Doomed) (ho : a.phase.isOver = true) :
    n.world.2.filter (fun c => c.job = i) = [] ∧ m.future i = .pending := by
  have hlost : a.phase = .ended .lost := hd.phase.resolve_left fun hp => by
    simp [hp, Phase.isOver] at ho
  have hpending : m.future i = .pending := by
    simp only [future, ha, hlost, hd.revoked]
    rfl
  rcases hf.getElem? i with ⟨hnone, -⟩ | ⟨a', b, ha', hb, hab⟩
  · rw [ha] at hnone
    cases hnone
  · rw [ha] at ha'
    cases ha'
    obtain ⟨-, hrow⟩ := h.recorded.of_getElem? hb
    exact ⟨hrow.nil (by rw [hab.phase, hlost]; rfl), hpending⟩

/-- The twin that notes its calls takes on the job too, and goes on with it. -/
theorem tracked_submit {settings : Settings} {w : σ} {before : List (Demand σ ρ)} {delay : Int}
    {wait : Nat} (hw : settings.wait delay = .ok wait)
    (hs : ((fresh settings w).meetAll before).submit work delay = .ok (i, m)) :
    ∃ n, Noting m n ∧ Tracked work (m.clock + wait) i n ∧
      ∀ after, calls settings w (before ++ .op (.submit work delay) :: after) =
        (after.foldl meetNoted n).close.world.2 := by
  have hnoting : Noting ((fresh settings w).meetAll before) (notedRun settings w before) :=
    Noting.run (noting_fresh settings w) before
  have hsettings : (notedRun settings w before).settings = settings :=
    hnoting.settings.trans ((idle_fresh settings w).sound.settings_meetAll before)
  rcases hnoting.submit (work.matches_noted (notedRun settings w before).jobs.length) delay with
    ⟨f, he, -⟩ | ⟨j, m', n, hm, hn, hafter⟩
  · rw [hs] at he
    cases he
  · rw [hs] at hm
    cases hm
    have htracked := (numbered_run settings w before).tracked (hsettings.symm ▸ hw) hn
    rw [hafter.clock] at htracked
    refine ⟨n, hafter, htracked, fun after => ?_⟩
    rw [calls, notedRun, List.foldl_append, List.foldl_cons]
    rw [meetNoted, Demand.noted, Op.noted]
    exact congrArg (fun k => (after.foldl meetNoted k).close.world.2) (meet_submit hn)

/-- A job that was taken on is on its course, or its delay is too long. -/
theorem Sound.submit_heads {delay : Int} {wait : Nat} (h : m.Sound)
    (hw : m.settings.wait delay = .ok wait) (hs : m.submit work delay = .ok (i, m')) :
    (m.settings.isOverlong wait = false → Holds Job.OnCourse i m') ∧
    (m.settings.isOverlong wait = true → Holds Job.Doomed i m') := by
  obtain ⟨-, rfl, ht⟩ := h.submit hs
  obtain ⟨job, hnew, hjobs⟩ := ht.jobs
  obtain rfl : wait = job.wait := Except.ok.inj (hw.symm.trans hnew.wait)
  have hat : m'.jobs[m.jobs.length]? = some job := by rw [hjobs, List.getElem?_concat_length]
  exact ⟨fun ho => ⟨job, hat, hnew.onCourse (hnew.overlong.trans ho)⟩,
    fun ho => ⟨job, hat, hnew.doomed (hnew.overlong.trans ho)⟩⟩

/-- A delay whose job was taken on is one that can be given in seconds. -/
theorem wait_of_submit {delay : Int} (hs : m.submit work delay = .ok (i, m')) :
    ∃ wait, m.settings.wait delay = .ok wait := by
  rw [submit_eq] at hs
  cases hw : m.settings.wait delay with
  | error f => simp [hw] at hs
  | ok wait => exact ⟨wait, rfl⟩

/-- Whatever is asked of a new scheduler, the list of pending jobs holds exactly those that have not
ended, and closing leaves it empty and every future done but those of jobs whose wait is too long.
A job that nothing of it stops calls its function exactly once, not before its wait is over, and its
future ends with the result; if its wait is too long it calls its function not at all, and its
future never ends. The wait is the delay, cut to the longest wait, and to the millisecond unless it
takes more than 52 bits. -/
theorem unstopped_calledOnce (settings : Settings) (w : σ) (ds : List (Demand σ ρ)) :
    ((fresh settings w).meetAll ds).pending =
      (List.range ((fresh settings w).meetAll ds).jobs.length).filter
        (fun i => !((fresh settings w).meetAll ds).hasEnded i) ∧
    ((fresh settings w).meetAll ds).close.pending = [] ∧
    (∀ i < ((fresh settings w).meetAll ds).jobs.length,
      (((fresh settings w).meetAll ds).close.future i).isDone = true ∨
      Holds (fun job => settings.isOverlong job.wait = true) i
        ((fresh settings w).meetAll ds).close) ∧
    ∀ (before after : List (Demand σ ρ)) (work : Work σ ρ) (delay : Int) (i : Nat)
      (n : Scheduler σ ρ), ds = before ++ .op (.submit work delay) :: after →
      ((fresh settings w).meetAll before).submit work delay = .ok (i, n) →
      unstopped i n after = true →
      ∃ wait, settings.wait delay = .ok wait ∧
        (settings.cap delay ≤ 2 ^ 52 → wait = (settings.cap delay).toNat) ∧
        (settings.isOverlong wait = false →
          ∃ begun ended result, (calls settings w ds).filter (fun c => c.job = i) =
              [.begins i begun, .ends i ended result] ∧
            n.clock + wait ≤ begun ∧ (∃ u, result = (work.leave ended u).1) ∧
            ((fresh settings w).meetAll ds).close.future i = .done result) ∧
        (settings.isOverlong wait = true →
          (calls settings w ds).filter (fun c => c.job = i) = [] ∧
          ((fresh settings w).meetAll ds).close.future i = .pending) := by
  have hidle : (fresh settings w : Scheduler σ ρ).Idle := idle_fresh settings w
  have hclosed := hidle.close_meetAll ds
  refine ⟨(hidle.listed_meetAll ds).pending_eq, hclosed.pending, fun i hi => ?_, ?_⟩
  · rw [← (hidle.sound.meetAll ds).length_close] at hi
    -- Closing is one more demand, so the jobs are regular after it too.
    have hregular := regular_meetAll settings w (ds ++ [.op .close]) i
    rw [meetAll_append] at hregular
    obtain ⟨job, hat, hjob⟩ := hregular hi
    have hdone := hclosed.isDone (fun hl => (hjob.lost hl).2) hat
    cases hl : job.phase.isLost with
    | false => exact .inl (by rw [hdone, hl]; rfl)
    | true => exact .inr ⟨job, hat, hjob.overlong.symm.trans (hjob.lost hl).1⟩
  · intro before after work delay i n hds hs hu
    subst hds
    have hm : ((fresh settings w).meetAll before).Sound := hidle.sound.meetAll before
    have hsettings : ((fresh settings w).meetAll before).settings = settings :=
      hidle.sound.settings_meetAll before
    obtain ⟨wait, hw⟩ := wait_of_submit hs
    have hheads := hm.submit_heads hw hs
    rw [hsettings] at hw hheads
    obtain ⟨twin, hnoting, htracked, hcalls⟩ := tracked_submit hw hs
    have hn : n.Sound := (hm.submit hs).1
    have hrun : (fresh settings w).meetAll (before ++ .op (.submit work delay) :: after) =
        n.meetAll after := by
      rw [meetAll_append, meetAll_cons, meet_submit hs]
    rw [hrun] at hclosed ⊢
    rw [hcalls]
    have hafter := Noting.run hnoting after
    have hserved := (htracked.run after).close
    refine ⟨wait, hw, fun hle => ?_, fun ho => ?_, fun ho => ?_⟩
    · exact Except.ok.inj (hw.symm.trans (Settings.wait_eq hle))
    · obtain ⟨a, ha, hc⟩ := steady_onCourse.close (hn.meetAll after)
        (steady_onCourse.meetAll hn (hheads.1 ho) hu)
      exact hserved.served hafter.close ha hc (hclosed.ended a (List.mem_of_getElem? ha))
    · obtain ⟨a, ha, hd⟩ := steady_doomed.close (hn.meetAll after)
        (steady_doomed.meetAll hn (hheads.2 ho) hu)
      exact hserved.unserved hafter.close ha hd (hclosed.ended a (List.mem_of_getElem? ha))

/-- One slot, and a job that holds it for a long time. -/
def held : Scheduler (List Nat) Unit :=
  (fresh { maxDelay := some 20, maxConcurrency := some 1 } []).meetAll
    [.op (.submit (marking 0 30) 5)]

/-- What others ask for while a job waits: one of its neighbours is told to stop in time, and the
other one too late. -/
def bustle : List (Demand (List Nat) Unit) :=
  [.op (.submit (marking 2 0) 50), .op (.advance 10), .op (.cancel [0, 2]), .revoke 1]

theorem calledOnce_in_line :
    unstopped 1 (held.perform (.submit (marking 1 5) 50)) bustle = true ∧
    ∃ begun ended result,
      (calls { maxDelay := some 20, maxConcurrency := some 1 } []
        ([.op (.submit (marking 0 30) 5)] ++ .op (.submit (marking 1 5) 50) :: bustle)).filter
          (fun c => c.job = 1) = [.begins 1 begun, .ends 1 ended result] ∧
      20 ≤ begun := by
  have hok : (held.submit (marking 1 5) 50).isOk = true := by decide +kernel
  obtain ⟨⟨i, n⟩, hs⟩ : ∃ r, held.submit (marking 1 5) 50 = .ok r := by
    cases h : held.submit (marking 1 5) 50 with
    | error f => rw [h] at hok; cases hok
    | ok r => exact ⟨r, rfl⟩
  have hsound : held.Sound := (idle_fresh _ _).sound.meetAll _
  have hi : i = 1 := (hsound.submit hs).2.1.trans (by decide +kernel)
  have hu : unstopped 1 (held.perform (.submit (marking 1 5) 50)) bustle = true := by
    decide +kernel
  refine ⟨hu, ?_⟩
  subst hi
  rw [perform_submit_ok hs] at hu
  obtain ⟨wait, -, hwait, hserved, -⟩ :=
    (unstopped_calledOnce { maxDelay := some 20, maxConcurrency := some 1 } [] _).2.2.2
      [.op (.submit (marking 0 30) 5)] bustle (marking 1 5) 50 1 n rfl hs hu
  obtain rfl : wait = 20 := hwait (by decide)
  obtain ⟨begun, ended, result, hcalls, hle, -, -⟩ := hserved rfl
  exact ⟨begun, ended, result, hcalls, Nat.le_trans (Nat.le_add_left 20 n.clock) hle⟩

/-- Two jobs alone that nothing stops. One has a delay of more than 53 bits and is called before it
is over; the other one waits too long for its thread, so it is not called, and its future never
ends. -/
theorem not_calledOnce_long :
    let early : List (Demand (List Nat) Unit) := [.op (.submit (marking 0 0) (10 ^ 17 + 1))]
    let late : List (Demand (List Nat) Unit) := [.op (.submit (marking 0 0) (10 ^ 13))]
    let threads : Settings := { longest := some 9223372036854 }
    ((calls {} [] early).any fun c => c.clock < 10 ^ 17 + 1) = true ∧
    (calls threads [] late).isEmpty = true ∧
    (((fresh threads []).meetAll late).close.future 0).isDone = false := by
  decide +kernel

end Scheduler

end Syndicate
