import Syndicate.Proofs.Dispatch.Posts
import Syndicate.Proofs.Dispatch.Settle

/-! The deferred tasks of a batch from end to end, when nothing else is under way. Either every
post comes about and the results stand in the order of the tasks, or the first failure ends the
batch and no later post begins. -/

namespace Syndicate

open Scheduler

/-- What is there for each member of a list makes a list of pairs. -/
theorem exists_pairs {α β : Type} {P : Nat → α × β → Prop} {l : List α}
    (h : ∀ k a, l[k]? = some a → ∃ b, P k (a, b)) :
    ∃ l' : List (α × β), l'.map Prod.fst = l ∧ ∀ k r, l'[k]? = some r → P k r := by
  induction l generalizing P with
  | nil => exact ⟨[], rfl, by simp⟩
  | cons a l ih =>
    obtain ⟨b, hb⟩ := h 0 a rfl
    obtain ⟨l', hl, hp⟩ := ih (P := fun k => P (k + 1)) fun k a hk => h (k + 1) a hk
    refine ⟨(a, b) :: l', by rw [List.map_cons, hl], fun k r hr => ?_⟩
    cases k with
    | zero =>
      obtain rfl := Option.some.inj hr
      exact hb
    | succ k => exact hp k r hr

/-- The postings of a task that was published: its begin and its end. -/
def posted (r : Task × PostRef) : List Posting := [⟨r.1, .begun⟩, ⟨r.1, .ended (.ok r.2)⟩]

namespace World

variable {w : World} {t : Task}

/-- What is known of a task that was published. -/
def publishing (w : World) (r : Task × PostRef) : Publishing :=
  ⟨r.2.id, r.2.url, r.1.rule, w.idOf r.1.adapter⟩

theorem answers_ok (hid : ∃ id, w.adapterId t.adapter = .ok id) (ref : PostRef) :
    w.answers t (.ok ref) = .ok (w.publishing (t, ref)) := by
  obtain ⟨id, hid⟩ := hid
  simp only [answers, publishing, idOf, hid]
  rfl

theorem publishing_congr {w' : World} (h : ∀ name, w'.adapterId name = w.adapterId name) :
    w'.publishing = w.publishing := by
  funext r
  simp only [publishing, idOf, h]

theorem answers_error (w : World) (t : Task) (f : Failure) :
    w.answers t (.error f) = .error f := rfl

theorem adapterId_of_admission {settings : Settings} (h : w.admission settings t = .ok ()) :
    ∃ id, w.adapterId t.adapter = .ok id := by
  unfold admission at h
  split at h
  · cases h
  · exact ⟨_, by assumption⟩

end World

namespace UnderWay

variable {b : Nat} {ts : List Task} {w : World} {log : List (Nat × Posting)}
  {m : Scheduler World Publishing}

/-- Once all jobs are over, the post of each task has ended if it has begun. -/
theorem whole (h : UnderWay b ts w log m) (ho : ∀ job ∈ m.jobs, job.phase.isOver = true)
    (k : Nat) : rowOf k log = [] ∨
    ∃ t o, ts[k]? = some t ∧ rowOf k log = [⟨t, .begun⟩, ⟨t, .ended o⟩] := by
  cases hk : ts[k]? with
  | none =>
    left
    rw [List.eq_nil_iff_forall_not_mem]
    intro p hp
    have hlt := h.within _ (mem_rowOf.1 hp)
    rw [List.getElem?_eq_none_iff] at hk
    omega
  | some t =>
    obtain ⟨job, hj, -, htrack⟩ := h.jobs k t hk
    have hover := ho job (List.mem_of_getElem? hj)
    generalize job.phase = p at htrack hover
    generalize rowOf k log = row at htrack
    cases htrack with
    | unfired => exact .inl rfl
    | running => simp [Phase.isOver] at hover
    | finished o => exact .inr ⟨t, o, rfl, rfl⟩

/-- If each post came about, none has failed. -/
theorem unfailed (h : UnderWay b ts w log m) {done : List (Task × PostRef)}
    (hdone : done.map Prod.fst = ts) (hrows : ∀ k r, done[k]? = some r → rowOf k log = posted r) :
    Unfailed log := by
  rintro ⟨k, p⟩ he
  have hlt : k < done.length := by
    rw [← List.length_map (f := Prod.fst), hdone]
    exact h.within _ he
  have hp := mem_rowOf.2 he
  rw [hrows k _ (List.getElem?_eq_getElem hlt)] at hp
  rcases List.mem_cons.1 hp with rfl | hp
  · rfl
  · obtain rfl := List.mem_singleton.1 hp
    rfl

/-- While no job of the batch has failed, nothing that was posted has. -/
theorem unfailed_of_none (h : UnderWay b ts w log m)
    (hf : ∀ k < ts.length, m.failure? (b + k) = none) : Unfailed log := by
  rintro ⟨k, p⟩ he
  cases hfail : p.failure? with
  | none => rfl
  | some f =>
    have hfailed := h.failure_of_mem he hfail
    rw [hf k (h.within _ he)] at hfailed
    cases hfailed

/-- The jobs of the batch are those from the first of them on. -/
theorem mem_jobs_iff (h : UnderWay b ts w log m) (k : Nat) :
    k ∈ List.range' b ts.length ↔ b ≤ k ∧ k < m.jobs.length := by
  rw [List.mem_range'_1, h.length]

/-- With all jobs of the batch over nothing is left to do. -/
theorem idle (h : UnderWay b ts w log m)
    (ho : ∀ k < ts.length, Holds (fun job => job.phase.isOver = true) (b + k) m) : m.Idle := by
  refine h.sound.idle_of_over fun job hj => ?_
  obtain ⟨i, hi⟩ := List.mem_iff_getElem?.1 hj
  by_cases hib : i < b
  · exact (h.before i hib).of_getElem? hi
  · have hlt := (List.getElem?_eq_some_iff.1 hi).1
    have hlen := h.length
    obtain ⟨k, rfl⟩ := Nat.exists_eq_add_of_le (Nat.le_of_not_lt hib)
    exact (ho k (by omega)).of_getElem? hi

/-- If no job has failed or is lost, each post came about, and the job of its task has the
result. -/
theorem all_posted (h : UnderWay b ts w log m)
    (hc : ∀ k < ts.length, Holds Job.Free (b + k) m)
    (ho : ∀ k < ts.length, Holds (fun job => job.phase.isOver = true) (b + k) m)
    (hlost : ¬ Session.Lost b m)
    (hids : ∀ t ∈ ts, ∃ id, w.adapterId t.adapter = .ok id)
    (hf : ∀ k < ts.length, m.failure? (b + k) = none) :
    ∃ done : List (Task × PostRef), done.map Prod.fst = ts ∧ ∀ k r, done[k]? = some r →
      rowOf k log = posted r ∧ m.future (b + k) = .done (.ok (w.publishing r)) := by
  apply exists_pairs
  intro k t hk
  have hlt := (List.getElem?_eq_some_iff.1 hk).1
  obtain ⟨job, hj, hfree⟩ := hc k hlt
  have hover := (ho k hlt).of_getElem? hj
  have hfired := (hfree.ended hover).resolve_right fun hp =>
    hlost ⟨b + k, Nat.le_add_right b k, job, hj, hp⟩
  obtain ⟨o, hp, hrow⟩ := h.finished hk hj hfired hover
  have hfail := hf k hlt
  cases o with
  | error g => simp [Scheduler.failure?, Scheduler.future, hj, hp, World.answers_error] at hfail
  | ok ref =>
    refine ⟨ref, hrow, ?_⟩
    simp only [Scheduler.future, hj, hp, World.answers_ok (hids t (List.mem_of_getElem? hk))]

end UnderWay

namespace Session

variable {s s' : Session} {ts : List Task} {b : Nat} {w : World} {log : List (Nat × Posting)}

/-- The results stand in the order of the jobs. -/
theorem results_eq {m : Scheduler World Publishing} {ps : List Publishing}
    (h : ∀ k p, ps[k]? = some p → m.future (b + k) = .done (.ok p)) :
    results m (List.range' b ps.length) = .ok ps := by
  induction ps generalizing b with
  | nil => rfl
  | cons p ps ih =>
    have hp : m.future b = .done (.ok p) := h 0 p rfl
    have hps := ih (b := b + 1) fun k q hk => by
      rw [Nat.add_assoc, Nat.add_comm 1]
      exact h (k + 1) q hk
    rw [List.length_cons, List.range'_succ, results, hp, hps]
    rfl

/-- How waiting for the jobs of a batch ends, and the scheduler it leaves. Till one of them had
failed or all were over, at `n`, the log was posted. -/
inductive SettleEnds (b : Nat) (ts : List Task) (w : World) (log : List (Nat × Posting))
    (n : Scheduler World Publishing) :
    Outcome (List Publishing) → Scheduler World Publishing → Prop
  | returns (done : List (Task × PostRef)) (hdone : done.map Prod.fst = ts)
    (hrows : ∀ k r, done[k]? = some r → rowOf k log = posted r) (hidle : n.Idle)
    (hkept : ¬ Lost b n) : SettleEnds b ts w log n (.ok (done.map w.publishing)) n
  | hangs (hclean : Unfailed log) (hidle : n.Idle) (hlost : Lost b n) :
    SettleEnds b ts w log n (.error (.fault .endless)) n
  | fails {before : List (Nat × Posting)} {k : Nat} {t : Task} {f : Failure}
    {o : Outcome (List Publishing)} (hlog : log = before ++ [(k, ⟨t, .ended (.error f)⟩)])
    (hclean : Unfailed before)
    (hsettled : Settled b ((n.cancel (List.range' b ts.length)).waitAll
      (List.range' b ts.length)) o (.error f)) :
    SettleEnds b ts w log n o
      ((n.cancel (List.range' b ts.length)).waitAll (List.range' b ts.length))

/-- Jobs none of which has failed end with their results, unless one of them is lost. -/
theorem settleEnds_unfailed {n : Scheduler World Publishing} (h : UnderWay b ts w log n)
    (hfree : ∀ k < ts.length, Holds Job.Free (b + k) n)
    (ho : ∀ k < ts.length, Holds (fun job => job.phase.isOver = true) (b + k) n)
    (hids : ∀ t ∈ ts, ∃ id, w.adapterId t.adapter = .ok id)
    (hf : ∀ k < ts.length, n.failure? (b + k) = none) :
    SettleEnds b ts w log n (haveSettled n (List.range' b ts.length) >>= fun _ =>
      results n (List.range' b ts.length)) n := by
  have hall : ∀ k ∈ List.range' b ts.length,
      Holds (fun job => job.phase.isOver = true) k n := by
    intro k hk
    rw [List.mem_range'_1] at hk
    obtain ⟨j, rfl⟩ := Nat.exists_eq_add_of_le hk.1
    exact ho j (by omega)
  obtain ⟨hkept, hhang⟩ := haveSettled_eq h.mem_jobs_iff hall
  by_cases hlost : Lost b n
  · rw [hhang hlost]
    exact .hangs (h.unfailed_of_none hf) (h.idle ho) hlost
  · obtain ⟨done, hdone, hposted⟩ := h.all_posted hfree ho hlost hids hf
    have hdones : ∀ k p, (done.map w.publishing)[k]? = some p →
        n.future (b + k) = .done (.ok p) := by
      intro k p hk
      rw [List.getElem?_map, Option.map_eq_some_iff] at hk
      obtain ⟨r, hr, rfl⟩ := hk
      exact (hposted k r hr).2
    have hres := results_eq hdones
    rw [List.length_map, ← List.length_map Prod.fst, hdone] at hres
    rw [hkept hlost, hres]
    exact .returns done hdone (fun k r hr => (hposted k r hr).1) (h.idle ho) hlost

/-- Jobs one of which has failed end with its failure once the others have been cancelled and
waited for, unless one of them is lost. -/
theorem settleEnds_failed {n : Scheduler World Publishing} (h : UnderWay b ts w log n)
    (hhalts : Halts log) (hfree : ∀ k < ts.length, Holds Job.Free (b + k) n)
    (hids : ∀ t ∈ ts, ∃ id, w.adapterId t.adapter = .ok id) {f : Failure}
    (hf : firstFailure? n (List.range' b ts.length) = some f) :
    SettleEnds b ts w log n (haveSettled ((n.cancel (List.range' b ts.length)).waitAll
        (List.range' b ts.length)) (List.range' b ts.length) >>= fun _ => .error f)
      ((n.cancel (List.range' b ts.length)).waitAll (List.range' b ts.length)) := by
  obtain ⟨i, hi, hfi⟩ := List.exists_of_findSome?_eq_some hf
  rw [List.mem_range'_1] at hi
  obtain ⟨k, rfl⟩ := Nat.exists_eq_add_of_le hi.1
  have hlt : k < ts.length := by omega
  have hfailed := h.mem_of_failure (List.getElem?_eq_getElem hlt) (hids _ (List.getElem_mem hlt))
    (hfree k hlt) hfi
  obtain ⟨before, hlog, hclean⟩ := hhalts.of_mem hfailed
  obtain ⟨hmem, hover⟩ := jobs_settled h.sound h.mem_jobs_iff
  exact .fails hlog hclean (settled_of hmem hover (.error f))

/-- Waiting for jobs that nobody has stopped ends with all posts come about, or with the first
failure, unless it has no end because a job is lost. -/
theorem settle_ends (h : UnderWay b ts w [] s.scheduler) (hl : s.lane ≠ .inline)
    (hfree : ∀ k < ts.length, Holds Job.Free (b + k) s.scheduler)
    (hids : ∀ t ∈ ts, ∃ id, w.adapterId t.adapter = .ok id) : ∃ log o m,
    UnderWay b ts w log (s.scheduler.waitFirst (List.range' b ts.length)) ∧
    SettleEnds b ts w log (s.scheduler.waitFirst (List.range' b ts.length)) o m ∧
    (settle (List.range' b ts.length)).outcome s = (o, s.setScheduler m) := by
  obtain ⟨log, hn, hhalts⟩ := h.waitFirst
  have hfree' : ∀ k < ts.length, Holds Job.Free (b + k)
      (s.scheduler.waitFirst (List.range' b ts.length)) := fun k hk =>
    steady_free.runWhile h.sound (hfree k hk) _
  rw [outcome_settle hl]
  cases hf : firstFailure? (s.scheduler.waitFirst (List.range' b ts.length))
      (List.range' b ts.length) with
  | none =>
    have hnone : ∀ i ∈ List.range' b ts.length,
        (s.scheduler.waitFirst (List.range' b ts.length)).failure? i = none :=
      List.findSome?_eq_none_iff.1 hf
    have hours : ∀ k < ts.length, b + k ∈ List.range' b ts.length := by
      intro k hk
      rw [List.mem_range'_1]
      omega
    have hover : ∀ k < ts.length, Holds (fun job => job.phase.isOver = true) (b + k)
        (s.scheduler.waitFirst (List.range' b ts.length)) := by
      intro k hk
      obtain ⟨job, hj, -⟩ := hfree' k hk
      exact ⟨job, hj, h.sound.waitFirst_over _ hnone (hours k hk) hj⟩
    exact ⟨log, _, _, hn, settleEnds_unfailed hn hfree' hover hids fun k hk =>
      hnone _ (hours k hk), rfl⟩
  | some f => exact ⟨log, _, _, hn, settleEnds_failed hn hhalts hfree' hids hf, rfl⟩

/-- What a session leaves open for its deferred tasks: nothing else is under way. -/
theorem idle_opened (hi : s.scheduler.Idle) : s.opened.lane = s.lane ∧ s.opened.scheduler.Idle ∧
    s.opened.scheduler.jobs = s.scheduler.jobs ∧ s.opened.world = s.world := by
  unfold opened
  split
  · exact ⟨rfl, hi.renew _, rfl, rfl⟩
  · exact ⟨rfl, hi, rfl, rfl⟩

/-- Deferred tasks that have just been submitted when nothing else is under way. -/
theorem Submitted.underWay {es : List Event} (h : s.opened.Submitted ts es s')
    (hi : s.scheduler.Idle) : UnderWay s.scheduler.jobs.length ts s'.world [] s'.scheduler ∧
    (∀ k t, ts[k]? = some t → Holds (IsNew s.opened.scheduler.settings t)
      (s.scheduler.jobs.length + k) s'.scheduler) ∧
    s.world.Leads [] es s'.world := by
  obtain ⟨-, hidle, hjobs, hworld⟩ := idle_opened hi
  rw [← hjobs, ← hworld]
  exact ⟨.of_submitted h hidle.ended, fun k t hk => h.new hk, h.leads⟩

theorem settings_opened_own (hl : s.lane = .own) :
    s.opened.scheduler.settings = s.ownSettings := by
  rw [opened, if_pos hl]
  rfl

/-- A scheduler that is made for one batch cuts no delay. -/
theorem admission_ownSettings (s : Session) (w : World) (t : Task) :
    w.admission s.ownSettings t = w.admission {} t := by
  have hwait : s.ownSettings.wait t.delay = Settings.wait {} t.delay := Settings.wait_congr rfl _
  rw [World.admission, World.admission, hwait]

theorem slots_opened (hl : s.lane = .own) : s.opened.scheduler.settings.slots = none := by
  rw [settings_opened_own hl]
  rfl

/-- What the jobs add after a failure: no post that begins, if no job is kept in line. -/
theorem afterFailure {n : Scheduler World Publishing} (h : UnderWay b ts w log n)
    (hfree : ∀ k < ts.length, Holds Job.Free (b + k) n) (lane : Lane)
    (hslots : lane = .own → n.settings.slots = none) : ∃ more,
    UnderWay b ts w (log ++ more) ((s.setScheduler ((n.cancel (List.range' b ts.length)).waitAll
      (List.range' b ts.length))).shut lane).scheduler ∧
    (lane = .own → ∀ e ∈ more, e.2.stage ≠ .begun) := by
  obtain ⟨hcs, hct⟩ := h.sound.cancel (List.range' b ts.length)
  have htold := h.told hcs hct
  by_cases hl : lane = .own
  · have hbarred : ∀ k < ts.length,
        Holds Job.Barred (b + k) (n.cancel (List.range' b ts.length)) := by
      intro k hk
      exact h.sound.barred_of_cancel (hslots hl) (by rw [List.mem_range'_1]; omega) (hfree k hk)
    have hadds : ∀ job t new, Job.Barred job → job.Adds t new → ∀ p ∈ new, p.stage ≠ .begun :=
      fun job t new hb ha => hb.adds ha
    obtain ⟨more, hwait, hmore⟩ := UnderWay.runWhile steady_barred hadds htold hbarred _
    obtain ⟨more', hclose, hmore'⟩ := UnderWay.close steady_barred hadds hwait fun k hk =>
      steady_barred.waitAll hcs (hbarred k hk) _
    refine ⟨more ++ more', ?_, fun _ e he => ?_⟩
    · rw [shut, if_pos hl, ← List.append_assoc]
      exact hclose
    · rcases List.mem_append.1 he with he | he
      · exact hmore e he
      · exact hmore' e he
  · have htrue : Steady fun _ : Job World Publishing => True :=
      ⟨fun _ _ => trivial, fun _ _ => trivial⟩
    obtain ⟨more, hwait, -⟩ := UnderWay.runWhile (A := fun _ => True) htrue
      (fun _ _ _ _ _ _ _ => trivial) htold (fun k hk => hct.holds (fun _ _ => trivial)
        ((hfree k hk).imp fun _ h => ⟨h.1, trivial⟩)) _
    refine ⟨more, ?_, fun h => absurd h hl⟩
    rw [shut, if_neg hl]
    exact hwait

theorem close_of_queue_nil {m : Scheduler World Publishing} (hq : m.queue = []) :
    m.close = { m with threads := [] } := by
  have hjoins : ∀ (names : List Nat) (n : Scheduler World Publishing), n.queue = [] →
      names.foldl join n = n := by
    intro names
    induction names with
    | nil => intro n _; rfl
    | cons i names ih =>
      intro n hn
      have hjoin : n.join i = n := runWhile_induct (P := fun m => m = n)
        (fun m hm hq => absurd (hm ▸ hn) hq) _ rfl
      rw [List.foldl_cons, hjoin]
      exact ih n hn
  exact hjoins _ _ hq

/-- Closing an idle scheduler changes nothing about the posts. -/
theorem shut_idle {n : Scheduler World Publishing} (h : UnderWay b ts w log n) (hn : n.Idle)
    (lane : Lane) : UnderWay b ts w log ((s.setScheduler n).shut lane).scheduler ∧
    ((s.setScheduler n).shut lane).scheduler.Idle := by
  unfold shut
  split
  · have hc : ((s.setScheduler n).setScheduler (s.setScheduler n).scheduler.close).scheduler =
        { n with threads := [] } := close_of_queue_nil hn.queue
    rw [hc]
    refine ⟨?_, hn.queue, hn.ended, hn.pending, hn.slots⟩
    exact ⟨h.sound.of_eq rfl rfl rfl rfl rfl rfl, h.length, h.before, h.jobs, h.within, h.leads⟩
  · exact ⟨h, hn⟩

/-! ### Tasks that wait too long -/

/-- A job that is lost is that of a task whose delay cannot be waited out. -/
theorem unwaitable_of_lost {settings : Settings} {m : Scheduler World Publishing}
    (hlen : m.jobs.length = b + ts.length)
    (hof : ∀ k t, ts[k]? = some t → Holds (IsOf settings t) (b + k) m) (h : Lost b m) :
    ∃ t ∈ ts, ¬ settings.Fits t.delay := by
  obtain ⟨i, hb, job, hj, hp⟩ := h
  obtain ⟨k, rfl⟩ := Nat.exists_eq_add_of_le hb
  have hlt : k < ts.length := by
    have := (List.getElem?_eq_some_iff.1 hj).1
    omega
  have hjob := (hof k _ (List.getElem?_eq_getElem hlt)).of_getElem? hj
  exact ⟨ts[k], List.getElem_mem hlt, hjob.overlong (hjob.lost hp)⟩

/-- The job of a task that waits too long is lost once nothing is under way. -/
theorem waitable_of_idle {settings : Settings} {m : Scheduler World Publishing} {t : Task}
    {k : Nat} {jobs : List Nat} (hm : m.Sound) (hnew : Holds (IsNew settings t) k m)
    (hi : (m.waitFirst jobs).Idle)
    (hl : ¬ Holds (fun job => job.phase = .ended .lost) k (m.waitFirst jobs)) :
    settings.Fits t.delay := by
  obtain ⟨job, hj, w, hjob⟩ := hnew
  rw [hjob.fits_iff]
  cases ho : job.overlong with
  | false => rfl
  | true =>
    obtain ⟨later, hlater, hdoomed⟩ := steady_doomed.runWhile hm ⟨job, hj, hjob.doomed ho⟩ _
    refine absurd ⟨later, hlater, hdoomed.phase.resolve_left fun hp => ?_⟩ hl
    have hover := hi.ended later (List.mem_of_getElem? hlater)
    rw [hp] at hover
    cases hover

/-- The job of a task that waits too long is lost at once where jobs begin at once. -/
theorem lost_of_new {settings : Settings} {m : Scheduler World Publishing} {t : Task} {k : Nat}
    (hs : settings.deferStart = false) (hnew : Holds (IsNew settings t) k m)
    (hlong : ¬ settings.Fits t.delay) : Holds (fun job => job.phase = .ended .lost) k m := by
  obtain ⟨job, hj, w, hjob⟩ := hnew
  rw [hjob.fits_iff, Bool.not_eq_false] at hlong
  exact ⟨job, hj, hjob.lost hlong hs⟩

/-- A job that is lost once a batch that failed has been waited for is that of a task whose delay
cannot be waited out. -/
theorem unwaitable_of_settled {settings : Settings} {m : Scheduler World Publishing}
    (h : UnderWay b ts w log m)
    (hnew : ∀ k t, ts[k]? = some t → Holds (IsNew settings t) (b + k) m) {jobs : List Nat}
    (hlost : Lost b (((m.waitFirst jobs).cancel jobs).waitAll jobs)) :
    ∃ t ∈ ts, ¬ settings.Fits t.delay := by
  have haged : m.Aged (m.waitFirst jobs) := h.sound.aged_runWhile _
  obtain ⟨hcs, hct⟩ := haged.sound.cancel jobs
  have hlen : (((m.waitFirst jobs).cancel jobs).waitAll jobs).jobs.length = b + ts.length := by
    rw [waitAll, (hcs.aged_runWhile _).length, hct.length, haged.length, h.length]
  refine unwaitable_of_lost hlen (fun k t hk => ?_) hlost
  have hof : Holds (IsOf settings t) (b + k) m :=
    (hnew k t hk).imp fun _ h => ⟨h.1, isOf_of_new h.2⟩
  exact (kept_isOf _ t).waitAll hcs
    ((kept_isOf _ t).told_of hct ((kept_isOf _ t).runWhile h.sound hof _)) jobs

/-- Where jobs begin at once, a task that waits too long leaves its job lost when a batch that
failed has been waited for. -/
theorem lost_of_overlong {settings : Settings} {m : Scheduler World Publishing}
    (h : UnderWay b ts w log m) (hs : settings.deferStart = false)
    (hnew : ∀ k t, ts[k]? = some t → Holds (IsNew settings t) (b + k) m)
    (hlong : ∃ t ∈ ts, ¬ settings.Fits t.delay) (jobs : List Nat) :
    Lost b (((m.waitFirst jobs).cancel jobs).waitAll jobs) := by
  obtain ⟨t, ht, hlong⟩ := hlong
  obtain ⟨k, hk⟩ := List.mem_iff_getElem?.1 ht
  have haged : m.Aged (m.waitFirst jobs) := h.sound.aged_runWhile _
  have hlost : Holds (fun job => job.phase = .ended .lost) (b + k) (m.waitFirst jobs) :=
    (kept_ended .lost).runWhile h.sound (lost_of_new hs (hnew k t hk) hlong) _
  obtain ⟨job, hj, hp⟩ := hlost
  exact ⟨_, Nat.le_add_right _ k, lost_settled haged.sound hj hp []⟩

/-- How the deferred tasks of a batch end when all of them have become jobs: with their results, or
with the first failure, unless one of them waits too long. -/
inductive DeferredEnds (s : Session) (ts : List Task) (log : List (Nat × Posting))
    (m : Scheduler World Publishing) : Outcome (List Publishing) → Prop
  | returns (done : List (Task × PostRef)) (hdone : done.map Prod.fst = ts)
    (hrows : ∀ k r, done[k]? = some r → rowOf k log = posted r) (hidle : m.Idle)
    (hwait : ∀ t ∈ ts, s.Waitable t) : DeferredEnds s ts log m (.ok (done.map s.world.publishing))
  | hangs (hclean : Unfailed log) (hwait : ∃ t ∈ ts, ¬ s.Waitable t) :
    DeferredEnds s ts log m (.error (.fault .endless))
  | fails {before after : List (Nat × Posting)} {k : Nat} {t : Task} {f g : Failure}
    (hlog : log = before ++ (k, ⟨t, .ended (.error f)⟩) :: after) (hclean : Unfailed before)
    (hafter : s.lane = .own → ∀ e ∈ after, e.2.stage ≠ .begun)
    (hraised : g = f ∨ g = .fault .endless ∧ ∃ t ∈ ts, ¬ s.Waitable t)
    (hown : s.lane = .own → (∃ t ∈ ts, ¬ s.Waitable t) → g = .fault .endless) :
    DeferredEnds s ts log m (.error g)

/-- The deferred tasks of a batch, all of which can be submitted. -/
theorem deferred_ends (hl : s.lane ≠ .inline) (hi : s.scheduler.Idle)
    (hadm : ∀ t ∈ ts, s.world.admission s.opened.scheduler.settings t = .ok ())
    {o : Outcome (List Publishing)}
    (ho : (withOwnScheduler (publishDeferred ts)).outcome s = (o, s')) : ∃ w log,
    s.world.Leads [] (ts.map s.world.scheduling) w ∧
    UnderWay s.scheduler.jobs.length ts w log s'.scheduler ∧
    DeferredEnds s ts log s'.scheduler o := by
  obtain ⟨hlane, hidle, hjobs, hworld⟩ := idle_opened hi
  rw [outcome_withOwnScheduler, Prod.mk.injEq] at ho
  obtain ⟨rfl, rfl⟩ := ho
  rcases submitAll_cases (hlane ▸ hl) hidle.sound ts with ⟨-, s₂, hsub, hs₂⟩ |
      ⟨done, t, rest, f, es, s₂, rfl, -, hf, -, -⟩
  · obtain ⟨hunder, hnew, hw⟩ := hs₂.underWay hi
    rw [hworld] at hw
    have hd : (publishDeferred ts).outcome s.opened =
        (settle (List.range' s.scheduler.jobs.length ts.length)).outcome s₂ := by
      rw [← hjobs]
      exact Act.outcome_bind_ok hsub
    have hids : ∀ t ∈ ts, ∃ id, s₂.world.adapterId t.adapter = .ok id := by
      intro t ht
      obtain ⟨id, hid⟩ := World.adapterId_of_admission (hadm t ht)
      exact ⟨id, (hw.ids _).trans hid⟩
    have hfree : ∀ k < ts.length, Holds Job.Free (s.scheduler.jobs.length + k) s₂.scheduler :=
      hjobs ▸ hs₂.free
    obtain ⟨log, o, m, hn, hends, hset⟩ := settle_ends hunder (hs₂.lane ▸ hlane ▸ hl) hfree hids
    rw [hd, hset]
    cases hends with
    | returns done hdone hrows hnidle hkept =>
      obtain ⟨hshut, hsidle⟩ := shut_idle (s := s₂) hn hnidle s.lane
      refine ⟨s₂.world, log, hw, hshut, ?_⟩
      rw [World.publishing_congr hw.ids]
      refine .returns done hdone hrows hsidle fun t ht => ?_
      obtain ⟨k, hk⟩ := List.mem_iff_getElem?.1 ht
      exact waitable_of_idle hunder.sound (hnew k t hk) hnidle fun hl =>
        hkept ⟨_, Nat.le_add_right _ k, hl⟩
    | hangs hclean hnidle hlost =>
      obtain ⟨hshut, -⟩ := shut_idle (s := s₂) hn hnidle s.lane
      refine ⟨s₂.world, log, hw, hshut, .hangs hclean ?_⟩
      refine unwaitable_of_lost hn.length (fun k t hk => ?_) hlost
      exact (kept_isOf _ t).runWhile hunder.sound
        ((hnew k t hk).imp fun _ h => ⟨h.1, isOf_of_new h.2⟩) _
    | @fails before k t f o hlog hclean hsettled =>
      have hfree' : ∀ k < ts.length, Holds Job.Free (s.scheduler.jobs.length + k)
          (s₂.scheduler.waitFirst (List.range' s.scheduler.jobs.length ts.length)) :=
        fun k hk => steady_free.runWhile hunder.sound (hfree k hk) _
      obtain ⟨more, hafter, hbegun⟩ := afterFailure (s := s₂) hn hfree' s.lane fun hown => by
        rw [waitFirst, (hunder.sound.aged_runWhile _).settings, hs₂.settings, slots_opened hown]
      have hlog' : log ++ more = before ++ (k, ⟨t, .ended (.error f)⟩) :: more := by
        rw [hlog, List.append_assoc]
        rfl
      refine ⟨s₂.world, log ++ more, hw, hafter, ?_⟩
      by_cases hlost : Lost s.scheduler.jobs.length (((s₂.scheduler.waitFirst
          (List.range' s.scheduler.jobs.length ts.length)).cancel
          (List.range' s.scheduler.jobs.length ts.length)).waitAll
          (List.range' s.scheduler.jobs.length ts.length))
      · rw [hsettled.2 hlost]
        exact .fails hlog' hclean hbegun (.inr ⟨rfl, unwaitable_of_settled hunder hnew hlost⟩)
          fun _ _ => rfl
      · rw [hsettled.1 hlost]
        refine .fails hlog' hclean hbegun (.inl rfl) fun hown hlong => ?_
        exact absurd (lost_of_overlong hunder (by rw [settings_opened_own hown]; rfl) hnew hlong _)
          hlost
  · rw [hworld, hadm t (by simp)] at hf
    cases hf

/-- The deferred tasks of a batch, one of which cannot be submitted: with a scheduler of their own
those before the first of these are published all the same, but for those that wait too long. -/
theorem deferred_refused (hl : s.lane ≠ .inline) (hi : s.scheduler.Idle)
    {o : Outcome (List Publishing)}
    (hadm : ¬ ∀ t ∈ ts, s.world.admission s.opened.scheduler.settings t = .ok ())
    (ho : (withOwnScheduler (publishDeferred ts)).outcome s = (o, s')) :
    ∃ done t rest f n w log, ts = done ++ t :: rest ∧
      (∀ u ∈ done, s.world.admission s.opened.scheduler.settings u = .ok ()) ∧
      s.world.admission s.opened.scheduler.settings t = .error f ∧ o = .error f ∧
      s.world.Leads [] ((ts.take n).map s.world.scheduling) w ∧
      UnderWay s.scheduler.jobs.length done w log s'.scheduler ∧
      (s.lane = .own → ∀ k u, done[k]? = some u →
        (s.Waitable u → ∃ r, rowOf k log = [⟨u, .begun⟩, ⟨u, .ended r⟩]) ∧
        (¬ s.Waitable u → rowOf k log = [])) := by
  obtain ⟨hlane, hidle, -, hworld⟩ := idle_opened hi
  rw [outcome_withOwnScheduler, Prod.mk.injEq] at ho
  obtain ⟨rfl, rfl⟩ := ho
  rcases submitAll_cases (hlane ▸ hl) hidle.sound ts with ⟨hall, -⟩ |
      ⟨done, t, rest, f, n, s₂, hts, hdone, hf, hsub, hs₂⟩
  · rw [hworld] at hall
    exact absurd hall hadm
  · rw [hworld] at hdone hf hs₂
    have hd : (publishDeferred ts).outcome s.opened = (.error f, s₂) := Act.outcome_bind_error hsub
    obtain ⟨hunder, hnew, hleads⟩ := hs₂.underWay hi
    by_cases hown : s.lane = .own
    · have hfree : ∀ k < done.length, Holds Job.Free (s.scheduler.jobs.length + k) s₂.scheduler :=
        fun k hk => (hnew k _ (List.getElem?_eq_getElem hk)).imp fun _ ⟨hj, _, h⟩ => ⟨hj, h.free⟩
      obtain ⟨log, hclose, -⟩ := UnderWay.close (A := fun _ => True) steady_free
        (fun _ _ _ _ _ _ _ => trivial) hunder hfree
      have hidle' := idle_close hs₂.sound (hs₂.threaded hidle)
      rw [hd, shut, if_pos hown]
      refine ⟨done, t, rest, f, n, s₂.world, log, hts, hdone, hf, rfl, hleads, hclose, ?_⟩
      intro _ k u hk
      obtain ⟨job, hj, w, hjob⟩ := hnew k u hk
      rw [Waitable, hjob.fits_iff, Bool.not_eq_false]
      refine ⟨fun ho => ?_, fun ho => ?_⟩
      · obtain ⟨later, hlater, hcourse⟩ :=
          steady_onCourse.close hs₂.sound ⟨job, hj, hjob.onCourse ho⟩
        have hover := hidle'.ended later (List.mem_of_getElem? hlater)
        obtain ⟨r, -, hrow⟩ := hclose.finished hk hlater (hcourse.fired hover) hover
        exact ⟨r, hrow⟩
      · obtain ⟨later, hlater, hdoomed⟩ :=
          steady_doomed.close hs₂.sound ⟨job, hj, hjob.doomed ho⟩
        refine hclose.row_nil hk ⟨later, hlater, ?_⟩
        rcases hdoomed.phase with hp | hp
        · rw [hp]
          rfl
        · rw [hp]
          rfl
    · rw [hd, shut, if_neg hown]
      exact ⟨done, t, rest, f, n, s₂.world, [], hts, hdone, hf, rfl, hleads, hunder,
        fun h => absurd h hown⟩

/-- Deferred tasks that return could all be submitted and waited out, and each was published. -/
theorem deferred_ok (hl : s.lane ≠ .inline) (hi : s.scheduler.Idle) {later : List Publishing}
    (ho : (withOwnScheduler (publishDeferred ts)).outcome s = (.ok later, s')) :
    (∀ t ∈ ts, s.world.admission s.opened.scheduler.settings t = .ok ()) ∧
    (∀ t ∈ ts, s.Waitable t) ∧
    ∃ w log, ∃ done : List (Task × PostRef), s.world.Leads [] (ts.map s.world.scheduling) w ∧
      UnderWay s.scheduler.jobs.length ts w log s'.scheduler ∧ done.map Prod.fst = ts ∧
      (∀ k r, done[k]? = some r → rowOf k log = posted r) ∧ s'.scheduler.Idle ∧
      later = done.map s.world.publishing := by
  have hadm : ∀ t ∈ ts, s.world.admission s.opened.scheduler.settings t = .ok () := by
    by_contra hnot
    obtain ⟨-, -, -, f, -, -, -, -, -, -, hf, -⟩ := deferred_refused hl hi hnot ho
    cases hf
  obtain ⟨w, log, hw, hunder, hends⟩ := deferred_ends hl hi hadm ho
  generalize hlater : Except.ok later = o at hends
  cases hends with
  | returns done hdone hrows hidle hwait =>
    exact ⟨hadm, hwait, w, log, done, hw, hunder, hdone, hrows, hidle, Except.ok.inj hlater⟩
  | hangs => cases hlater
  | fails => cases hlater

end Session

end Syndicate
