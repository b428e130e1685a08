import Mathlib.Data.List.Sort
import Syndicate.Proofs.Scheduler.Cancel

/-! Runs in which single jobs may be taken back as well. A job is taken back only before it has
begun, so what every run keeps of a job these runs keep too. The jobs that have not ended stay
listed in the order of their submission, and closing leaves none of them. -/

namespace Syndicate

variable {σ ρ : Type}

/-- Whether a job has come to an end as seen from outside. -/
def Future.isDone : Future ρ → Bool
  | .pending => false
  | .cancelled | .done _ => true

namespace Scheduler

variable {m n : Scheduler σ ρ} {i k : Nat} {job : Job σ ρ} {Q : Job σ ρ → Prop}

/-! ### Taking back -/

/-- A job is taken back before it has begun, or nothing changes. -/
theorem revoke_cases (m : Scheduler σ ρ) (i : Nat) : (m.revoke i).2 = m ∨
    ∃ job, m.jobs[i]? = some job ∧ job.phase = .unstarted ∧
      m.revoke i = (true, m.setJob i { job with revoked := true }) := by
  unfold revoke
  cases hi : m.jobs[i]? with
  | none => exact .inl rfl
  | some job =>
    dsimp only
    split
    · exact .inl rfl
    · split
      · rename_i hp
        exact .inr ⟨job, rfl, hp, rfl⟩
      · exact .inl rfl

theorem Sound.revoke (h : m.Sound) (i : Nat) : (m.revoke i).2.Sound := by
  rcases revoke_cases m i with he | ⟨job, hi, -, he⟩
  · rwa [he]
  · rw [he]
    exact h.setJob hi rfl

/-- What can be asked of a scheduler, taking a job back included. -/
inductive Demand (σ ρ : Type) where
  | op (op : Op σ ρ)
  | revoke (i : Nat)

def meet (m : Scheduler σ ρ) : Demand σ ρ → Scheduler σ ρ
  | .op op => m.perform op
  | .revoke i => (m.revoke i).2

def meetAll (m : Scheduler σ ρ) (ds : List (Demand σ ρ)) : Scheduler σ ρ := ds.foldl meet m

theorem meetAll_append (m : Scheduler σ ρ) (ds es : List (Demand σ ρ)) :
    m.meetAll (ds ++ es) = (m.meetAll ds).meetAll es :=
  List.foldl_append

theorem meetAll_cons (m : Scheduler σ ρ) (d : Demand σ ρ) (ds : List (Demand σ ρ)) :
    m.meetAll (d :: ds) = (m.meet d).meetAll ds := rfl

theorem meet_submit {work : Work σ ρ} {delay : Int} (h : m.submit work delay = .ok (i, n)) :
    m.meet (.op (.submit work delay)) = n := by
  rw [meet, perform_submit_ok h]

theorem Sound.meet (h : m.Sound) (d : Demand σ ρ) : (m.meet d).Sound := by
  cases d with
  | op op => exact h.perform op
  | revoke i => exact h.revoke i

theorem meetAll_induct {P : Scheduler σ ρ → Prop}
    (hs : ∀ (m : Scheduler σ ρ) (d : Demand σ ρ), P m → P (m.meet d)) (h : P m)
    (ds : List (Demand σ ρ)) : P (m.meetAll ds) := by
  induction ds generalizing m with
  | nil => exact h
  | cons d ds ih => exact ih (hs m d h)

/-- Every state that a sound scheduler comes to is sound. -/
theorem Sound.meetAll (h : m.Sound) (ds : List (Demand σ ρ)) : (m.meetAll ds).Sound :=
  meetAll_induct (fun _ d h => h.meet d) h ds

theorem persists_settings (settings : Settings) :
    Persists fun m : Scheduler σ ρ => m.Sound ∧ m.settings = settings where
  sound h := h.1
  step {m} h := by
    have haged : m.Aged m.step := Aged.step ⟨h.1, rfl, rfl, rfl⟩
    exact ⟨haged.sound, haged.settings.trans h.2⟩
  told h hn ht := ⟨hn, ht.settings.trans h.2⟩
  still h hs := ⟨hs.sound, hs.settings.trans h.2⟩

/-- The settings stay those that a scheduler was made with. -/
theorem Sound.settings_meet (h : m.Sound) (d : Demand σ ρ) : (m.meet d).settings = m.settings := by
  cases d with
  | op op =>
    refine ((persists_settings _).perform ⟨h, rfl⟩ (fun _ hs => ?_) fun _ => ⟨h.inWorld _, rfl⟩).2
    exact ⟨(h.submit hs).1, (h.submit hs).2.2.settings⟩
  | revoke k =>
    rcases revoke_cases m k with he | ⟨job, -, -, he⟩
    · rw [Scheduler.meet, he]
    · rw [Scheduler.meet, he]
      rfl

theorem Sound.settings_meetAll (h : m.Sound) (ds : List (Demand σ ρ)) :
    (m.meetAll ds).settings = m.settings := by
  induction ds generalizing m with
  | nil => rfl
  | cons d ds ih => exact (ih (h.meet d)).trans (h.settings_meet d)

theorem Sound.settings_run (h : m.Sound) (ops : List (Op σ ρ)) :
    (m.run ops).settings = m.settings := by
  have hmet : m.run ops = m.meetAll (ops.map Demand.op) := by
    rw [Scheduler.meetAll, List.foldl_map]
    rfl
  rw [hmet, h.settings_meetAll]

/-- A property of jobs that being taken back does not take away either. -/
structure Lasting (Q : Job σ ρ → Prop) : Prop extends Kept Q where
  revoked : ∀ {job : Job σ ρ}, Q job → job.phase = .unstarted → Q { job with revoked := true }

theorem Lasting.revoke (hQ : Lasting Q) (h : Holds Q i m) (k : Nat) :
    Holds Q i (m.revoke k).2 := by
  rcases revoke_cases m k with he | ⟨job, hk, hp, he⟩
  · rwa [he]
  · rw [he]
    by_cases hik : i = k
    · subst hik
      exact ⟨_, by rw [setJob_jobs, getElem?_set_of_some hk, if_pos rfl],
        hQ.revoked (h.of_getElem? hk) hp⟩
    · obtain ⟨other, hi, ho⟩ := h
      exact ⟨other, by rw [setJob_jobs, getElem?_set_of_some hk, if_neg hik, hi], ho⟩

theorem lasting_over : Lasting fun job : Job σ ρ => job.phase.isOver = true :=
  ⟨kept_over, fun h _ => h⟩

/-- What new jobs have and lasts holds of all jobs in every state to come. -/
theorem Lasting.meetAll_all (hQ : Lasting Q) (settings : Settings)
    (hnew : ∀ work delay job, job.IsNew settings work delay → Q job) (hm : m.Sound)
    (hs : m.settings = settings) (h : ∀ i < m.jobs.length, Holds Q i m) (ds : List (Demand σ ρ)) :
    ∀ i < (m.meetAll ds).jobs.length, Holds Q i (m.meetAll ds) := by
  refine (meetAll_induct (P := fun m => m.Sound ∧ m.settings = settings ∧
    ∀ i < m.jobs.length, Holds Q i m) ?_ ⟨hm, hs, h⟩ ds).2.2
  rintro n d ⟨hn, hset, hall⟩
  refine ⟨hn.meet d, (hn.settings_meet d).trans hset, ?_⟩
  cases d with
  | op op => exact hQ.perform_all (hset ▸ hnew) hn hall op
  | revoke k =>
    intro i hi
    refine hQ.revoke (hall i ?_) k
    rcases revoke_cases n k with he | ⟨job, -, -, he⟩ <;> simpa [Scheduler.meet, he] using hi

/-- What every job of a scheduler is: it is too long if its wait is, and lost only if it is too long
and was not taken back. -/
structure Regular (settings : Settings) (job : Job σ ρ) : Prop where
  overlong : job.overlong = settings.isOverlong job.wait
  lost : job.phase.isLost = true → job.overlong = true ∧ job.revoked = false

theorem lasting_regular (settings : Settings) :
    Lasting (Regular settings : Job σ ρ → Prop) where
  moves {clock job w w' p} h hm := by
    refine ⟨h.overlong, fun hp => ?_⟩
    cases hm with
    | lost _ hr _ ho => exact ⟨ho, hr⟩
    | _ => cases hp
  granted h _ := ⟨h.overlong, nofun⟩
  told h := ⟨h.overlong, h.lost⟩
  revoked {job} h hp := ⟨h.overlong, fun hl => by simp [hp, Phase.isLost] at hl⟩

theorem regular_of_new {settings : Settings} {work : Work σ ρ} {delay : Int}
    (h : job.IsNew settings work delay) : Regular settings job where
  overlong := h.overlong
  lost hl := by
    rcases h.phase with he | ⟨-, ho⟩
    · cases hp : job.phase <;> simp [hp, Phase.isEarly, Phase.isLost] at he hl
    · exact ⟨ho, h.revoked⟩

/-- In every run of a new scheduler each job is regular. -/
theorem regular_meetAll (settings : Settings) (w : σ) (ds : List (Demand σ ρ)) :
    ∀ i < ((fresh settings w).meetAll ds).jobs.length,
      Holds (Regular settings) i ((fresh settings w).meetAll ds) :=
  (lasting_regular settings).meetAll_all settings (fun _ _ _ => regular_of_new)
    (idle_fresh settings w).sound rfl (by simp [fresh]) ds

/-! ### Being left alone -/

/-- Whether a demand stops a job that has not ended: it is told to stop by name or with all others,
or taken back. -/
def Demand.stops (m : Scheduler σ ρ) (i : Nat) : Demand σ ρ → Bool
  | .op (.cancel names) => names.contains i && !m.hasEnded i
  | .op .cancelAll => !m.hasEnded i
  | .op _ => false
  | .revoke k => k = i && (m.revoke k).1

/-- Whether nothing that is asked in a run stops a job. -/
def unstopped (i : Nat) : Scheduler σ ρ → List (Demand σ ρ) → Bool
  | _, [] => true
  | m, d :: ds => !d.stops m i && unstopped i (m.meet d) ds

theorem hasEnded_of (hi : m.jobs[i]? = some job) : m.hasEnded i = job.phase.isOver := by
  rw [Bool.eq_iff_iff, hasEnded_iff]
  simp [hi]

theorem Told.untold {names : List Nat} (ht : m.Told names n) (hn : i ∉ names)
    (h : Holds Q i m) : Holds Q i n := by
  obtain ⟨job, hi, hj⟩ := h
  exact ⟨job, by rw [ht.jobs, hi]; simp [hn], hj⟩

theorem Sound.not_mem_pending (hm : m.Sound) (h : m.hasEnded i = true) : i ∉ m.pending := by
  intro hi
  obtain ⟨job, hj, ho⟩ := (hm.booked.pending i).1 hi
  rw [hasEnded_of hj, ho] at h
  cases h

/-- What only being stopped takes away from a job, a demand that does not stop it leaves. -/
theorem Steady.meet (hQ : Steady Q) (hm : m.Sound) (h : Holds Q i m) {d : Demand σ ρ}
    (hd : d.stops m i = false) : Holds Q i (m.meet d) := by
  cases d with
  | op op =>
    show Holds Q i (m.perform op)
    cases op with
    | submit work delay =>
      cases hs : m.submit work delay with
      | error f => rwa [perform_submit_error hs]
      | ok r =>
        obtain ⟨job, hi, hc⟩ := h
        rw [perform_submit_ok hs]
        exact ⟨job, (hm.submit hs).2.2.getElem? hi, hc⟩
    | cancel names =>
      refine (hm.cancel names).2.untold (fun hmem => ?_) h
      rw [List.mem_filter, List.contains_iff_mem] at hmem
      rw [Demand.stops, List.contains_iff_mem.2 hmem.1, Bool.true_and, Bool.not_eq_false'] at hd
      exact hm.not_mem_pending hd hmem.2
    | cancelAll =>
      rw [Demand.stops, Bool.not_eq_false'] at hd
      exact hm.cancelAll.2.untold (hm.not_mem_pending hd) h
    | step => exact hQ.step hm h
    | advance time => exact hQ.runWhile hm h _
    | waitAll names => exact hQ.waitAll hm h names
    | close => exact hQ.close hm h
    | act f => exact h
  | revoke k =>
    rcases revoke_cases m k with he | ⟨job, hk, -, he⟩
    · rwa [Scheduler.meet, he]
    · rw [Demand.stops, he, Bool.and_true, decide_eq_false_iff_not] at hd
      obtain ⟨other, hi, hc⟩ := h
      rw [Scheduler.meet, he]
      exact ⟨other, by rw [setJob_jobs, getElem?_set_of_some hk, if_neg (Ne.symm hd), hi], hc⟩

theorem Steady.meetAll (hQ : Steady Q) {ds : List (Demand σ ρ)} (hm : m.Sound) (h : Holds Q i m)
    (hu : unstopped i m ds = true) : Holds Q i (m.meetAll ds) := by
  induction ds generalizing m with
  | nil => exact h
  | cons d ds ih =>
    obtain ⟨hd, hds⟩ := Bool.and_eq_true_iff.1 hu
    rw [Bool.not_eq_true'] at hd
    exact ih (hm.meet d) (hQ.meet hm h hd) hds

/-! ### The jobs that have not ended -/

section Pending

variable (m : Scheduler σ ρ) (i : Nat) (job : Job σ ρ)

theorem release_pending : m.release.pending = m.pending := by
  unfold release
  split
  · rfl
  · rfl
  · dsimp only
    split <;> rfl

theorem finish_pending_sublist (ending : Ending ρ) :
    (m.finish i job ending).pending.Sublist m.pending :=
  List.filter_sublist

theorem complete_pending_sublist : (m.complete i job).pending.Sublist m.pending := by
  have hp := release_pending { m with world := (job.work.leave m.clock m.world).2 }
  have hs := finish_pending_sublist
    (release { m with world := (job.work.leave m.clock m.world).2 }) i job
    (.finished (job.work.leave m.clock m.world).1)
  rw [hp] at hs
  exact hs

theorem fire_pending_sublist : (m.fire i job).pending.Sublist m.pending := by
  unfold fire
  dsimp only
  split
  · exact complete_pending_sublist _ i job
  · exact List.Sublist.refl _

theorem acquire_pending_sublist : (m.acquire i job).pending.Sublist m.pending := by
  unfold acquire
  split
  · exact fire_pending_sublist m i job
  · exact List.Sublist.refl _
  · exact fire_pending_sublist _ i job

theorem start_pending_sublist : (m.start i job).pending.Sublist m.pending := by
  unfold start callOff
  split
  · exact finish_pending_sublist m i job _
  · split
    · exact finish_pending_sublist m i job _
    · split
      · exact finish_pending_sublist m i job _
      · exact List.Sublist.refl _

/-- Going on takes at most the job itself off the list. -/
theorem resume_pending_sublist : (m.resume i).pending.Sublist m.pending := by
  unfold resume
  split
  · exact List.Sublist.refl _
  · split
    · exact start_pending_sublist m i _
    · split
      · exact finish_pending_sublist m i _ _
      · exact acquire_pending_sublist m i _
    · exact fire_pending_sublist m i _
    · exact complete_pending_sublist m i _
    · exact List.Sublist.refl _
    · exact List.Sublist.refl _

theorem step_pending_sublist : m.step.pending.Sublist m.pending := by
  unfold step
  split
  · exact List.Sublist.refl _
  · exact resume_pending_sublist _ _

end Pending

/-- The jobs that have not ended are listed in the order of their submission. -/
structure Listed (m : Scheduler σ ρ) : Prop where
  sound : m.Sound
  ordered : m.pending.SortedLT

theorem Idle.listed (h : m.Idle) : m.Listed :=
  ⟨h.sound, by rw [h.pending, List.sortedLT_iff_pairwise]; exact .nil⟩

theorem persists_listed : Persists (Listed : Scheduler σ ρ → Prop) where
  sound h := h.sound
  step {m} h := ⟨h.sound.of_step, (h.ordered.pairwise.sublist m.step_pending_sublist).sortedLT⟩
  told h hn ht := ⟨hn, by rw [ht.pending]; exact h.ordered⟩
  still h hs := ⟨hs.sound, by rw [hs.pending]; exact h.ordered⟩

theorem submit_pending {work : Work σ ρ} {delay : Int} (h : m.submit work delay = .ok (i, n)) :
    n.pending.Sublist (m.pending ++ [m.jobs.length]) := by
  rw [submit_eq] at h
  cases hw : m.settings.wait delay with
  | error f => simp [hw] at h
  | ok wait =>
    simp only [hw, Except.ok.injEq, Prod.mk.injEq] at h
    rw [← h.2]
    split
    · exact List.Sublist.refl _
    · split
      · exact finish_pending_sublist (m.takeOn _) _ _ _
      · exact List.Sublist.refl _

/-- A new job comes after all those listed. -/
theorem Listed.submit {work : Work σ ρ} {delay : Int} (h : m.Listed)
    (hs : m.submit work delay = .ok (i, n)) : n.Listed := by
  refine ⟨(h.sound.submit hs).1, ?_⟩
  rw [List.sortedLT_iff_pairwise]
  refine List.Pairwise.sublist (submit_pending hs) ?_
  rw [List.pairwise_append]
  refine ⟨h.ordered.pairwise, List.pairwise_singleton _ _, fun a ha b hb => ?_⟩
  obtain ⟨job, hj, -⟩ := (h.sound.booked.pending a).1 ha
  rw [List.mem_singleton.1 hb]
  exact (List.getElem?_eq_some_iff.1 hj).1

theorem Listed.perform (h : m.Listed) (op : Op σ ρ) : (m.perform op).Listed :=
  persists_listed.perform h (fun _ hs => h.submit hs) fun _ => ⟨h.sound.inWorld _, h.ordered⟩

theorem Listed.meet (h : m.Listed) (d : Demand σ ρ) : (m.meet d).Listed := by
  cases d with
  | op op => exact h.perform op
  | revoke k =>
    refine ⟨h.sound.revoke k, ?_⟩
    rcases revoke_cases m k with he | ⟨job, -, -, he⟩ <;>
      (rw [Scheduler.meet, he]; exact h.ordered)

/-- The list holds exactly the jobs that have not ended. -/
theorem Listed.pending_eq (h : m.Listed) :
    m.pending = (List.range m.jobs.length).filter fun i => !m.hasEnded i := by
  have hsorted : ((List.range m.jobs.length).filter fun i => !m.hasEnded i).SortedLT :=
    ((List.sortedLT_range _).pairwise.filter _).sortedLT
  refine h.ordered.eq_of_mem_iff hsorted fun i => ?_
  rw [h.sound.booked.pending i, List.mem_filter, List.mem_range]
  constructor
  · rintro ⟨job, hi, ho⟩
    exact ⟨(List.getElem?_eq_some_iff.1 hi).1, by rw [hasEnded_of hi, ho]; rfl⟩
  · rintro ⟨hlt, ho⟩
    have hi := List.getElem?_eq_getElem hlt
    exact ⟨_, hi, by rw [hasEnded_of hi] at ho; simpa using ho⟩

/-! ### Closing -/

theorem Threaded.perform (hm : m.Sound) (h : m.Threaded) (op : Op σ ρ) :
    (m.perform op).Threaded := by
  have hover : ∀ k, Holds (fun job => job.phase.isOver = true) k m →
      Holds (fun job => job.phase.isOver = true) k (m.perform op) :=
    fun k hk => kept_over.perform hm hk op
  cases op with
  | submit work delay =>
    cases hs : m.submit work delay with
    | error f => rwa [perform_submit_error hs]
    | ok r =>
      obtain ⟨-, -, ht⟩ := hm.submit hs
      intro k hlt
      have hthreads : (m.perform (.submit work delay)).threads = m.threads ++ [m.jobs.length] := by
        rw [perform_submit_ok hs, ht.threads]
      rw [hthreads, List.mem_append, List.mem_singleton]
      rw [perform_submit_ok hs, ht.length] at hlt
      by_cases hk : k = m.jobs.length
      · exact .inl (.inr hk)
      · exact (h k (by omega)).imp .inl (hover k)
  | cancel names => exact h.of_kept (hm.cancel names).2.length (hm.cancel names).2.threads hover
  | cancelAll => exact h.of_kept hm.cancelAll.2.length hm.cancelAll.2.threads hover
  | step =>
    have haged : m.Aged m.step := Aged.step ⟨hm, rfl, rfl, rfl⟩
    exact h.of_kept haged.length haged.threads hover
  | advance time =>
    have haged := hm.aged_runWhile (isDueBy (m.clock + time))
    exact h.of_kept haged.length haged.threads hover
  | waitAll names =>
    have haged := hm.aged_runWhile fun m => !names.all m.hasSettled
    exact h.of_kept haged.length haged.threads hover
  | close => exact (idle_close hm h).threaded
  | act f => exact h.of_kept rfl rfl hover

theorem Threaded.meet (hm : m.Sound) (h : m.Threaded) (d : Demand σ ρ) : (m.meet d).Threaded := by
  cases d with
  | op op => exact h.perform hm op
  | revoke k =>
    refine h.of_kept ?_ ?_ fun j hj => lasting_over.revoke hj k
    · rcases revoke_cases m k with he | ⟨job, -, -, he⟩ <;> simp [Scheduler.meet, he]
    · rcases revoke_cases m k with he | ⟨job, -, -, he⟩
      · rw [Scheduler.meet, he]
      · rw [Scheduler.meet, he]
        rfl

/-- In every run each job is over or will be waited for. -/
theorem Idle.threaded_meetAll (h : m.Idle) (ds : List (Demand σ ρ)) : (m.meetAll ds).Threaded :=
  (meetAll_induct (P := fun m => m.Sound ∧ m.Threaded)
    (fun _ d h => ⟨h.1.meet d, h.2.meet h.1 d⟩) ⟨h.sound, h.threaded⟩ ds).2

/-- Closing leaves every job over and none listed. -/
theorem Idle.close_meetAll (h : m.Idle) (ds : List (Demand σ ρ)) : (m.meetAll ds).close.Idle :=
  idle_close (h.sound.meetAll ds) (h.threaded_meetAll ds)

theorem Idle.listed_meetAll (h : m.Idle) (ds : List (Demand σ ρ)) : (m.meetAll ds).Listed :=
  meetAll_induct (P := Listed) (fun _ d h => h.meet d) h.listed ds

theorem Idle.isDone (h : m.Idle) (hr : job.phase.isLost = true → job.revoked = false)
    (hi : m.jobs[i]? = some job) : (m.future i).isDone = !job.phase.isLost := by
  have hover := h.ended job (List.mem_of_getElem? hi)
  cases hp : job.phase with
  | ended e =>
    cases e with
    | lost =>
      have hnot : job.revoked = false := hr (by rw [hp]; rfl)
      simp only [future, hi, hp, hnot, Future.isDone, Phase.isLost]
      rfl
    | _ => simp only [future, hi, hp, Future.isDone, Phase.isLost, Bool.not_false]
  | _ => simp [hp, Phase.isOver] at hover

end Scheduler

end Syndicate
