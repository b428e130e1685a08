import Syndicate.Proofs.Scheduler.Demand

/-! No job is early. While a job waits, its entry is not due before its time, unless it was told to
stop and will do none of its work; so when a job fires, its time has come. -/

namespace Syndicate

variable {σ ρ : Type}

namespace Scheduler

variable {m n : Scheduler σ ρ} {i k t : Nat} {job : Job σ ρ} {f : Entry}

/-! ### New entries -/

/-- A slot that is given back brings an entry to nobody who waits out a delay. -/
theorem release_added (hf : f ∈ m.release.queue) :
    f ∈ m.queue ∨ Holds (fun job => job.phase ≠ .waiting) f.job m.release := by
  cases hs : m.slots with
  | none => exact .inl (by simpa only [release, hs] using hf)
  | some s =>
    obtain ⟨free, line⟩ := s
    cases line with
    | nil => exact .inl (by simpa only [release, hs] using hf)
    | cons first line =>
      cases hj : m.jobs[first]? with
      | none => exact .inl (by simpa only [release, hs, hj] using hf)
      | some next =>
        simp only [release, hs, hj] at hf ⊢
        rw [schedule_queue, setJob_queue, List.mem_append, List.mem_singleton] at hf
        rcases hf with hf | rfl
        · exact .inl hf
        · refine .inr ⟨{ next with phase := .granted }, ?_, by simp⟩
          rw [schedule_jobs, setJob_jobs, getElem?_set_of_some hj, if_pos rfl]

theorem holds_set {Q : Job σ ρ → Prop} {new : Job σ ρ} {j : Nat} (h : Holds Q j m) (hn : Q new)
    (hi : i < m.jobs.length) : Holds Q j (m.setJob i new) := by
  obtain ⟨job, hj, hq⟩ := h
  by_cases hji : j = i
  · subst hji
    exact ⟨new, by rw [setJob_jobs, List.getElem?_set_self hi], hn⟩
  · exact ⟨job, by rw [setJob_jobs, List.getElem?_set_ne (Ne.symm hji), hj], hq⟩

theorem release_length (m : Scheduler σ ρ) : m.release.jobs.length = m.jobs.length := by
  unfold release
  split
  · rfl
  · rfl
  · dsimp only
    split
    · rfl
    · simp

theorem complete_added (hi : i < m.jobs.length) (hf : f ∈ (m.complete i job).queue) :
    f ∈ m.queue ∨ Holds (fun job => job.phase ≠ .waiting) f.job (m.complete i job) := by
  let n : Scheduler σ ρ := { m with world := (job.work.leave m.clock m.world).2 }
  refine (release_added (m := n) hf).imp id fun h => ?_
  have hlt : i < n.release.jobs.length := by rw [release_length]; exact hi
  exact holds_set h (by simp) hlt

theorem fire_added (hi : i < m.jobs.length) (hf : f ∈ (m.fire i job).queue) :
    f ∈ m.queue ∨ Holds (fun job => job.phase ≠ .waiting) f.job (m.fire i job) := by
  unfold fire at hf ⊢
  dsimp only at hf ⊢
  split at hf
  · rename_i hd
    rw [if_pos hd]
    exact complete_added (m := { m with world := job.work.enter m.clock m.world }) hi hf
  · rename_i hd
    rw [if_neg hd]
    rw [schedule_queue, setJob_queue, List.mem_append, List.mem_singleton] at hf
    rcases hf with hf | rfl
    · exact .inl hf
    · exact .inr ⟨_, List.getElem?_set_self hi, by simp⟩

theorem acquire_added (hi : i < m.jobs.length) (hf : f ∈ (m.acquire i job).queue) :
    f ∈ m.queue ∨ Holds (fun job => job.phase ≠ .waiting) f.job (m.acquire i job) := by
  unfold acquire at hf ⊢
  split at hf
  · exact fire_added hi hf
  · exact .inl hf
  · exact fire_added (m := { m with slots := some ⟨_, _⟩ }) hi hf

theorem start_added (hf : f ∈ (m.start i job).queue) :
    f ∈ m.queue ∨ f.job = i ∧ f.due = m.clock + job.wait := by
  unfold start callOff at hf
  split at hf
  · exact .inl hf
  split at hf
  · exact .inl hf
  split at hf
  · exact .inl hf
  · rw [schedule_queue, setJob_queue, List.mem_append, List.mem_singleton] at hf
    rcases hf with hf | rfl
    · exact .inl hf
    · exact .inr ⟨rfl, rfl⟩

/-- A new entry is that of a job that begins its wait, or its job does not wait out a delay. -/
theorem resume_added (hi : m.jobs[i]? = some job) (hf : f ∈ (m.resume i).queue) :
    f ∈ m.queue ∨ Holds (fun job => job.phase ≠ .waiting) f.job (m.resume i) ∨
    f.job = i ∧ job.phase = .unstarted ∧ f.due = m.clock + job.wait := by
  have hlt := (List.getElem?_eq_some_iff.1 hi).1
  simp only [resume, hi] at hf ⊢
  cases hp : job.phase with
  | unstarted =>
    rw [hp] at hf
    exact (start_added hf).imp id fun h => .inr ⟨h.1, rfl, h.2⟩
  | waiting =>
    rw [hp] at hf
    dsimp only at hf ⊢
    split at hf
    · exact .inl hf
    · rename_i hc
      rw [if_neg hc]
      exact (acquire_added hlt hf).imp id .inl
  | granted => rw [hp] at hf; exact (fire_added hlt hf).imp id .inl
  | running => rw [hp] at hf; exact (complete_added hlt hf).imp id .inl
  | queued | ended _ => rw [hp] at hf; exact .inl hf

/-! ### In time -/

/-- A job is not to fire before a time: it has begun no wait that ends earlier, waits for no entry
that is due earlier, and is past its delay only when the time has come. -/
structure Awaits (t i : Nat) (m : Scheduler σ ρ) (job : Job σ ρ) : Prop where
  unstarted : job.phase = .unstarted → t ≤ m.clock + job.wait
  waiting : job.phase = .waiting → job.cancelled = false → ∀ f ∈ m.queue, f.job = i → t ≤ f.due
  due : job.phase.isDue = true → t ≤ m.clock

def Punctual (t i : Nat) (m : Scheduler σ ρ) : Prop := Holds (Awaits t i m) i m

theorem awaits_fired (h : job.phase.isEarly = false) (hd : job.phase.isDue = false) :
    Awaits t i m job where
  unstarted hp := by simp [hp, Phase.isEarly] at h
  waiting hp := by simp [hp, Phase.isEarly] at h
  due hp := by simp [hd] at hp

/-- Time passes, and the job is left as it is. -/
theorem Awaits.later (h : Awaits t i m job) (hc : m.clock ≤ n.clock)
    (hq : job.phase = .waiting → ∀ f ∈ n.queue, f.job = i → f ∈ m.queue) :
    Awaits t i n job where
  unstarted hp := Nat.le_trans (h.unstarted hp) (Nat.add_le_add_right hc _)
  waiting hp hn f hf hi := h.waiting hp hn f (hq hp f hf hi) hi
  due hp := Nat.le_trans (h.due hp) hc

theorem Punctual.later (h : Punctual t i m) (hj : n.jobs = m.jobs) (hq : n.queue = m.queue)
    (hc : m.clock ≤ n.clock) : Punctual t i n := by
  obtain ⟨job, hi, ha⟩ := h
  exact ⟨job, by rw [hj, hi], ha.later hc fun _ f hf _ => hq ▸ hf⟩

/-- When a job fires, its time has come. -/
theorem Awaits.le_clock {e : Entry} (h : Awaits t i m job) (he : e ∈ m.queue) (hi : e.job = i)
    (hf : job.MayFire) : t ≤ (m.taken e).clock := by
  rcases hf with ⟨hp, hc⟩ | hp
  · exact Nat.le_trans (h.waiting hp hc e he hi) (Nat.le_max_right _ _)
  · exact Nat.le_trans (h.due (by rw [hp]; rfl)) (Nat.le_max_left _ _)

theorem Sound.clock_step (hm : m.Sound) : m.clock ≤ m.step.clock := by
  by_cases hq : m.queue = []
  · rw [step_of_queue_nil hq]
  · obtain ⟨e, job, p, -, -, ht, -⟩ := hm.step hq
    rw [ht.clock]
    exact Nat.le_max_left _ _

/-- The entries of a job that waits are old ones, unless it begins its wait in this step. -/
theorem Sound.step_entries {e : Entry} (hm : m.Sound) (he : m.next? = some e)
    (hj : m.jobs[e.job]? = some job) (hw : Holds (fun job => job.phase = .waiting) i m.step)
    (hf : f ∈ m.step.queue) (hi : f.job = i) : f ∈ m.queue ∧ i ≠ e.job ∨
    i = e.job ∧ job.phase = .unstarted ∧ f.due = m.step.clock + job.wait := by
  rw [step_eq he] at hf hw ⊢
  have hclock : ((m.taken e).resume e.job).clock = (m.taken e).clock := by
    obtain ⟨hb, _, hj', hp⟩ := hm.taken he
    obtain ⟨p, ht⟩ := hb.resume hj' hp hm.slots
    exact ht.clock
  rcases resume_added (m := m.taken e) hj hf with hold | hnot | ⟨hfe, hu, hd⟩
  · refine .inl ⟨List.mem_of_mem_erase hold, fun hie => ?_⟩
    have hnone := (hm.taken he).1.entries e.job
    rw [if_pos rfl, List.countP_eq_zero] at hnone
    exact absurd (hi.trans hie) (by simpa using hnone f hold)
  · obtain ⟨other, ho, hn⟩ := hi ▸ hnot
    exact absurd (hw.of_getElem? ho) hn
  · exact .inr ⟨hi.symm.trans hfe, hu, by rw [hclock]; exact hd⟩

theorem Punctual.step (hm : m.Sound) (h : Punctual t i m) : Punctual t i m.step := by
  by_cases hq : m.queue = []
  · rwa [step_of_queue_nil hq]
  · obtain ⟨e, job, p, he, hj, ht, -⟩ := hm.step hq
    have hclock := hm.clock_step
    have hmem : e ∈ m.queue := first?_mem he
    by_cases hi : i = e.job
    · subst hi
      have ha : Awaits t e.job m job := h.of_getElem? hj
      refine ⟨_, ht.moved, ?_⟩
      have hmoves := ht.moves
      generalize m.step.world = w' at hmoves
      cases hmoves with
      | revoked | calledOff | lost | begins | passes | ends => exact awaits_fired rfl rfl
      | waits hp =>
        refine ⟨by simp, fun _ _ f hf hfi => ?_, by simp [Phase.isDue]⟩
        have hw : Holds (fun job => job.phase = .waiting) e.job m.step := ⟨_, ht.moved, rfl⟩
        rcases hm.step_entries he hj hw hf hfi with ⟨-, hne⟩ | ⟨-, -, hd⟩
        · exact absurd rfl hne
        · rw [hd]
          exact Nat.le_trans (ha.unstarted hp) (Nat.add_le_add_right hclock _)
      | queues hp hc =>
        refine ⟨by simp, by simp, fun _ => ?_⟩
        rw [ht.clock]
        exact ha.le_clock hmem rfl (.inl ⟨hp, hc⟩)
    · obtain ⟨other, ho, ha⟩ := h
      rcases ht.others i other hi ho with hn | ⟨hqueued, hn⟩
      · refine ⟨other, hn, ha.later hclock fun hp f hf hfi => ?_⟩
        rcases hm.step_entries he hj ⟨other, hn, hp⟩ hf hfi with ⟨hold, -⟩ | ⟨hie, -⟩
        · exact hold
        · exact absurd hie hi
      · refine ⟨_, hn, by simp, by simp, fun _ => ?_⟩
        exact Nat.le_trans (ha.due (by rw [hqueued]; rfl)) hclock

theorem Punctual.runWhile (hm : m.Sound) (h : Punctual t i m) (go : Scheduler σ ρ → Bool) :
    Punctual t i (m.runWhile go) :=
  (runWhile_induct (P := fun m => m.Sound ∧ Punctual t i m)
    (fun _ h _ => ⟨h.1.of_step, h.2.step h.1⟩) go ⟨hm, h⟩).2

theorem Punctual.close (hm : m.Sound) (h : Punctual t i m) : Punctual t i m.close :=
  (close_induct (P := fun m => m.Sound ∧ Punctual t i m)
    (fun _ h _ => ⟨h.1.of_step, h.2.step h.1⟩)
    ⟨hm.unthreaded, h.later rfl rfl (Nat.le_refl _)⟩).2

/-- What is due by a time does not take a scheduler past it. -/
theorem Sound.clock_runWhile (hm : m.Sound) {time : Nat} (h : m.clock ≤ time) :
    (m.runWhile (isDueBy time)).clock ≤ time := by
  have hall : (m.runWhile (isDueBy time)).Sound ∧ (m.runWhile (isDueBy time)).clock ≤ time := by
    refine runWhile_while (P := fun m => m.Sound ∧ m.clock ≤ time) ?_ ⟨hm, h⟩
    rintro n ⟨hn, hc⟩ hgo hq
    obtain ⟨e, job, p, he, -, ht, -⟩ := hn.step hq
    have hdue : e.due ≤ time := by simpa [isDueBy, he] using hgo
    exact ⟨ht.sound, by rw [ht.clock]; exact Nat.max_le.2 ⟨hc, hdue⟩⟩
  exact hall.2

theorem Punctual.advance (hm : m.Sound) (h : Punctual t i m) (time : Nat) :
    Punctual t i (m.advance time) :=
  (h.runWhile hm _).later rfl rfl (hm.clock_runWhile (Nat.le_add_right _ _))

/-! ### What is asked -/

theorem cancelJob_entries (hf : f ∈ (m.cancelJob k).queue) : f ∈ m.queue ∨ f.job = k := by
  unfold cancelJob at hf
  split at hf
  · exact .inl hf
  · split at hf
    · obtain ⟨e, he, rfl⟩ := List.mem_map.1 hf
      unfold Entry.hasten
      split
      · rename_i hk
        exact .inr hk
      · exact .inl he
    · exact .inl hf

/-- A job that is told to stop does not fire when its entry is moved up. -/
theorem Punctual.cancelJob (hm : m.Sound) (h : Punctual t i m) (k : Nat) :
    Punctual t i (m.cancelJob k) := by
  obtain ⟨job, hi, ha⟩ := h
  have ht := (hm.cancelJob k).2
  have hclock : m.clock ≤ (m.cancelJob k).clock := Nat.le_of_eq ht.clock.symm
  by_cases hik : i = k
  · subst hik
    refine ⟨{ job with cancelled := true }, by rw [ht.jobs, hi]; simp, ?_, by simp, ?_⟩
    · exact fun hp => Nat.le_trans (ha.unstarted hp) (Nat.add_le_add_right hclock _)
    · exact fun hp => Nat.le_trans (ha.due hp) hclock
  · refine ⟨job, by rw [ht.jobs, hi]; simp [hik], ha.later hclock fun _ f hf hfi => ?_⟩
    exact (cancelJob_entries hf).resolve_right fun hfk => hik (hfi.symm.trans hfk)

theorem Punctual.cancelJobs (hm : m.Sound) (h : Punctual t i m) (names : List Nat) :
    Punctual t i (names.foldl Scheduler.cancelJob m) := by
  induction names generalizing m with
  | nil => exact h
  | cons k names ih => exact ih (hm.cancelJob k).1 (h.cancelJob hm k)

theorem submit_entries {work : Work σ ρ} {delay : Int} (hs : m.submit work delay = .ok (i, n))
    (hf : f ∈ n.queue) : f ∈ m.queue ∨ f.job = m.jobs.length := by
  rw [submit_eq] at hs
  cases hw : m.settings.wait delay with
  | error f => simp [hw] at hs
  | ok wait =>
    simp only [hw, Except.ok.injEq, Prod.mk.injEq] at hs
    obtain ⟨-, rfl⟩ := hs
    split at hf
    · rw [schedule_queue, List.mem_append, List.mem_singleton] at hf
      rcases hf with hf | rfl
      · exact .inl hf
      · exact .inr rfl
    split at hf
    · exact .inl hf
    · rw [schedule_queue, List.mem_append, List.mem_singleton] at hf
      rcases hf with hf | rfl
      · exact .inl hf
      · exact .inr rfl

theorem Punctual.submit {work : Work σ ρ} {delay : Int} (hm : m.Sound) (h : Punctual t i m)
    (hs : m.submit work delay = .ok (k, n)) : Punctual t i n := by
  obtain ⟨job, hi, ha⟩ := h
  obtain ⟨-, -, ht⟩ := hm.submit hs
  refine ⟨job, ht.getElem? hi, ha.later (Nat.le_of_eq ht.clock.symm) fun _ f hf hfi => ?_⟩
  refine (submit_entries hs hf).resolve_right fun hfl => ?_
  have hlt := (List.getElem?_eq_some_iff.1 hi).1
  omega

theorem Punctual.revoke (h : Punctual t i m) (k : Nat) : Punctual t i (m.revoke k).2 := by
  rcases revoke_cases m k with he | ⟨job, hk, hp, he⟩
  · rwa [he]
  · rw [he]
    obtain ⟨other, hi, ha⟩ := h
    by_cases hik : i = k
    · subst hik
      rw [hk] at hi
      cases hi
      exact ⟨{ job with revoked := true }, by rw [setJob_jobs, getElem?_set_of_some hk, if_pos rfl],
        ha.unstarted, ha.waiting, ha.due⟩
    · refine ⟨other, ?_, ha.unstarted, ha.waiting, ha.due⟩
      rw [setJob_jobs, getElem?_set_of_some hk, if_neg hik, hi]

theorem Punctual.meet (hm : m.Sound) (h : Punctual t i m) (d : Demand σ ρ) :
    Punctual t i (m.meet d) := by
  cases d with
  | revoke k => exact h.revoke k
  | op op =>
    show Punctual t i (m.perform op)
    cases op with
    | submit work delay =>
      cases hs : m.submit work delay with
      | error f => rwa [perform_submit_error hs]
      | ok r => rw [perform_submit_ok hs]; exact h.submit hm hs
    | cancel names => exact h.cancelJobs hm _
    | cancelAll => exact h.cancelJobs hm _
    | step => exact h.step hm
    | advance time => exact h.advance hm time
    | waitAll names => exact h.runWhile hm _
    | close => exact h.close hm
    | act f => exact h.later rfl rfl (Nat.le_refl _)

/-- An entry is that of a job that there is. -/
theorem Sound.entry_lt (hm : m.Sound) (hf : f ∈ m.queue) : f.job < m.jobs.length := by
  by_contra hlt
  have hnone : m.wanted f.job = 0 := by
    rw [wanted, List.getElem?_eq_none (Nat.le_of_not_lt hlt)]
  have hcount := hm.booked.entries f.job
  rw [hnone, if_neg (by simp), List.countP_eq_zero] at hcount
  exact hcount f hf (by simp)

/-- A new job is not to fire before its delay is over. -/
theorem Sound.punctual_submit {work : Work σ ρ} {delay : Int} {wait : Nat} (hm : m.Sound)
    (hw : m.settings.wait delay = .ok wait) (hs : m.submit work delay = .ok (i, n)) :
    Punctual (n.clock + wait) i n := by
  rw [submit_eq, hw] at hs
  have hat := getElem?_takeOn m
    { work := work, wait := wait, overlong := m.settings.isOverlong wait } m.jobs.length
  rw [if_pos rfl] at hat
  simp only [Except.ok.injEq, Prod.mk.injEq] at hs
  obtain ⟨rfl, rfl⟩ := hs
  split
  · exact ⟨_, hat, fun _ => Nat.le_refl _, by simp, by simp [Phase.isDue]⟩
  split
  · exact ⟨_, by rw [finish_jobs, getElem?_set_of_some hat, if_pos rfl], awaits_fired rfl rfl⟩
  · refine ⟨_, by rw [schedule_jobs, setJob_jobs, getElem?_set_of_some hat, if_pos rfl],
      by simp, fun _ _ f hf hfi => ?_, by simp [Phase.isDue]⟩
    rw [schedule_queue, List.mem_append, List.mem_singleton] at hf
    rcases hf with hf | rfl
    · exact absurd (hm.entry_lt hf) (by omega)
    · exact Nat.le_refl _

end Scheduler

end Syndicate
