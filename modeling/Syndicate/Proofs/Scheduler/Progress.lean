import Syndicate.Proofs.Scheduler.Turn

/-! Steps in a row use up the bound of a scheduler, so a run stops only where it was asked to stop
or where nothing is left to do, and there every job is over: no job is left behind in line. -/

namespace Syndicate

variable {σ ρ : Type}

namespace Scheduler

variable {m : Scheduler σ ρ} {i : Nat} {job new : Job σ ρ}

/-! ### Steps -/

theorem stepWhile_induct {P : Scheduler σ ρ → Prop} {go : Scheduler σ ρ → Bool}
    (hs : ∀ m : Scheduler σ ρ, P m → go m = true → m.queue ≠ [] → P m.step) (n : Nat) (h : P m) :
    P (stepWhile go n m) := by
  induction n generalizing m with
  | zero => exact h
  | succ n ih =>
    unfold stepWhile
    split
    · rename_i hg
      obtain ⟨hgo, hq⟩ := Bool.and_eq_true_iff.1 hg
      exact ih (hs m h hgo (by simpa using hq))
    · exact h

/-- What every step keeps that a run takes, the run keeps. -/
theorem runWhile_while {P : Scheduler σ ρ → Prop} {go : Scheduler σ ρ → Bool}
    (hs : ∀ m : Scheduler σ ρ, P m → go m = true → m.queue ≠ [] → P m.step) (h : P m) :
    P (m.runWhile go) :=
  stepWhile_induct hs m.bound h

/-- What every step keeps, a run of steps keeps. -/
theorem runWhile_induct {P : Scheduler σ ρ → Prop}
    (hs : ∀ m : Scheduler σ ρ, P m → m.queue ≠ [] → P m.step) (go : Scheduler σ ρ → Bool)
    (h : P m) : P (m.runWhile go) :=
  runWhile_while (fun m h _ hq => hs m h hq) h

theorem joins_induct {P : Scheduler σ ρ → Prop}
    (hs : ∀ m : Scheduler σ ρ, P m → m.queue ≠ [] → P m.step) (names : List Nat) (h : P m) :
    P (names.foldl join m) := by
  induction names generalizing m with
  | nil => exact h
  | cons i names ih => exact ih (runWhile_induct hs _ h)

/-- Closing is a run of steps too, once the jobs that it waits for are written off. -/
theorem close_induct {P : Scheduler σ ρ → Prop}
    (hs : ∀ m : Scheduler σ ρ, P m → m.queue ≠ [] → P m.step) (h : P { m with threads := [] }) :
    P m.close :=
  joins_induct hs m.threads h

theorem Sound.of_step (h : m.Sound) : m.step.Sound := by
  by_cases hq : m.queue = []
  · rwa [step_of_queue_nil hq]
  · obtain ⟨_, _, _, _, _, ht, _⟩ := h.step hq
    exact ht.sound

theorem Sound.runWhile (h : m.Sound) (go : Scheduler σ ρ → Bool) : (m.runWhile go).Sound :=
  runWhile_induct (fun _ h _ => h.of_step) go h

theorem queue_nil_of_bound (h : m.bound = 0) : m.queue = [] := by
  rw [bound_eq] at h
  exact List.eq_nil_of_length_eq_zero (by omega)

/-- The bound on the steps is never what ends a run. -/
theorem Sound.stepWhile_stops (h : m.Sound) (go : Scheduler σ ρ → Bool) {n : Nat}
    (hn : m.bound ≤ n) :
    go (stepWhile go n m) = false ∨ (stepWhile go n m).queue = [] := by
  induction n generalizing m with
  | zero => exact .inr (queue_nil_of_bound (Nat.le_zero.1 hn))
  | succ n ih =>
    unfold stepWhile
    split
    · rename_i hg
      have hq : m.queue ≠ [] := by simpa using (Bool.and_eq_true_iff.1 hg).2
      obtain ⟨_, _, _, _, _, ht, hlt⟩ := h.step hq
      exact ih ht.sound (by omega)
    · rename_i hg
      by_cases hq : m.queue = []
      · exact .inr hq
      · exact .inl (by simpa [hq] using hg)

theorem Sound.runWhile_stops (h : m.Sound) (go : Scheduler σ ρ → Bool) :
    go (m.runWhile go) = false ∨ (m.runWhile go).queue = [] :=
  h.stepWhile_stops go (Nat.le_refl _)

/-! ### Nothing left to do -/

/-- Every job is over, and no slot is held. -/
structure Idle (m : Scheduler σ ρ) : Prop where
  queue : m.queue = []
  ended : ∀ job ∈ m.jobs, job.phase.isOver = true
  pending : m.pending = []
  slots : m.slots = m.settings.slots

theorem Sound.inQueue_of_queue_nil (h : m.Sound) (hq : m.queue = []) :
    ∀ job ∈ m.jobs, job.phase.inQueue = 0 := by
  intro job hj
  obtain ⟨i, hi⟩ := List.mem_iff_getElem?.1 hj
  have := h.booked.entries i
  rw [hq, wanted_of hi] at this
  simpa using this.symm

/-- Somebody who holds a slot has an entry, so nobody is in line once the queue is empty. -/
theorem Sound.not_queued (h : m.Sound) (hq : m.queue = []) :
    ∀ job ∈ m.jobs, job.phase.isQueued = false := by
  intro job hj
  have hin := h.inQueue_of_queue_nil hq
  obtain ⟨i, hi⟩ := List.mem_iff_getElem?.1 hj
  have hs := h.slots
  cases hm : m.slots with
  | none =>
    rw [hm] at hs
    exact Phase.isQueued_of_isDue (hs.of_none.2 i job hi)
  | some s =>
    rw [hm] at hs
    obtain ⟨b, hb, hfit⟩ := hs.of_some
    by_contra hc
    have hline : i ∈ s.line := (hfit.mem i).2 ⟨job, hi, by simpa using hc⟩
    have hfree := hfit.full (List.ne_nil_of_mem hline)
    have hheld := hfit.held
    have hpos := Settings.slots_pos hb
    have hcount := countP_holdsSlot_eq_zero fun other ho =>
      Phase.holdsSlot_of_inQueue (hin other ho)
    omega

/-- There is no deadlock: with an empty queue the scheduler is idle. -/
theorem Sound.idle (h : m.Sound) (hq : m.queue = []) : m.Idle := by
  have hover : ∀ job ∈ m.jobs, job.phase.isOver = true := by
    intro job hj
    have hin := h.inQueue_of_queue_nil hq job hj
    have hnq := h.not_queued hq job hj
    cases hp : job.phase <;> simp [hp, Phase.inQueue, Phase.isQueued, Phase.isOver] at hin hnq ⊢
  refine ⟨hq, hover, ?_, ?_⟩
  · rw [List.eq_nil_iff_forall_not_mem]
    intro i hi
    obtain ⟨job, hj, ho⟩ := (h.booked.pending i).1 hi
    simp [hover job (List.mem_of_getElem? hj)] at ho
  · have hs := h.slots
    cases hm : m.slots with
    | none =>
      rw [hm] at hs
      exact hs.of_none.1.symm
    | some s =>
      rw [hm] at hs
      obtain ⟨b, hb, hfit⟩ := hs.of_some
      have hcount := countP_holdsSlot_eq_zero fun job hj => (Phase.isOver_out (hover job hj)).1
      have hline : s.line = [] := by
        rw [List.eq_nil_iff_forall_not_mem]
        intro i hi
        obtain ⟨job, hj, hjq⟩ := (hfit.mem i).1 hi
        simp [(Phase.isOver_out (hover job (List.mem_of_getElem? hj))).2.2] at hjq
      have hheld := hfit.held
      obtain ⟨free, line⟩ := s
      obtain ⟨bfree, bline⟩ := b
      have hbl := Settings.slots_line hb
      simp only at hline hbl hheld
      rw [hb, hline, hbl, show free = bfree by omega]

theorem Idle.sound (h : m.Idle) : m.Sound where
  booked := by
    refine ⟨fun i => ?_, by simp [h.queue], fun i => ?_⟩
    · have hw : m.wanted i = 0 := by
        cases hi : m.jobs[i]? with
        | none => simp [wanted, hi]
        | some job =>
          rw [wanted_of hi]
          exact Phase.inQueue_of_isOver (h.ended job (List.mem_of_getElem? hi))
      simp [h.queue, hw]
    · rw [h.pending]
      simp only [List.not_mem_nil, false_iff, not_exists, not_and]
      intro job hi
      simp [h.ended job (List.mem_of_getElem? hi)]
  slots := by
    have hout : ∀ job ∈ m.jobs, _ := fun job hj => Phase.isOver_out (h.ended job hj)
    rw [h.slots]
    cases hb : m.settings.slots with
    | none => exact .unbounded fun i job hi => (hout job (List.mem_of_getElem? hi)).2.1
    | some b =>
      have hl := Settings.slots_line hb
      refine .bounded ⟨?_, fun hne => absurd hl hne, by simp [hl], fun i => ?_⟩
      · have := countP_holdsSlot_eq_zero fun job hj => (hout job hj).1
        omega
      · rw [hl]
        simp only [List.not_mem_nil, false_iff, not_exists, not_and]
        intro job hi
        simp [(hout job (List.mem_of_getElem? hi)).2.2]

/-! ### Waiting -/

theorem hasEnded_iff : m.hasEnded i = true ↔
    ∀ job, m.jobs[i]? = some job → job.phase.isOver = true := by
  unfold hasEnded
  cases hi : m.jobs[i]? with
  | none => simp
  | some job =>
    cases hp : job.phase <;> simp [hp, Phase.isOver]

/-- Who has settled has ended, and is not lost. -/
theorem hasSettled_iff : m.hasSettled i = true ↔
    ∀ job, m.jobs[i]? = some job → job.phase.isOver = true ∧ job.phase ≠ .ended .lost := by
  unfold hasSettled
  cases hi : m.jobs[i]? with
  | none => simp
  | some job =>
    cases hp : job.phase with
    | ended e => cases e <;> simp [hp, Phase.isOver]
    | _ => simp [hp, Phase.isOver]

/-- Waiting for jobs ends with all of them over. -/
theorem Sound.waitAll_over (h : m.Sound) (names : List Nat) (hi : i ∈ names)
    (hj : (m.waitAll names).jobs[i]? = some job) : job.phase.isOver = true := by
  rcases h.runWhile_stops fun m => !names.all m.hasSettled with hstop | hq
  · have hgo : (!names.all (m.waitAll names).hasSettled) = false := hstop
    rw [Bool.not_eq_false', List.all_eq_true] at hgo
    exact (hasSettled_iff.1 (hgo i hi) job hj).1
  · exact ((h.runWhile _).idle hq).ended job (List.mem_of_getElem? hj)

/-- Waiting for the first failure ends with a failure or with all jobs over. -/
theorem Sound.waitFirst_over (h : m.Sound) (names : List Nat)
    (hf : ∀ j ∈ names, (m.waitFirst names).failure? j = none) (hi : i ∈ names)
    (hj : (m.waitFirst names).jobs[i]? = some job) : job.phase.isOver = true := by
  rcases h.runWhile_stops fun m =>
    !(names.all m.hasSettled || names.any fun j => (m.failure? j).isSome) with hstop | hq
  · have hnone : (names.any fun j => ((m.waitFirst names).failure? j).isSome) = false := by
      simpa [List.any_eq_false] using hf
    have hgo : (!(names.all (m.waitFirst names).hasSettled ||
        names.any fun j => ((m.waitFirst names).failure? j).isSome)) = false := hstop
    rw [hnone, Bool.or_false, Bool.not_eq_false', List.all_eq_true] at hgo
    exact (hasSettled_iff.1 (hgo i hi) job hj).1
  · exact ((h.runWhile _).idle hq).ended job (List.mem_of_getElem? hj)

end Scheduler

end Syndicate
