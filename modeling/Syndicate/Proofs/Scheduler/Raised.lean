import Syndicate.Proofs.Scheduler.Cancel

/-! What the work of jobs raises. Once it has ended nothing changes what it raised, a job that was
called off raises nothing, and waiting for the first failure ends with one failed job at most. -/

namespace Syndicate

variable {σ ρ : Type}

/-- The failure in which the work of a job has ended. -/
def Phase.raised? : Phase ρ → Option Failure
  | .ended (.finished (.error f)) => some f
  | _ => none

namespace Scheduler

variable {m n : Scheduler σ ρ} {i j : Nat} {job : Job σ ρ}

def raised? (m : Scheduler σ ρ) (i : Nat) : Option Failure :=
  m.jobs[i]?.bind fun job => job.phase.raised?

theorem raised?_of (h : m.jobs[i]? = some job) : m.raised? i = job.phase.raised? := by
  rw [raised?, h, Option.bind_some]

theorem raised?_of_unfired (h : m.hasFired i = false) : m.raised? i = none := by
  cases hi : m.jobs[i]? with
  | none => rw [raised?, hi, Option.bind_none]
  | some job =>
    rw [hasFired_of hi] at h
    rw [raised?_of hi]
    cases hp : job.phase with
    | ended e => cases e <;> simp [hp, Phase.hasFired] at h ⊢ <;> rfl
    | _ => rfl

/-- A job that nobody has stopped fails with what its work raises. -/
theorem failure?_of_free (h : Holds Job.Free i m) : m.failure? i = m.raised? i := by
  obtain ⟨job, hi, hfree⟩ := h
  rw [raised?_of hi]
  simp only [failure?, future, hi, hfree.revoked]
  cases hp : job.phase with
  | ended e =>
    have hended := hfree.ended (by rw [hp]; rfl)
    cases e with
    | finished o => cases o <;> rfl
    | lost => rfl
    | _ => simp [hp, Phase.hasFired] at hended
  | _ => rfl

/-! ### Jobs that are over -/

/-- What a job that is over has raised stays the same. -/
theorem Sound.raised?_run (hm : m.Sound) (h : Holds (fun job => job.phase.isOver = true) i m)
    (ops : List (Op σ ρ)) : (m.run ops).raised? i = m.raised? i := by
  obtain ⟨job, hi, hover⟩ := h
  obtain ⟨e, he⟩ : ∃ e, job.phase = .ended e := by
    cases hp : job.phase with
    | ended e => exact ⟨e, rfl⟩
    | _ => simp [hp, Phase.isOver] at hover
  obtain ⟨later, hl, hle⟩ := (kept_ended e).run hm ⟨job, hi, he⟩ ops
  rw [raised?_of hl, raised?_of hi, hle, he]

/-! ### The first failure -/

/-- The turn of a job changes the failure of no other one. -/
theorem Turn.failure? {p : Phase ρ} {k : Nat} (ht : m.Turn k job p n) (hj : j ≠ k) :
    n.failure? j = m.failure? j := by
  cases hm : m.jobs[j]? with
  | none =>
    have hn : n.jobs[j]? = none := by
      rw [List.getElem?_eq_none_iff, ht.length]
      exact List.getElem?_eq_none_iff.1 hm
    simp only [Scheduler.failure?, future, hm, hn]
  | some other =>
    rcases ht.others j other hj hm with hn | ⟨hq, hn⟩
    · simp only [Scheduler.failure?, future, hm, hn]
    · simp only [Scheduler.failure?, future, hm, hn, hq]

/-- Among jobs none of which has failed, one at most has failed when the waiting for the first
failure ends. -/
theorem Sound.waitFirst_unique (h : m.Sound) {names : List Nat}
    (hm : ∀ k ∈ names, m.failure? k = none) (hi : i ∈ names) (hj : j ∈ names)
    (hfi : (m.waitFirst names).failure? i ≠ none) (hfj : (m.waitFirst names).failure? j ≠ none) :
    i = j := by
  have hunique : (m.waitFirst names).Sound ∧ ∃ k, ∀ i ∈ names,
      (m.waitFirst names).failure? i ≠ none → i = k := by
    -- Waiting goes on only while none has failed, and a step lets one job at most fail.
    refine runWhile_while (P := fun n => n.Sound ∧ ∃ k, ∀ i ∈ names, n.failure? i ≠ none → i = k)
      ?_ ⟨h, 0, fun i hi hf => absurd (hm i hi) hf⟩
    rintro n ⟨hn, -⟩ hgo hq
    have hnone : ∀ i ∈ names, n.failure? i = none := by
      simp only [Bool.not_eq_true', Bool.or_eq_false_iff, List.any_eq_false] at hgo
      exact fun i hi => by simpa using hgo.2 i hi
    obtain ⟨e, job, p, -, -, ht, -⟩ := hn.step hq
    refine ⟨ht.sound, e.job, fun i hi hf => ?_⟩
    by_contra hne
    rw [ht.failure? hne] at hf
    exact hf (hnone i hi)
  obtain ⟨-, k, hk⟩ := hunique
  exact (hk i hi hfi).trans (hk j hj hfj).symm

end Scheduler

end Syndicate
