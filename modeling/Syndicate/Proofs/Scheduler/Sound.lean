import Syndicate.Proofs.Scheduler.Slots

/-! What every state of a scheduler has in common. Each job has as many entries as its phase asks
for, `pending` holds the jobs that are not over, no entry is overdue, and the slots fit. The
operations of a scheduler keep all of this. -/

namespace Syndicate

variable {σ ρ : Type}

namespace Scheduler

/-! ### The next entry -/

theorem first?_eq_none {es : List Entry} : first? es = none ↔ es = [] := by
  cases es with
  | nil => simp [first?]
  | cons e es => simp only [first?]; cases first? es <;> simp

theorem first?_mem {es : List Entry} {e : Entry} (h : first? es = some e) : e ∈ es := by
  induction es generalizing e with
  | nil => simp [first?] at h
  | cons f es ih =>
    unfold first? at h
    cases hf : first? es with
    | none => simp_all
    | some g =>
      simp only [hf, Option.some.injEq] at h
      split at h <;> subst h
      · exact List.mem_cons_of_mem _ (ih hf)
      · exact List.mem_cons_self

theorem first?_due_le {es : List Entry} {e : Entry} (h : first? es = some e) :
    ∀ f ∈ es, e.due ≤ f.due := by
  induction es generalizing e with
  | nil => simp
  | cons f es ih =>
    intro x hx
    unfold first? at h
    cases hf : first? es with
    | none =>
      obtain rfl : f = e := by rw [hf] at h; simpa using h
      rw [first?_eq_none.1 hf, List.mem_singleton] at hx
      exact Nat.le_of_eq (by rw [hx])
    | some g =>
      have hg := ih hf
      simp only [hf, Option.some.injEq] at h
      have hb : Entry.before g f = true → g.due ≤ f.due := by
        simp only [Entry.before, Bool.or_eq_true, Bool.and_eq_true, decide_eq_true_eq]; omega
      have hb' : Entry.before g f = false → f.due ≤ g.due := by
        simp only [Entry.before, Bool.or_eq_false_iff, decide_eq_false_iff_not]; omega
      split at h <;> subst h <;> rename_i hbf
      · rcases List.mem_cons.1 hx with rfl | hx
        · exact hb hbf
        · exact hg x hx
      · rcases List.mem_cons.1 hx with rfl | hx
        · exact Nat.le_refl _
        · exact Nat.le_trans (hb' (by simpa using hbf)) (hg x hx)

/-! ### Fields -/

section Fields

variable (m : Scheduler σ ρ) (i due : Nat) (job : Job σ ρ) (ending : Ending ρ)

@[simp] theorem setJob_jobs : (m.setJob i job).jobs = m.jobs.set i job := rfl
@[simp] theorem setJob_queue : (m.setJob i job).queue = m.queue := rfl
@[simp] theorem setJob_settings : (m.setJob i job).settings = m.settings := rfl
@[simp] theorem setJob_pending : (m.setJob i job).pending = m.pending := rfl

@[simp] theorem schedule_jobs : (m.schedule due i).jobs = m.jobs := rfl
@[simp] theorem schedule_queue :
    (m.schedule due i).queue = m.queue ++ [⟨due, m.nextSeq, i⟩] := rfl
@[simp] theorem schedule_settings : (m.schedule due i).settings = m.settings := rfl
@[simp] theorem schedule_pending : (m.schedule due i).pending = m.pending := rfl

@[simp] theorem finish_jobs :
    (m.finish i job ending).jobs = m.jobs.set i { job with phase := .ended ending } := rfl
@[simp] theorem finish_queue : (m.finish i job ending).queue = m.queue := rfl
@[simp] theorem finish_pending :
    (m.finish i job ending).pending = m.pending.filter (· ≠ i) := rfl

end Fields

/-- The state in which the job of an entry goes on. -/
def taken (m : Scheduler σ ρ) (e : Entry) : Scheduler σ ρ :=
  { m with queue := m.queue.erase e, clock := max m.clock e.due }

section Fields

variable (m : Scheduler σ ρ) (e : Entry)

@[simp] theorem taken_jobs : (m.taken e).jobs = m.jobs := rfl
@[simp] theorem taken_queue : (m.taken e).queue = m.queue.erase e := rfl

end Fields

theorem step_eq {m : Scheduler σ ρ} {e : Entry} (h : m.next? = some e) :
    m.step = (m.taken e).resume e.job := by
  simp only [step, h, taken]

theorem step_of_queue_nil {m : Scheduler σ ρ} (h : m.queue = []) : m.step = m := by
  simp only [step, next?, first?_eq_none.2 h]

theorem exists_next {m : Scheduler σ ρ} (h : m.queue ≠ []) : ∃ e, m.next? = some e := by
  cases hn : m.next? with
  | none => exact absurd (first?_eq_none.1 hn) h
  | some e => exact ⟨e, rfl⟩

/-! ### Books

A job that goes on is in hand: its entry is gone, and its phase has not changed yet. -/

/-- How many entries the phase of a job asks for. -/
def wanted (m : Scheduler σ ρ) (i : Nat) : Nat :=
  match m.jobs[i]? with
  | some job => job.phase.inQueue
  | none => 0

/-- Every job but the one in hand has the entries that it asks for, none of them overdue, and
`pending` holds the jobs that are not over. -/
structure Booked (hand : Option Nat) (m : Scheduler σ ρ) : Prop where
  entries : ∀ i, m.queue.countP (fun e => e.job = i) = if hand = some i then 0 else m.wanted i
  due : ∀ e ∈ m.queue, m.clock ≤ e.due
  pending : ∀ i, i ∈ m.pending ↔ ∃ job, m.jobs[i]? = some job ∧ job.phase.isOver = false

/-- The books are right, and the slots fit their bound. -/
structure Sound (m : Scheduler σ ρ) : Prop where
  booked : m.Booked none
  slots : SlotsFit m.jobs m.settings.slots m.slots

variable {m : Scheduler σ ρ} {i due : Nat} {job new : Job σ ρ}

theorem wanted_of (h : m.jobs[i]? = some job) : m.wanted i = job.phase.inQueue := by
  simp only [wanted, h]

theorem wanted_congr {n : Scheduler σ ρ} (h : n.jobs = m.jobs) (i : Nat) :
    n.wanted i = m.wanted i := by
  simp only [wanted, h]

theorem wanted_le_one (m : Scheduler σ ρ) (i : Nat) : m.wanted i ≤ 1 := by
  unfold wanted
  split
  · exact Phase.inQueue_le_one _
  · exact Nat.zero_le 1

theorem wanted_set (h : m.jobs[i]? = some job) (new : Job σ ρ) (j : Nat) :
    (m.setJob i new).wanted j = if j = i then new.phase.inQueue else m.wanted j := by
  simp only [wanted, setJob, getElem?_set_of_some h]
  by_cases hj : j = i <;> simp [hj]

/-- The job of the next entry is there, and taking the entry leaves it in hand. -/
theorem Sound.taken {e : Entry} (h : m.Sound) (he : m.next? = some e) :
    (m.taken e).Booked (some e.job) ∧ ∃ job, m.jobs[e.job]? = some job ∧ job.phase.inQueue = 1 := by
  have hm : e ∈ m.queue := first?_mem he
  have hcount : ∀ i, m.queue.countP (fun f => f.job = i) =
      (m.queue.erase e).countP (fun f => f.job = i) + if e.job = i then 1 else 0 := by
    intro i
    rw [(List.perm_cons_erase hm).countP_eq, List.countP_cons]
    simp
  have hw := h.booked.entries e.job
  simp only [hcount, ↓reduceIte, reduceCtorEq] at hw
  refine ⟨⟨fun i => ?_, fun f hf => ?_, h.booked.pending⟩, ?_⟩
  · have hi := h.booked.entries i
    simp only [hcount, ↓reduceIte, reduceCtorEq] at hi
    rw [taken_queue, wanted_congr (taken_jobs m e)]
    by_cases hj : e.job = i
    · subst hj
      have := wanted_le_one m e.job
      simp only [↓reduceIte] at hi ⊢
      omega
    · simpa [hj] using hi
  · have hd := first?_due_le he f (List.mem_of_mem_erase hf)
    exact Nat.max_le.2 ⟨h.booked.due f (List.mem_of_mem_erase hf), hd⟩
  · cases hj : m.jobs[e.job]? with
    | none => simp [wanted, hj] at hw
    | some job =>
      rw [wanted_of hj] at hw
      have := job.phase.inQueue_le_one
      exact ⟨job, rfl, by omega⟩

namespace Booked

/-- A job in hand that is not over may change its phase. -/
theorem setJob (h : m.Booked (some i)) (hi : m.jobs[i]? = some job) (ho : job.phase.isOver = false)
    (hn : new.phase.isOver = false) : (m.setJob i new).Booked (some i) where
  entries j := by
    rw [wanted_set hi new, setJob_queue, h.entries j]
    by_cases hj : j = i
    · subst hj; simp
    · simp [hj, Ne.symm hj]
  due := h.due
  pending j := by
    simp only [setJob_jobs, setJob_pending, getElem?_set_of_some hi]
    rw [h.pending j]
    by_cases hj : j = i
    · subst hj; simp [hi, ho, hn]
    · simp [hj]

/-- A job in hand is given its entry. -/
theorem schedule (h : m.Booked (some i)) (hi : m.jobs[i]? = some job)
    (hn : job.phase.inQueue = 1) (hd : m.clock ≤ due) : (m.schedule due i).Booked none where
  entries j := by
    rw [schedule_queue, List.countP_append, h.entries j, wanted_congr (schedule_jobs m i due)]
    by_cases hj : j = i
    · subst hj; simp [wanted_of hi, hn]
    · simp [Ne.symm hj]
  due e he := by
    simp only [schedule_queue, List.mem_append, List.mem_singleton] at he
    rcases he with he | rfl
    · exact h.due e he
    · exact hd
  pending := h.pending

/-- A job in hand that needs no entry is let go. -/
theorem drop (h : m.Booked (some i)) (hi : m.jobs[i]? = some job) (hn : job.phase.inQueue = 0) :
    m.Booked none where
  entries j := by
    have := h.entries j
    by_cases hj : j = i
    · subst hj; simpa [wanted_of hi, hn] using this
    · simpa [Ne.symm hj] using this
  due := h.due
  pending := h.pending

/-- A job in hand is over. -/
theorem finish (h : m.Booked (some i)) (hi : m.jobs[i]? = some job) (ending : Ending ρ) :
    (m.finish i job ending).Booked none where
  entries j := by
    have hw : (m.finish i job ending).wanted j = _ :=
      wanted_set hi { job with phase := .ended ending } j
    rw [finish_queue, h.entries j, hw]
    by_cases hj : j = i
    · subst hj; simp [Phase.inQueue]
    · simp [hj, Ne.symm hj]
  due := h.due
  pending j := by
    simp only [finish_pending, finish_jobs, List.mem_filter, h.pending j, getElem?_set_of_some hi]
    by_cases hj : j = i
    · subst hj; simp [Phase.isOver]
    · simp [hj]

/-- Another job leaves the line, with an entry due at once. -/
theorem grant {hand : Option Nat} (h : m.Booked hand) (hi : m.jobs[i]? = some job)
    (hq : job.phase = .queued) (hh : hand ≠ some i) :
    ((m.setJob i { job with phase := .granted }).schedule m.clock i).Booked hand where
  entries j := by
    have hw : ((m.setJob i { job with phase := .granted }).schedule m.clock i).wanted j = _ :=
      wanted_set hi { job with phase := .granted } j
    have he := h.entries j
    rw [hw, schedule_queue, setJob_queue, List.countP_append]
    by_cases hj : j = i
    · subst hj; simpa [hh, wanted_of hi, hq, Phase.inQueue] using he
    · simpa [hj, Ne.symm hj] using he
  due e he := by
    simp only [schedule_queue, setJob_queue, List.mem_append, List.mem_singleton] at he
    rcases he with he | rfl
    · exact h.due e he
    · exact Nat.le_refl _
  pending j := by
    simp only [schedule_jobs, setJob_jobs, schedule_pending, setJob_pending,
      getElem?_set_of_some hi]
    rw [h.pending j]
    by_cases hj : j = i
    · subst hj; simp [hi, hq, Phase.isOver]
    · simp [hj]

end Booked

end Scheduler

end Syndicate
