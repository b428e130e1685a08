import Mathlib.Data.List.Nodup
import Mathlib.Tactic.Common
import Syndicate.Scheduler

/-! Phases of jobs, and slots. The slots that are free and those that are held add up to their
number, the line holds the jobs that wait for one, and there is a line only while no slot is
free. -/

namespace Syndicate

variable {α σ ρ : Type}

theorem getElem?_set_of_some {l : List α} {i : Nat} {a : α} (h : l[i]? = some a) (b : α)
    (j : Nat) : (l.set i b)[j]? = if j = i then some b else l[j]? := by
  have hi : i < l.length := (List.getElem?_eq_some_iff.1 h).1
  by_cases hj : j = i
  · subst hj; simp [hi]
  · rw [if_neg hj, List.getElem?_set_ne (Ne.symm hj)]

/-- A change of one member changes a count by that member alone. -/
theorem countP_set_add (p : α → Bool) {l : List α} {i : Nat} {a : α} (h : l[i]? = some a) (b : α) :
    (l.set i b).countP p + (p a).toNat = l.countP p + (p b).toNat := by
  induction l generalizing i with
  | nil => simp at h
  | cons x l ih =>
    cases i with
    | zero =>
      obtain rfl : x = a := by simpa using h
      simp only [List.set_cons_zero, List.countP_cons]
      cases p x <;> cases p b <;> simp
    | succ i =>
      have hi := ih (by simpa using h)
      simp only [List.set_cons_succ, List.countP_cons]
      omega

/-- A change of one member changes a total by that member alone. -/
theorem foldr_add_set (f : α → Nat) {l : List α} {i : Nat} {a : α} (h : l[i]? = some a) (b : α) :
    (l.set i b).foldr (fun x n => f x + n) 0 + f a = l.foldr (fun x n => f x + n) 0 + f b := by
  induction l generalizing i with
  | nil => simp at h
  | cons x l ih =>
    cases i with
    | zero =>
      obtain rfl : x = a := by simpa using h
      simp only [List.set_cons_zero, List.foldr_cons]
      omega
    | succ i =>
      have hi := ih (by simpa using h)
      simp only [List.set_cons_succ, List.foldr_cons]
      omega

namespace Phase

/-- How many entries a job has in the queue. -/
def inQueue : Phase ρ → Nat
  | .unstarted | .waiting | .granted | .running => 1
  | .queued | .ended _ => 0

theorem inQueue_le_one (p : Phase ρ) : p.inQueue ≤ 1 := by cases p <;> simp [inQueue]

def isQueued : Phase ρ → Bool
  | .queued => true
  | _ => false

/-- Whether a job is past its delay and its work has not begun. -/
def isDue : Phase ρ → Bool
  | .queued | .granted => true
  | _ => false

def holdsSlot : Phase ρ → Bool
  | .granted | .running => true
  | _ => false

def isOver : Phase ρ → Bool
  | .ended _ => true
  | _ => false

theorem isOver_out {p : Phase ρ} (h : p.isOver = true) :
    p.holdsSlot = false ∧ p.isDue = false ∧ p.isQueued = false := by
  cases p <;> simp [isOver, holdsSlot, isDue, isQueued] at h ⊢

/-- Whether the work of a job has begun. -/
def hasFired : Phase ρ → Bool
  | .running | .ended (.finished _) => true
  | _ => false

/-- Whether a job is before the end of its delay. -/
def isEarly : Phase ρ → Bool
  | .unstarted | .waiting => true
  | _ => false

/-- Whether a job is over without anybody learning of it. -/
def isLost : Phase ρ → Bool
  | .ended .lost => true
  | _ => false

section

variable {p : Phase ρ}

/-- Who holds a slot has an entry. -/
theorem holdsSlot_of_inQueue (h : p.inQueue = 0) : p.holdsSlot = false := by
  cases p <;> simp [inQueue, holdsSlot] at h ⊢

theorem inQueue_of_isOver (h : p.isOver = true) : p.inQueue = 0 := by
  cases p <;> simp [isOver, inQueue] at h ⊢

theorem isOver_of_isEarly (h : p.isEarly = true) : p.isOver = false := by
  cases p <;> simp [isEarly, isOver] at h ⊢

theorem hasFired_of_isEarly (h : p.isEarly = true) : p.hasFired = false := by
  cases p <;> simp [isEarly, hasFired] at h ⊢

theorem hasFired_of_isDue (h : p.isDue = true) : p.hasFired = false := by
  cases p <;> simp [isDue, hasFired] at h ⊢

theorem isQueued_of_isDue (h : p.isDue = false) : p.isQueued = false := by
  cases p <;> simp [isDue, isQueued] at h ⊢

end

end Phase

theorem countP_holdsSlot_eq_zero {jobs : List (Job σ ρ)}
    (h : ∀ job ∈ jobs, job.phase.holdsSlot = false) :
    jobs.countP (fun job : Job σ ρ => job.phase.holdsSlot) = 0 := by
  rw [List.countP_eq_zero]
  intro job hj
  simp [h job hj]

/-- The slots of `k` that are not free are held, and only full slots have a line. -/
structure Slots.Fit (k : Nat) (s : Slots) (jobs : List (Job σ ρ)) : Prop where
  held : s.free + jobs.countP (fun job : Job σ ρ => job.phase.holdsSlot) = k
  full : s.line ≠ [] → s.free = 0
  nodup : s.line.Nodup
  mem : ∀ i, i ∈ s.line ↔ ∃ job, jobs[i]? = some job ∧ job.phase.isQueued = true

/-- Slots fit a bound; without one no job is kept from its work. -/
inductive SlotsFit (jobs : List (Job σ ρ)) : (bound slots : Option Slots) → Prop
  | unbounded (h : ∀ (i : Nat) (job : Job σ ρ), jobs[i]? = some job → job.phase.isDue = false) :
    SlotsFit jobs none none
  | bounded {b s : Slots} (h : s.Fit b.free jobs) : SlotsFit jobs (some b) (some s)

theorem Settings.slots_pos {s : Settings} {b : Slots} (h : s.slots = some b) : 0 < b.free := by
  unfold Settings.slots at h
  split at h
  · cases h
  · cases h
  · cases h
    rename_i n hn _
    exact Nat.pos_of_ne_zero fun h0 => hn h0

theorem Settings.slots_line {s : Settings} {b : Slots} (h : s.slots = some b) : b.line = [] := by
  unfold Settings.slots at h
  split at h <;> cases h
  rfl

namespace Slots.Fit

variable {k i : Nat} {s : Slots} {jobs : List (Job σ ρ)} {job new : Job σ ρ}

theorem mem_line (h : s.Fit k jobs) (hi : jobs[i]? = some job) :
    i ∈ s.line ↔ job.phase.isQueued = true := by
  rw [h.mem i]
  simp [hi]

/-- One job changes and the slots with it: those that are free and those that are held still add up,
and the line gains or loses at most that job. -/
theorem set {s' : Slots} {k' : Nat} (h : s.Fit k jobs) (hi : jobs[i]? = some job)
    (hk : s'.free + new.phase.holdsSlot.toNat + k = s.free + job.phase.holdsSlot.toNat + k')
    (hfull : s'.line ≠ [] → s'.free = 0) (hnodup : s'.line.Nodup)
    (hline : ∀ j, j ∈ s'.line ↔ if j = i then new.phase.isQueued = true else j ∈ s.line) :
    s'.Fit k' (jobs.set i new) where
  held := by
    have := countP_set_add (fun job : Job σ ρ => job.phase.holdsSlot) hi new
    have := h.held
    omega
  full := hfull
  nodup := hnodup
  mem j := by
    rw [hline, getElem?_set_of_some hi]
    by_cases hj : j = i
    · subst hj; simp
    · simp [hj, h.mem]

/-- A job that is in line as before leaves the line as it is. -/
theorem mem_line_same (h : s.Fit k jobs) (hi : jobs[i]? = some job)
    (hq : new.phase.isQueued = job.phase.isQueued) (j : Nat) :
    j ∈ s.line ↔ if j = i then new.phase.isQueued = true else j ∈ s.line := by
  by_cases hj : j = i
  · subst hj; simp [h.mem_line hi, hq]
  · simp [hj]

/-- A job that is in no line and holds no slot, before or after, does not matter to the slots. -/
theorem set_same (h : s.Fit k jobs) (hi : jobs[i]? = some job)
    (hh : new.phase.holdsSlot = job.phase.holdsSlot)
    (hq : new.phase.isQueued = job.phase.isQueued) : s.Fit k (jobs.set i new) :=
  h.set hi (by rw [hh]) h.full h.nodup (h.mem_line_same hi hq)

/-- A job at no slot takes a free one. -/
theorem take {free : Nat} {line : List Nat} (h : Slots.Fit k ⟨free + 1, line⟩ jobs)
    (hi : jobs[i]? = some job) (hh : job.phase.holdsSlot = false)
    (hq : job.phase.isQueued = false) (hn : new.phase.holdsSlot = true)
    (hm : new.phase.isQueued = false) : Slots.Fit k ⟨free, line⟩ (jobs.set i new) := by
  have hnil : line ≠ [] → free = 0 := fun hl => absurd (h.full hl) (Nat.succ_ne_zero free)
  refine h.set hi ?_ hnil h.nodup (h.mem_line_same hi (hm.trans hq.symm))
  rw [hh, hn, Bool.toNat_true, Bool.toNat_false]

/-- With no slot free a job goes to the end of the line. -/
theorem lineUp {line : List Nat} (h : Slots.Fit k ⟨0, line⟩ jobs) (hi : jobs[i]? = some job)
    (hh : job.phase.holdsSlot = false) (hq : job.phase.isQueued = false)
    (hn : new.phase = .queued) : Slots.Fit k ⟨0, line ++ [i]⟩ (jobs.set i new) := by
  have hout : i ∉ line := fun hin => by simp [(h.mem_line hi).1 hin] at hq
  have hnodup : (line ++ [i]).Nodup :=
    h.nodup.append (List.nodup_singleton i) (by simpa using hout)
  refine h.set hi (by rw [hh, hn]; rfl) (fun _ => rfl) hnodup fun j => ?_
  rw [List.mem_append, List.mem_singleton, hn]
  by_cases hj : j = i <;> simp [hj, Phase.isQueued]

/-- A job gives its slot back when nobody is in line. -/
theorem giveBack {free : Nat} (h : Slots.Fit k ⟨free, []⟩ jobs) (hi : jobs[i]? = some job)
    (hh : job.phase.holdsSlot = true) (hq : job.phase.isQueued = false)
    (hn : new.phase.holdsSlot = false) (hm : new.phase.isQueued = false) :
    Slots.Fit k ⟨free + 1, []⟩ (jobs.set i new) := by
  refine h.set hi ?_ (absurd rfl) List.nodup_nil (h.mem_line_same hi (hm.trans hq.symm))
  rw [hh, hn, Bool.toNat_true, Bool.toNat_false]

/-- A job leaves its slot to another one. -/
theorem leave (h : s.Fit (k + 1) jobs) (hi : jobs[i]? = some job)
    (hh : job.phase.holdsSlot = true) (hq : job.phase.isQueued = false)
    (hn : new.phase.holdsSlot = false) (hm : new.phase.isQueued = false) :
    s.Fit k (jobs.set i new) := by
  refine h.set hi ?_ h.full h.nodup (h.mem_line_same hi (hm.trans hq.symm))
  rw [hh, hn, Bool.toNat_true, Bool.toNat_false]
  omega

/-- The first in line is a job that waits for a slot. -/
theorem first {first : Nat} {line : List Nat} (h : s.Fit k jobs) (hl : s.line = first :: line) :
    ∃ job, jobs[first]? = some job ∧ job.phase = .queued := by
  obtain ⟨job, hj, hq⟩ := (h.mem first).1 (by simp [hl])
  refine ⟨job, hj, ?_⟩
  cases hp : job.phase <;> simp [hp, Phase.isQueued] at hq ⊢

/-- The first in line is granted the slot that another job gives back. -/
theorem grant {first free : Nat} {line : List Nat} (h : Slots.Fit k ⟨free, first :: line⟩ jobs)
    (hi : jobs[first]? = some job) (hn : new.phase = .granted) :
    Slots.Fit (k + 1) ⟨free, line⟩ (jobs.set first new) := by
  have hq : job.phase = .queued := by
    obtain ⟨other, ho, hp⟩ := h.first rfl
    rw [hi] at ho
    cases ho
    exact hp
  obtain ⟨hout, hnodup⟩ := List.nodup_cons.1 h.nodup
  refine h.set hi ?_ (fun _ => h.full (List.cons_ne_nil _ _)) hnodup fun j => ?_
  · rw [hq, hn]
    simp only [Phase.holdsSlot, Bool.toNat_true, Bool.toNat_false]
    omega
  · by_cases hj : j = first
    · subst hj; simp [hn, Phase.isQueued, hout]
    · simp [hj]

end Slots.Fit

namespace SlotsFit

variable {i : Nat} {bound slots : Option Slots} {jobs : List (Job σ ρ)} {job new : Job σ ρ}

theorem of_none (h : SlotsFit jobs bound none) :
    bound = none ∧ ∀ (i : Nat) (job : Job σ ρ), jobs[i]? = some job → job.phase.isDue = false := by
  cases h with
  | unbounded h => exact ⟨rfl, h⟩

theorem of_some {s : Slots} (h : SlotsFit jobs bound (some s)) :
    ∃ b, bound = some b ∧ s.Fit b.free jobs := by
  cases h with
  | bounded h => exact ⟨_, rfl, h⟩

/-- Without a bound any job that is not kept from its work will do. -/
theorem set_unbounded (h : SlotsFit jobs bound none) (hi : jobs[i]? = some job)
    (hn : new.phase.isDue = false) : SlotsFit (jobs.set i new) bound none := by
  obtain ⟨rfl, hd⟩ := h.of_none
  refine .unbounded fun j other hj => ?_
  rw [getElem?_set_of_some hi] at hj
  split at hj
  · cases hj; exact hn
  · exact hd j other hj

theorem set_same (h : SlotsFit jobs bound slots) (hi : jobs[i]? = some job)
    (hh : new.phase.holdsSlot = job.phase.holdsSlot)
    (hd : job.phase.isDue = false → new.phase.isDue = false)
    (hq : new.phase.isQueued = job.phase.isQueued) : SlotsFit (jobs.set i new) bound slots := by
  cases slots with
  | none => exact h.set_unbounded hi (hd (h.of_none.2 i job hi))
  | some s =>
    obtain ⟨b, rfl, hf⟩ := h.of_some
    exact .bounded (hf.set_same hi hh hq)

/-- A new job that is at no slot and waits for none does not matter to the slots. -/
theorem append (h : SlotsFit jobs bound slots) (hh : new.phase.holdsSlot = false)
    (hd : new.phase.isDue = false) : SlotsFit (jobs ++ [new]) bound slots := by
  have hm : ∀ (j : Nat) (job' : Job σ ρ), (jobs ++ [new])[j]? = some job' →
      jobs[j]? = some job' ∨ job' = new := by
    intro j job' hj
    rw [List.getElem?_append] at hj
    split at hj
    · exact .inl hj
    · have := List.mem_of_getElem? hj; simp at this; exact .inr this
  cases h with
  | unbounded h =>
    refine .unbounded fun j job' hj => ?_
    rcases hm j job' hj with hj | rfl
    · exact h j job' hj
    · exact hd
  | @bounded b s h =>
    refine .bounded ⟨?_, h.full, h.nodup, fun j => ?_⟩
    · simpa [List.countP_append, hh] using h.held
    · rw [h.mem j]
      constructor
      · rintro ⟨job', hj, hq⟩
        have hlt : j < jobs.length := (List.getElem?_eq_some_iff.1 hj).1
        exact ⟨job', by rw [List.getElem?_append_left hlt]; exact hj, hq⟩
      · rintro ⟨job', hj, hq⟩
        rcases hm j job' hj with hj | rfl
        · exact ⟨job', hj, hq⟩
        · simp [Phase.isQueued_of_isDue hd] at hq

end SlotsFit

end Syndicate
