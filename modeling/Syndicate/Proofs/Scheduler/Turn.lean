import Syndicate.Proofs.Scheduler.Sound

/-! What one step of a scheduler does. The job of the next entry moves to another phase, and its
work acts on the world when it begins and when it ends; of all other jobs only the first in line
may move, to the slot that it is granted. -/

namespace Syndicate

variable {σ ρ : Type}

/-- Whether a job whose turn has come goes to its work. -/
def Job.MayFire (job : Job σ ρ) : Prop :=
  job.phase = .waiting ∧ job.cancelled = false ∨ job.phase = .granted

theorem Job.MayFire.unfired {job : Job σ ρ} (h : job.MayFire) : job.phase.hasFired = false := by
  rcases h with ⟨hp, -⟩ | hp <;> rw [hp] <;> rfl

/-- How a job goes on at a time and in a world: the phase that it comes to, and the world that it
leaves. -/
inductive Job.Moves (clock : Nat) (job : Job σ ρ) (w : σ) : Phase ρ → σ → Prop
  | revoked (hp : job.phase = .unstarted) (hr : job.revoked = true) :
    Moves clock job w (.ended .revoked) w
  | calledOff (hp : job.phase.isEarly = true) (hr : job.phase = .unstarted → job.revoked = false)
    (hc : job.cancelled = true) : Moves clock job w (.ended .calledOff) w
  | waits (hp : job.phase = .unstarted) (hr : job.revoked = false) (hc : job.cancelled = false)
    (ho : job.overlong = false) : Moves clock job w .waiting w
  | queues (hp : job.phase = .waiting) (hc : job.cancelled = false) : Moves clock job w .queued w
  | lost (hp : job.phase = .unstarted) (hr : job.revoked = false) (hc : job.cancelled = false)
    (ho : job.overlong = true) : Moves clock job w (.ended .lost) w
  | begins (hf : job.MayFire) (hd : job.work.span (job.work.enter clock w) ≠ 0) :
    Moves clock job w .running (job.work.enter clock w)
  | passes (hf : job.MayFire) (hd : job.work.span (job.work.enter clock w) = 0) :
    Moves clock job w (.ended (.finished (job.work.leave clock (job.work.enter clock w)).1))
      (job.work.leave clock (job.work.enter clock w)).2
  | ends (hp : job.phase = .running) :
    Moves clock job w (.ended (.finished (job.work.leave clock w).1)) (job.work.leave clock w).2

theorem Job.Moves.not_over {job : Job σ ρ} {clock : Nat} {w w' : σ} {p : Phase ρ}
    (h : job.Moves clock w p w') : job.phase.isOver = false := by
  cases h with
  | revoked hp | waits hp | queues hp | lost hp | ends hp => rw [hp]; rfl
  | calledOff he => exact Phase.isOver_of_isEarly he
  | begins hf | passes hf => rcases hf with ⟨hp, -⟩ | hp <;> rw [hp] <;> rfl

namespace Scheduler

/-- A job has moved to a phase; of the others only the first in line may have moved, to a slot that
it was granted. -/
structure Shift (m : Scheduler σ ρ) (i : Nat) (job : Job σ ρ) (p : Phase ρ)
    (n : Scheduler σ ρ) : Prop where
  settings : n.settings = m.settings
  clock : n.clock = m.clock
  threads : n.threads = m.threads
  length : n.jobs.length = m.jobs.length
  moved : n.jobs[i]? = some { job with phase := p }
  others : ∀ j other, j ≠ i → m.jobs[j]? = some other → n.jobs[j]? = some other ∨
    other.phase = .queued ∧ n.jobs[j]? = some { other with phase := .granted }
  bound : n.bound ≤ m.bound

/-- A job in hand has gone on. -/
structure Turn (m : Scheduler σ ρ) (i : Nat) (job : Job σ ρ) (p : Phase ρ)
    (n : Scheduler σ ρ) : Prop extends Shift m i job p n where
  moves : job.Moves m.clock m.world p n.world
  sound : n.Sound

variable {m : Scheduler σ ρ} {i : Nat} {job new : Job σ ρ}

/-! ### The bound -/

theorem bound_eq (m : Scheduler σ ρ) :
    m.bound = m.jobs.foldr (fun job n => job.phase.entries + n) 0 + m.queue.length := by
  unfold bound
  induction m.jobs with
  | nil => simp
  | cons job jobs ih => simp only [List.foldr_cons, ih]; omega

theorem bound_setJob (h : m.jobs[i]? = some job) (new : Job σ ρ) :
    (m.setJob i new).bound + job.phase.entries = m.bound + new.phase.entries := by
  have := foldr_add_set (fun job : Job σ ρ => job.phase.entries) h new
  simp only [bound_eq, setJob_jobs, setJob_queue]
  omega

theorem bound_schedule (m : Scheduler σ ρ) (due i : Nat) :
    (m.schedule due i).bound = m.bound + 1 := by
  simp only [bound_eq, schedule_jobs, schedule_queue, List.length_append, List.length_singleton]
  omega

theorem bound_finish (h : m.jobs[i]? = some job) (ending : Ending ρ) :
    (m.finish i job ending).bound + job.phase.entries = m.bound :=
  bound_setJob h { job with phase := .ended ending }

theorem bound_taken {e : Entry} (h : e ∈ m.queue) : (m.taken e).bound + 1 = m.bound := by
  have hl := List.length_erase_of_mem h
  have hp := List.length_pos_of_mem h
  simp only [bound_eq, taken_jobs, taken_queue]
  omega

/-! ### Giving a slot back -/

/-- The slot of a job in hand is given back: the slots fit whenever the job leaves its work. -/
structure Released (m : Scheduler σ ρ) (i : Nat) (job : Job σ ρ) (n : Scheduler σ ρ) : Prop where
  booked : n.Booked (some i)
  slots : ∀ new : Job σ ρ, new.phase.isOver = true →
    SlotsFit (n.jobs.set i new) n.settings.slots n.slots
  here : n.jobs[i]? = some job
  settings : n.settings = m.settings
  clock : n.clock = m.clock
  threads : n.threads = m.threads
  world : n.world = m.world
  length : n.jobs.length = m.jobs.length
  others : ∀ j other, j ≠ i → m.jobs[j]? = some other → n.jobs[j]? = some other ∨
    other.phase = .queued ∧ n.jobs[j]? = some { other with phase := .granted }
  bound : n.bound = m.bound

section Release

variable (h : m.Booked (some i)) (hi : m.jobs[i]? = some job)
  (hs : SlotsFit (m.jobs.set i { job with phase := .running }) m.settings.slots m.slots)
include h hi hs

/-- Without a bound there is nothing to give back. -/
theorem Booked.release_none (hm : m.slots = none) : Released m i job m.release := by
  have hr : m.release = m := by simp only [Scheduler.release, hm]
  rw [hm] at hs
  rw [hr]
  refine ⟨h, fun new hn => ?_, hi, rfl, rfl, rfl, rfl, rfl, fun j other _ ho => .inl ho, rfl⟩
  have hi' := getElem?_set_of_some hi { job with phase := .running } i
  rw [if_pos rfl] at hi'
  have hg := hs.set_unbounded hi' (Phase.isOver_out hn).2.1
  rwa [List.set_set, ← hm] at hg

/-- With nobody in line a slot is free again. -/
theorem Booked.release_free {free : Nat} (hm : m.slots = some ⟨free, []⟩) :
    Released m i job m.release := by
  have hr : m.release = { m with slots := some ⟨free + 1, []⟩ } := by
    simp only [Scheduler.release, hm]
  rw [hm] at hs
  obtain ⟨b, hb, hfit⟩ := hs.of_some
  rw [hr]
  refine ⟨⟨h.entries, h.due, h.pending⟩, fun new hn => ?_, hi, rfl, rfl, rfl, rfl, rfl,
    fun j other _ ho => .inl ho, rfl⟩
  obtain ⟨hh, -, hq⟩ := Phase.isOver_out hn
  have hi' := getElem?_set_of_some hi { job with phase := .running } i
  rw [if_pos rfl] at hi'
  have hg := hfit.giveBack hi' rfl rfl hh hq
  rw [List.set_set] at hg
  simp only [hb]
  exact .bounded hg

/-- The first in line is granted the slot. -/
theorem Booked.release_line {free first : Nat} {line : List Nat}
    (hm : m.slots = some ⟨free, first :: line⟩) : Released m i job m.release := by
  rw [hm] at hs
  obtain ⟨b, hb, hfit⟩ := hs.of_some
  have hi' := getElem?_set_of_some hi { job with phase := .running } i
  rw [if_pos rfl] at hi'
  obtain ⟨next, hf, hq⟩ := hfit.first rfl
  have hne : first ≠ i := by
    rintro rfl
    rw [hi'] at hf
    cases hf
    cases hq
  have hf' : m.jobs[first]? = some next := by
    rw [getElem?_set_of_some hi, if_neg hne] at hf
    exact hf
  let n : Scheduler σ ρ := { m with slots := some ⟨free, line⟩ }
  have hr : m.release =
      (n.setJob first { next with phase := .granted }).schedule m.clock first := by
    simp only [Scheduler.release, hm, hf', n]
  have hn : n.Booked (some i) := ⟨h.entries, h.due, h.pending⟩
  have hbound : (n.setJob first { next with phase := .granted }).bound + 1 = n.bound := by
    have := bound_setJob (m := n) hf' { next with phase := .granted }
    simp only [hq, Phase.entries] at this
    omega
  rw [hr]
  refine ⟨hn.grant hf' hq (by simpa using Ne.symm hne), fun new hn => ?_, ?_, rfl, rfl, rfl, rfl,
    by simp [n], fun j other hj ho => ?_, ?_⟩
  · obtain ⟨hh, -, hq'⟩ := Phase.isOver_out hn
    have hg : Slots.Fit (b.free + 1) ⟨free, line⟩ ((m.jobs.set i { job with
        phase := .running }).set first { next with phase := .granted }) := hfit.grant hf rfl
    have hat : ((m.jobs.set i { job with phase := .running }).set first
        { next with phase := .granted })[i]? = some { job with phase := .running } := by
      rw [getElem?_set_of_some hf, if_neg (Ne.symm hne), hi']
    have hl := hg.leave hat rfl rfl hh hq'
    rw [List.set_comm _ _ (Ne.symm hne), List.set_set] at hl
    simp only [schedule_settings, setJob_settings, schedule_jobs, setJob_jobs, n, hb]
    exact .bounded hl
  · rw [schedule_jobs, setJob_jobs, getElem?_set_of_some hf', if_neg (Ne.symm hne)]
    exact hi
  · rw [schedule_jobs, setJob_jobs, getElem?_set_of_some hf']
    by_cases hjf : j = first
    · subst hjf
      rw [hf'] at ho
      cases ho
      exact .inr ⟨hq, by simp⟩
    · exact .inl (by simpa [hjf] using ho)
  · rw [bound_schedule, hbound]
    rfl

theorem Booked.release : Released m i job m.release := by
  cases hm : m.slots with
  | none => exact h.release_none hi hs hm
  | some s =>
    obtain ⟨free, line⟩ := s
    cases line with
    | nil => exact h.release_free hi hs hm
    | cons first line => exact h.release_line hi hs hm

end Release

/-! ### From a job in hand to the end of its turn -/

theorem Booked.complete (h : m.Booked (some i)) (hi : m.jobs[i]? = some job)
    (hs : SlotsFit (m.jobs.set i { job with phase := .running }) m.settings.slots m.slots) :
    (m.complete i job).Sound ∧ (m.complete i job).world = (job.work.leave m.clock m.world).2 ∧
    m.Shift i job (.ended (.finished (job.work.leave m.clock m.world).1)) (m.complete i job) := by
  let n : Scheduler σ ρ := { m with world := (job.work.leave m.clock m.world).2 }
  have hn : n.Booked (some i) := ⟨h.entries, h.due, h.pending⟩
  have hr : Released n i job n.release := hn.release hi hs
  have he : m.complete i job =
      n.release.finish i job (.finished (job.work.leave m.clock m.world).1) := rfl
  rw [he]
  refine ⟨⟨hr.booked.finish hr.here _, hr.slots _ rfl⟩, hr.world, ?_⟩
  refine ⟨hr.settings, hr.clock, hr.threads, ?_, ?_, fun j other hj ho => ?_, ?_⟩
  · rw [finish_jobs, List.length_set]
    exact hr.length
  · rw [finish_jobs, getElem?_set_of_some hr.here, if_pos rfl]
  · rw [finish_jobs, getElem?_set_of_some hr.here, if_neg hj]
    exact hr.others j other hj ho
  · have hf := bound_finish hr.here (.finished (job.work.leave m.clock m.world).1)
    have hb : n.release.bound = m.bound := hr.bound
    omega

/-- A job that needs nothing but another phase and an entry. -/
theorem Booked.postpone {p : Phase ρ} {due : Nat} (h : m.Booked (some i))
    (hi : m.jobs[i]? = some job) (ho : job.phase.isOver = false) (hp : p.inQueue = 1)
    (he : p.entries + 1 ≤ job.phase.entries) (hd : m.clock ≤ due)
    (hs : SlotsFit (m.jobs.set i { job with phase := p }) m.settings.slots m.slots) :
    ((m.setJob i { job with phase := p }).schedule due i).Sound ∧
    m.Shift i job p ((m.setJob i { job with phase := p }).schedule due i) := by
  have hat : (m.setJob i { job with phase := p }).jobs[i]? = some { job with phase := p } := by
    rw [setJob_jobs, getElem?_set_of_some hi, if_pos rfl]
  have hover : p.isOver = false := by cases p <;> simp [Phase.inQueue, Phase.isOver] at hp ⊢
  refine ⟨⟨(h.setJob hi ho hover).schedule hat hp hd, hs⟩, rfl, rfl, rfl, by simp, hat,
    fun j other hj ho => .inl ?_, ?_⟩
  · rw [schedule_jobs, setJob_jobs, getElem?_set_of_some hi, if_neg hj, ho]
  · have hb := bound_setJob hi { job with phase := p }
    rw [bound_schedule]
    dsimp only at hb
    omega

theorem Booked.fire (h : m.Booked (some i)) (hi : m.jobs[i]? = some job) (hf : job.MayFire)
    (hs : SlotsFit (m.jobs.set i { job with phase := .running }) m.settings.slots m.slots) :
    ∃ p, m.Turn i job p (m.fire i job) := by
  let n : Scheduler σ ρ := { m with world := job.work.enter m.clock m.world }
  have hn : n.Booked (some i) := ⟨h.entries, h.due, h.pending⟩
  by_cases hd : job.work.span (job.work.enter m.clock m.world) = 0
  · have he : m.fire i job = n.complete i job := by simp only [Scheduler.fire, hd, ↓reduceIte, n]
    obtain ⟨hsound, hw, ht⟩ := hn.complete hi hs
    rw [he]
    refine ⟨_, ⟨ht.settings, ht.clock, ht.threads, ht.length, ht.moved, ht.others, ht.bound⟩,
      ?_, hsound⟩
    rw [hw]
    exact .passes hf hd
  · have he : m.fire i job = (n.setJob i { job with phase := .running }).schedule
        (m.clock + job.work.span (job.work.enter m.clock m.world)) i := by
      simp only [Scheduler.fire, hd, ↓reduceIte, n]
    have ho : job.phase.isOver = false := by
      rcases hf with ⟨hp, -⟩ | hp <;> rw [hp] <;> rfl
    have hb : 1 ≤ job.phase.entries := by
      rcases hf with ⟨hp, -⟩ | hp <;> simp [hp, Phase.entries]
    obtain ⟨hsound, ht⟩ := hn.postpone (p := .running) hi ho rfl hb (Nat.le_add_right _ _) hs
    rw [he]
    exact ⟨_, ⟨ht.settings, ht.clock, ht.threads, ht.length, ht.moved, ht.others, ht.bound⟩,
      .begins hf hd, hsound⟩

theorem Booked.acquire (h : m.Booked (some i)) (hi : m.jobs[i]? = some job)
    (hp : job.phase = .waiting) (hc : job.cancelled = false)
    (hs : SlotsFit m.jobs m.settings.slots m.slots) : ∃ p, m.Turn i job p (m.acquire i job) := by
  have hf : job.MayFire := .inl ⟨hp, hc⟩
  cases hm : m.slots with
  | none =>
    have he : m.acquire i job = m.fire i job := by simp only [Scheduler.acquire, hm]
    rw [hm] at hs
    rw [he]
    exact h.fire hi hf (hm ▸ hs.set_unbounded hi rfl)
  | some s =>
    obtain ⟨free, line⟩ := s
    rw [hm] at hs
    obtain ⟨b, hb, hfit⟩ := hs.of_some
    cases free with
    | zero =>
      have he : m.acquire i job = { m.setJob i { job with phase := .queued } with
          slots := some ⟨0, line ++ [i]⟩ } := by
        simp only [Scheduler.acquire, hm]
      have hat : (m.jobs.set i { job with phase := .queued })[i]? =
          some { job with phase := .queued } := by
        rw [getElem?_set_of_some hi, if_pos rfl]
      have hset : (m.setJob i { job with phase := .queued }).Booked (some i) :=
        h.setJob hi (by rw [hp]; rfl) rfl
      have hbk := hset.drop hat rfl
      have hbd := bound_setJob hi { job with phase := .queued }
      simp only [hp, Phase.entries] at hbd
      rw [he]
      refine ⟨_, ⟨rfl, rfl, rfl, by simp, hat, fun j other hj ho => .inl ?_, ?_⟩, .queues hp hc,
        ⟨hbk.entries, hbk.due, hbk.pending⟩, ?_⟩
      · rw [← ho]
        exact List.getElem?_set_ne (Ne.symm hj)
      · show (m.setJob i { job with phase := .queued }).bound ≤ m.bound
        omega
      · simp only [setJob_settings, hb]
        exact .bounded (hfit.lineUp hi (by rw [hp]; rfl) (by rw [hp]; rfl) rfl)
    | succ free =>
      let n : Scheduler σ ρ := { m with slots := some ⟨free, line⟩ }
      have hn : n.Booked (some i) := ⟨h.entries, h.due, h.pending⟩
      have he : m.acquire i job = n.fire i job := by simp only [Scheduler.acquire, hm, n]
      have hfit' : SlotsFit (n.jobs.set i { job with phase := .running }) n.settings.slots
          n.slots := by
        simp only [n, hb]
        exact .bounded (hfit.take hi (by rw [hp]; rfl) (by rw [hp]; rfl) rfl rfl)
      obtain ⟨p, ht⟩ := hn.fire hi hf hfit'
      rw [he]
      exact ⟨p, ⟨ht.settings, ht.clock, ht.threads, ht.length, ht.moved, ht.others, ht.bound⟩,
        ht.moves, ht.sound⟩

/-- A job that is over without having begun. -/
theorem Booked.quit {ending : Ending ρ} (h : m.Booked (some i)) (hi : m.jobs[i]? = some job)
    (he : job.phase.isEarly = true) (hs : SlotsFit m.jobs m.settings.slots m.slots)
    (hm : job.Moves m.clock m.world (.ended ending) m.world) :
    m.Turn i job (.ended ending) (m.finish i job ending) := by
  have hb := bound_finish hi ending
  have hsame : job.phase.holdsSlot = false ∧ job.phase.isQueued = false := by
    cases hp : job.phase <;> simp [hp, Phase.isEarly, Phase.holdsSlot, Phase.isQueued] at he ⊢
  refine ⟨⟨rfl, rfl, rfl, by simp, ?_, fun j other hj ho => .inl ?_, by omega⟩, hm,
    h.finish hi ending, ?_⟩
  · rw [finish_jobs, getElem?_set_of_some hi, if_pos rfl]
  · rw [finish_jobs, getElem?_set_of_some hi, if_neg hj, ho]
  · exact hs.set_same hi hsame.1.symm (fun _ => rfl) hsame.2.symm

theorem Booked.start (h : m.Booked (some i)) (hi : m.jobs[i]? = some job)
    (hp : job.phase = .unstarted) (hs : SlotsFit m.jobs m.settings.slots m.slots) :
    ∃ p, m.Turn i job p (m.start i job) := by
  have hearly : job.phase.isEarly = true := by rw [hp]; rfl
  by_cases hr : job.revoked = true
  · have he : m.start i job = m.finish i job .revoked := by
      simp only [Scheduler.start, hr, ↓reduceIte]
    rw [he]
    exact ⟨_, h.quit hi hearly hs (.revoked hp hr)⟩
  · by_cases hc : job.cancelled = true
    · have he : m.start i job = m.finish i job .calledOff := by
        simp only [Scheduler.start, Scheduler.callOff, hr, hc, ↓reduceIte, Bool.false_eq_true]
      rw [he]
      exact ⟨_, h.quit hi hearly hs (.calledOff hearly (fun _ => by simpa using hr) hc)⟩
    · have hr' : job.revoked = false := by simpa using hr
      have hc' : job.cancelled = false := by simpa using hc
      by_cases ho : job.overlong = true
      · have he : m.start i job = m.finish i job .lost := by
          simp only [Scheduler.start, hr, hc, ho, ↓reduceIte, Bool.false_eq_true]
        rw [he]
        exact ⟨_, h.quit hi hearly hs (.lost hp hr' hc' ho)⟩
      · have he : m.start i job = (m.setJob i { job with phase := .waiting }).schedule
            (m.clock + job.wait) i := by
          simp only [Scheduler.start, hr, hc, ho, ↓reduceIte, Bool.false_eq_true]
        have hw : SlotsFit (m.jobs.set i { job with phase := .waiting }) m.settings.slots
            m.slots := hs.set_same hi (by rw [hp]; rfl) (fun _ => rfl) (by rw [hp]; rfl)
        obtain ⟨hsound, ht⟩ := h.postpone (p := .waiting) hi (by rw [hp]; rfl) rfl
          (by simp [hp, Phase.entries]) (Nat.le_add_right _ _) hw
        rw [he]
        exact ⟨_, ht, .waits hp hr' hc' (by simpa using ho), hsound⟩

theorem Booked.resume (h : m.Booked (some i)) (hi : m.jobs[i]? = some job)
    (hp : job.phase.inQueue = 1) (hs : SlotsFit m.jobs m.settings.slots m.slots) :
    ∃ p, m.Turn i job p (m.resume i) := by
  simp only [Scheduler.resume, hi]
  cases hj : job.phase with
  | unstarted => exact h.start hi hj hs
  | waiting =>
    by_cases hc : job.cancelled = true
    · have hearly : job.phase.isEarly = true := by rw [hj]; rfl
      simp only [hc, ↓reduceIte]
      exact ⟨_, h.quit hi hearly hs (.calledOff hearly (by simp [hj]) hc)⟩
    · simp only [hc, ↓reduceIte, Bool.false_eq_true]
      exact h.acquire hi hj (by simpa using hc) hs
  | granted =>
    have hfit : SlotsFit (m.jobs.set i { job with phase := .running }) m.settings.slots m.slots :=
      hs.set_same hi (by rw [hj]; rfl) (fun _ => rfl) (by rw [hj]; rfl)
    exact h.fire hi (.inr hj) hfit
  | running =>
    have hfit : SlotsFit (m.jobs.set i { job with phase := .running }) m.settings.slots m.slots :=
      hs.set_same hi (by rw [hj]) (fun _ => rfl) (by rw [hj])
    obtain ⟨hsound, hw, ht⟩ := h.complete hi hfit
    exact ⟨_, ht, hw ▸ .ends hj, hsound⟩
  | queued => simp [hj, Phase.inQueue] at hp
  | ended _ => simp [hj, Phase.inQueue] at hp

/-- A step is the turn of the job of the next entry. -/
theorem Sound.step (h : m.Sound) (hq : m.queue ≠ []) : ∃ e job p, m.next? = some e ∧
    m.jobs[e.job]? = some job ∧ (m.taken e).Turn e.job job p m.step ∧ m.step.bound < m.bound := by
  obtain ⟨e, he⟩ := exists_next hq
  obtain ⟨hb, job, hi, hp⟩ := h.taken he
  obtain ⟨p, ht⟩ := hb.resume hi hp h.slots
  rw [step_eq he]
  have hlt := bound_taken (first?_mem he)
  have hle := ht.bound
  exact ⟨e, job, p, he, hi, ht, by omega⟩

end Scheduler

end Syndicate
