import Syndicate.Proofs.Scheduler.Progress

/-! Runs of a scheduler. Each operation keeps it sound, so every state that a new scheduler comes
to is. What the moves of a job, the grant of a slot and being told to stop keep of a job, every
run keeps of it. -/

namespace Syndicate

variable {σ ρ : Type}

/-- The job of work with a delay that has just been taken on: it is before its wait or in it, or it
is lost, since that is too long. -/
structure Job.IsNew (settings : Settings) (work : Work σ ρ) (delay : Int) (job : Job σ ρ) :
    Prop where
  work : job.work = work
  wait : settings.wait delay = .ok job.wait
  overlong : job.overlong = settings.isOverlong job.wait
  cancelled : job.cancelled = false
  revoked : job.revoked = false
  unstarted : job.phase = .unstarted → settings.deferStart = true
  waiting : job.phase = .waiting → job.overlong = false
  phase : job.phase.isEarly = true ∨ job.phase = .ended .lost ∧ job.overlong = true

theorem Job.IsNew.unfired {settings : Settings} {work : Work σ ρ} {delay : Int} {job : Job σ ρ}
    (h : job.IsNew settings work delay) : job.phase.hasFired = false := by
  rcases h.phase with he | ⟨hl, -⟩
  · exact Phase.hasFired_of_isEarly he
  · rw [hl]
    rfl

theorem Settings.wait_congr {s s' : Settings} (h : s.maxDelay = s'.maxDelay) (delay : Int) :
    s.wait delay = s'.wait delay := by
  have hcap : s.cap delay = s'.cap delay := by rw [Settings.cap, Settings.cap, h]
  rw [Settings.wait, Settings.wait, hcap]

/-- Whether a delay that can be given in seconds can be waited out as well. -/
def Settings.Fits (s : Settings) (delay : Int) : Prop :=
  ∀ wait, s.wait delay = .ok wait → s.isOverlong wait = false

theorem Settings.fits_iff {s : Settings} {delay : Int} {wait : Nat} (h : s.wait delay = .ok wait) :
    s.Fits delay ↔ s.isOverlong wait = false := by
  refine ⟨fun hd => hd _ h, fun ho other hw => ?_⟩
  obtain rfl : other = wait := Except.ok.inj (hw.symm.trans h)
  exact ho

theorem Job.IsNew.fits_iff {settings : Settings} {work : Work σ ρ} {delay : Int} {job : Job σ ρ}
    (h : job.IsNew settings work delay) : settings.Fits delay ↔ job.overlong = false := by
  rw [h.overlong]
  exact Settings.fits_iff h.wait

namespace Scheduler

variable {m n : Scheduler σ ρ} {i : Nat} {job new : Job σ ρ}

/-- A scheduler that has taken on no job yet. -/
def fresh (settings : Settings) (w : σ) : Scheduler σ ρ := { settings := settings, world := w }

theorem idle_fresh (settings : Settings) (w : σ) : (fresh settings w : Scheduler σ ρ).Idle :=
  ⟨rfl, by simp [fresh], rfl, rfl⟩

/-! ### Submitting -/

/-- A job in hand after the jobs there were. -/
def takeOn (m : Scheduler σ ρ) (job : Job σ ρ) : Scheduler σ ρ :=
  { m with
    jobs := m.jobs ++ [job], pending := m.pending ++ [m.jobs.length]
    threads := m.threads ++ [m.jobs.length] }

theorem submit_eq (m : Scheduler σ ρ) (work : Work σ ρ) (delay : Int) :
    m.submit work delay = match m.settings.wait delay with
      | .error f => .error f
      | .ok wait =>
        let job : Job σ ρ :=
          { work := work, wait := wait, overlong := m.settings.isOverlong wait }
        .ok (m.jobs.length, if m.settings.deferStart then
          (m.takeOn job).schedule m.clock m.jobs.length
        else if m.settings.isOverlong wait then (m.takeOn job).finish m.jobs.length job .lost
        else ((m.takeOn job).setJob m.jobs.length { job with phase := .waiting }).schedule
          (m.clock + wait) m.jobs.length) := by
  cases hw : m.settings.wait delay with
  | error f => simp only [submit, hw]; rfl
  | ok wait => simp only [submit, hw]; rfl

theorem getElem?_takeOn (m : Scheduler σ ρ) (job : Job σ ρ) (j : Nat) :
    (m.takeOn job).jobs[j]? = if j = m.jobs.length then some job else m.jobs[j]? := by
  simp only [takeOn, List.getElem?_append]
  by_cases hlt : j < m.jobs.length
  · simp [hlt, Nat.ne_of_lt hlt]
  · by_cases hj : j = m.jobs.length
    · simp [hj]
    · rw [if_neg hlt, if_neg hj, List.getElem?_eq_none (by simp; omega),
        List.getElem?_eq_none (by omega)]

theorem Booked.takeOn (h : m.Booked none) (ho : job.phase.isOver = false) :
    (m.takeOn job).Booked (some m.jobs.length) where
  entries j := by
    have he := h.entries j
    rw [show (m.takeOn job).queue = m.queue from rfl]
    simp only [wanted, getElem?_takeOn, Option.some.injEq, reduceCtorEq, ↓reduceIte] at he ⊢
    by_cases hj : j = m.jobs.length
    · subst hj; simpa using he
    · simpa [hj, Ne.symm hj] using he
  due := h.due
  pending j := by
    simp only [getElem?_takeOn]
    rw [show j ∈ (m.takeOn job).pending ↔ j ∈ m.pending ∨ j = m.jobs.length by
      simp [Scheduler.takeOn], h.pending j]
    by_cases hj : j = m.jobs.length
    · subst hj; simp [ho]
    · simp [hj]

/-- A new job comes after the jobs there were. -/
structure Took (m : Scheduler σ ρ) (work : Work σ ρ) (delay : Int) (n : Scheduler σ ρ) : Prop where
  jobs : ∃ job, job.IsNew m.settings work delay ∧ n.jobs = m.jobs ++ [job]
  settings : n.settings = m.settings
  clock : n.clock = m.clock
  world : n.world = m.world
  threads : n.threads = m.threads ++ [m.jobs.length]

theorem Sound.submit {work : Work σ ρ} {delay : Int} (h : m.Sound)
    (hs : m.submit work delay = .ok (i, n)) :
    n.Sound ∧ i = m.jobs.length ∧ m.Took work delay n := by
  rw [submit_eq] at hs
  cases hw : m.settings.wait delay with
  | error f => simp [hw] at hs
  | ok wait =>
    let job : Job σ ρ := { work := work, wait := wait, overlong := m.settings.isOverlong wait }
    have hbook : (m.takeOn job).Booked (some m.jobs.length) := h.booked.takeOn rfl
    have hfit : SlotsFit (m.takeOn job).jobs m.settings.slots m.slots := h.slots.append rfl rfl
    have hat : (m.takeOn job).jobs[m.jobs.length]? = some job := by
      rw [getElem?_takeOn, if_pos rfl]
    simp only [hw, Except.ok.injEq, Prod.mk.injEq] at hs
    obtain ⟨rfl, hn⟩ := hs
    split at hn
    · rename_i hdefer
      subst hn
      exact ⟨⟨hbook.schedule hat rfl (Nat.le_refl _), hfit⟩, rfl,
        ⟨job, ⟨rfl, hw, rfl, rfl, rfl, fun _ => hdefer, nofun, .inl rfl⟩, rfl⟩, rfl, rfl, rfl, rfl⟩
    split at hn
    · rename_i ho
      subst hn
      have hset : SlotsFit ((m.takeOn job).jobs.set m.jobs.length
          { job with phase := .ended .lost }) m.settings.slots m.slots :=
        hfit.set_same hat rfl (fun _ => rfl) rfl
      refine ⟨⟨hbook.finish hat .lost, hset⟩, rfl, ⟨{ job with phase := .ended .lost },
        ⟨rfl, hw, rfl, rfl, rfl, nofun, nofun, .inr ⟨rfl, ho⟩⟩, ?_⟩, rfl, rfl, rfl, rfl⟩
      simp [takeOn, job]
    · rename_i ho
      subst hn
      have hset : SlotsFit ((m.takeOn job).jobs.set m.jobs.length { job with phase := .waiting })
          m.settings.slots m.slots := hfit.set_same hat rfl (fun _ => rfl) rfl
      obtain ⟨hsound, -⟩ := hbook.postpone (p := .waiting) hat rfl rfl (Nat.le_refl 3)
        (Nat.le_add_right m.clock wait) hset
      refine ⟨hsound, rfl, ⟨{ job with phase := .waiting },
        ⟨rfl, hw, rfl, rfl, rfl, nofun, fun _ => eq_false_of_ne_true ho, .inl rfl⟩, ?_⟩,
        rfl, rfl, rfl, rfl⟩
      simp [takeOn, job]

/-! ### Being told to stop -/

/-- A job keeps its phase, whatever else becomes of it. -/
theorem Sound.setJob (h : m.Sound) (hi : m.jobs[i]? = some job) (hp : new.phase = job.phase) :
    (m.setJob i new).Sound where
  booked := by
    refine ⟨fun j => ?_, h.booked.due, fun j => ?_⟩
    · rw [wanted_set hi new, setJob_queue, h.booked.entries j]
      by_cases hj : j = i
      · subst hj; simp [wanted_of hi, hp]
      · simp [hj]
    · rw [setJob_pending, h.booked.pending j, setJob_jobs, getElem?_set_of_some hi]
      by_cases hj : j = i
      · subst hj; simp [hi, hp]
      · simp [hj]
  slots := h.slots.set_same hi (by rw [hp]) (by rw [hp]; exact id) (by rw [hp])

theorem Sound.hasten (h : m.Sound) (i : Nat) :
    ({ m with queue := m.queue.map (Entry.hasten m.clock i) } : Scheduler σ ρ).Sound where
  booked := by
    refine ⟨fun j => ?_, fun e he => ?_, h.booked.pending⟩
    · have hjob : ∀ e : Entry, (Entry.hasten m.clock i e).job = e.job := by
        intro e; simp only [Entry.hasten]; split <;> rfl
      have := h.booked.entries j
      show (m.queue.map (Entry.hasten m.clock i)).countP _ =
        if none = some j then 0 else m.wanted j
      simpa [List.countP_map, Function.comp_def, hjob] using this
    · obtain ⟨f, hf, rfl⟩ := List.mem_map.1 he
      have := h.booked.due f hf
      unfold Entry.hasten
      split
      · exact Nat.le_min.2 ⟨this, Nat.le_refl _⟩
      · exact this
  slots := h.slots

/-- Those of the named jobs that there are have been told to stop, and nothing else has changed. -/
structure Told (m : Scheduler σ ρ) (names : List Nat) (n : Scheduler σ ρ) : Prop where
  jobs : ∀ j : Nat, n.jobs[j]? = m.jobs[j]?.map fun job : Job σ ρ =>
    if j ∈ names then { job with cancelled := true } else job
  length : n.jobs.length = m.jobs.length
  settings : n.settings = m.settings
  clock : n.clock = m.clock
  world : n.world = m.world
  threads : n.threads = m.threads
  pending : n.pending = m.pending

theorem Sound.cancelJob (h : m.Sound) (i : Nat) :
    (m.cancelJob i).Sound ∧ m.Told [i] (m.cancelJob i) := by
  cases hi : m.jobs[i]? with
  | none =>
    have he : m.cancelJob i = m := by simp only [Scheduler.cancelJob, hi]
    rw [he]
    refine ⟨h, fun j => ?_, rfl, rfl, rfl, rfl, rfl, rfl⟩
    by_cases hj : j = i
    · subst hj; simp [hi]
    · simp [hj]
  | some job =>
    have hset : (m.setJob i { job with cancelled := true }).Sound := h.setJob hi rfl
    have hjobs : ∀ j, (m.setJob i { job with cancelled := true }).jobs[j]? =
        m.jobs[j]?.map fun job => if j ∈ [i] then { job with cancelled := true } else job := by
      intro j
      rw [setJob_jobs, getElem?_set_of_some hi]
      by_cases hj : j = i
      · subst hj; simp [hi]
      · simp [hj]
    have he : m.cancelJob i = m.setJob i { job with cancelled := true } ∨
        m.cancelJob i = { m.setJob i { job with cancelled := true } with
          queue := m.queue.map (Entry.hasten m.clock i) } := by
      simp only [Scheduler.cancelJob, hi]
      split
      · exact .inr rfl
      · exact .inl rfl
    rcases he with he | he <;> rw [he]
    · exact ⟨hset, hjobs, by simp, rfl, rfl, rfl, rfl, rfl⟩
    · exact ⟨hset.hasten i, hjobs, by simp, rfl, rfl, rfl, rfl, rfl⟩

theorem Sound.cancelJobs (h : m.Sound) (names : List Nat) :
    (names.foldl Scheduler.cancelJob m).Sound ∧
    m.Told names (names.foldl Scheduler.cancelJob m) := by
  induction names generalizing m with
  | nil => exact ⟨h, by simp, rfl, rfl, rfl, rfl, rfl, rfl⟩
  | cons i names ih =>
    obtain ⟨hs, ht⟩ := h.cancelJob i
    obtain ⟨hs', ht'⟩ := ih hs
    refine ⟨hs', fun j => ?_, ht'.length.trans ht.length, ht'.settings.trans ht.settings,
      ht'.clock.trans ht.clock, ht'.world.trans ht.world, ht'.threads.trans ht.threads,
      ht'.pending.trans ht.pending⟩
    rw [List.foldl_cons, ht'.jobs, ht.jobs, Option.map_map]
    congr 1
    funext job
    by_cases hi : j = i <;> by_cases hn : j ∈ names <;> simp [hi, hn]

/-- The named jobs that are not over are told to stop. -/
theorem Sound.cancel (h : m.Sound) (names : List Nat) : (m.cancel names).Sound ∧
    m.Told (names.filter m.pending.contains) (m.cancel names) :=
  h.cancelJobs _

theorem Sound.cancelAll (h : m.Sound) : m.cancelAll.Sound ∧ m.Told m.pending m.cancelAll :=
  h.cancelJobs _

/-! ### Time -/

/-- After a time has passed nothing of it is left to do. -/
theorem Sound.advance (h : m.Sound) (t : Nat) : (m.advance t).Sound where
  booked := by
    have hs := h.runWhile (isDueBy (m.clock + t))
    refine ⟨hs.booked.entries, fun e he => ?_, hs.booked.pending⟩
    rcases h.runWhile_stops (isDueBy (m.clock + t)) with hstop | hq
    · obtain ⟨f, hf⟩ := exists_next (m := m.runWhile (isDueBy (m.clock + t)))
        (List.ne_nil_of_mem he)
      have hle := first?_due_le hf e he
      simp only [isDueBy, hf, Option.any_some, decide_eq_false_iff_not] at hstop
      show m.clock + t ≤ e.due
      omega
    · have : e ∈ (m.runWhile (isDueBy (m.clock + t))).queue := he
      simp [hq] at this
  slots := (h.runWhile _).slots

theorem Sound.of_eq (h : m.Sound) (hq : n.queue = m.queue) (hj : n.jobs = m.jobs)
    (hc : n.clock = m.clock) (hp : n.pending = m.pending) (hs : n.settings = m.settings)
    (hl : n.slots = m.slots) : n.Sound where
  booked := by
    refine ⟨fun j => ?_, ?_, ?_⟩
    · rw [hq, wanted_congr hj]; exact h.booked.entries j
    · rw [hq, hc]; exact h.booked.due
    · rw [hp, hj]; exact h.booked.pending
  slots := by rw [hj, hs, hl]; exact h.slots

theorem Sound.unthreaded (h : m.Sound) : ({ m with threads := [] } : Scheduler σ ρ).Sound :=
  h.of_eq rfl rfl rfl rfl rfl rfl

theorem Sound.inWorld (h : m.Sound) (w : σ) : ({ m with world := w } : Scheduler σ ρ).Sound :=
  h.of_eq rfl rfl rfl rfl rfl rfl

theorem Sound.close (h : m.Sound) : m.close.Sound :=
  close_induct (fun _ h _ => h.of_step) h.unthreaded

/-! ### Operations -/

/-- What can be asked of a scheduler; a step, and the world being acted on from outside, may come at
any time. -/
inductive Op (σ ρ : Type) where
  | submit (work : Work σ ρ) (delay : Int)
  | cancel (names : List Nat)
  | cancelAll
  | step
  | advance (time : Nat)
  | waitAll (names : List Nat)
  | close
  | act (f : σ → σ)

/-- A job that is refused leaves the scheduler as it was. -/
def orSame (m : Scheduler σ ρ) : Outcome (Nat × Scheduler σ ρ) → Scheduler σ ρ
  | .ok (_, n) => n
  | .error _ => m

def perform (m : Scheduler σ ρ) : Op σ ρ → Scheduler σ ρ
  | .submit work delay => m.orSame (m.submit work delay)
  | .cancel names => m.cancel names
  | .cancelAll => m.cancelAll
  | .step => m.step
  | .advance time => m.advance time
  | .waitAll names => m.waitAll names
  | .close => m.close
  | .act f => { m with world := f m.world }

def run (m : Scheduler σ ρ) (ops : List (Op σ ρ)) : Scheduler σ ρ := ops.foldl perform m

theorem perform_submit_error {work : Work σ ρ} {delay : Int} {f : Failure}
    (h : m.submit work delay = .error f) : m.perform (.submit work delay) = m := by
  rw [perform, h, orSame]

theorem perform_submit_ok {work : Work σ ρ} {delay : Int} (h : m.submit work delay = .ok (i, n)) :
    m.perform (.submit work delay) = n := by
  rw [perform, h, orSame]

theorem Sound.perform (h : m.Sound) (op : Op σ ρ) : (m.perform op).Sound := by
  cases op with
  | submit work delay =>
    cases hs : m.submit work delay with
    | error f => rwa [perform_submit_error hs]
    | ok r => rw [perform_submit_ok hs]; exact (h.submit hs).1
  | cancel names => exact (h.cancel names).1
  | cancelAll => exact h.cancelAll.1
  | step => exact h.of_step
  | advance time => exact h.advance time
  | waitAll names => exact h.runWhile _
  | close => exact h.close
  | act f => exact h.inWorld _

/-- Every state that a sound scheduler comes to is sound. -/
theorem Sound.run (h : m.Sound) (ops : List (Op σ ρ)) : (m.run ops).Sound := by
  induction ops generalizing m with
  | nil => exact h
  | cons op ops ih => exact ih (h.perform op)

/-! ### What is kept of a scheduler -/

/-- Nothing has become of the jobs and the world, whatever the clock shows and whoever is waited
for. -/
structure Still (m n : Scheduler σ ρ) : Prop where
  sound : n.Sound
  jobs : n.jobs = m.jobs
  pending : n.pending = m.pending
  settings : n.settings = m.settings
  world : n.world = m.world

/-- A property of schedulers that neither time nor being told to stop takes away. -/
structure Persists (P : Scheduler σ ρ → Prop) : Prop where
  sound : ∀ {m : Scheduler σ ρ}, P m → m.Sound
  step : ∀ {m : Scheduler σ ρ}, P m → P m.step
  told : ∀ {m n : Scheduler σ ρ} {names : List Nat}, P m → n.Sound → m.Told names n → P n
  still : ∀ {m n : Scheduler σ ρ}, P m → m.Still n → P n

namespace Persists

variable {P : Scheduler σ ρ → Prop} (hP : Persists P)
include hP

theorem runWhile (h : P m) (go : Scheduler σ ρ → Bool) : P (m.runWhile go) :=
  runWhile_induct (fun _ h _ => hP.step h) go h

theorem advance (h : P m) (time : Nat) : P (m.advance time) :=
  hP.still (hP.runWhile h _) ⟨(hP.sound h).advance time, rfl, rfl, rfl, rfl⟩

theorem close (h : P m) : P m.close :=
  close_induct (fun _ h _ => hP.step h) (hP.still h ⟨(hP.sound h).unthreaded, rfl, rfl, rfl, rfl⟩)

/-- It lasts whatever is asked, if a new job and a change of the world from outside leave it. -/
theorem perform (h : P m) {op : Op σ ρ}
    (hsubmit : ∀ {work : Work σ ρ} {delay : Int} {i : Nat} {n : Scheduler σ ρ},
      op = .submit work delay → m.submit work delay = .ok (i, n) → P n)
    (hact : ∀ {f : σ → σ}, op = .act f → P { m with world := f m.world }) : P (m.perform op) := by
  have hm := hP.sound h
  cases op with
  | submit work delay =>
    cases hs : m.submit work delay with
    | error f => rwa [perform_submit_error hs]
    | ok r => rw [perform_submit_ok hs]; exact hsubmit rfl hs
  | cancel names => exact hP.told h (hm.cancel names).1 (hm.cancel names).2
  | cancelAll => exact hP.told h hm.cancelAll.1 hm.cancelAll.2
  | step => exact hP.step h
  | advance time => exact hP.advance h time
  | waitAll names => exact hP.runWhile h _
  | close => exact hP.close h
  | act f => exact hact rfl

end Persists

/-! ### What is kept of a job -/

/-- A property of jobs that the passing of time does not take away. -/
structure Steady (Q : Job σ ρ → Prop) : Prop where
  moves : ∀ {clock : Nat} {job : Job σ ρ} {w w' : σ} {p : Phase ρ}, Q job →
    job.Moves clock w p w' → Q { job with phase := p }
  granted : ∀ {job : Job σ ρ}, Q job → job.phase = .queued → Q { job with phase := .granted }

/-- A property of jobs that being told to stop does not take away either. -/
structure Kept (Q : Job σ ρ → Prop) : Prop extends Steady Q where
  told : ∀ {job : Job σ ρ}, Q job → Q { job with cancelled := true }

/-- The job at a place has a property. -/
def Holds (Q : Job σ ρ → Prop) (i : Nat) (m : Scheduler σ ρ) : Prop :=
  ∃ job, m.jobs[i]? = some job ∧ Q job

variable {Q : Job σ ρ → Prop}

theorem Holds.of_getElem? (h : Holds Q i m) (hi : m.jobs[i]? = some job) : Q job := by
  obtain ⟨other, ho, hq⟩ := h
  rw [hi] at ho
  cases ho
  exact hq

theorem Steady.turn {p : Phase ρ} {k : Nat} (hQ : Steady Q) (ht : m.Turn k job p n)
    (hk : m.jobs[k]? = some job) (h : Holds Q i m) : Holds Q i n := by
  by_cases hik : i = k
  · subst hik
    exact ⟨_, ht.moved, hQ.moves (h.of_getElem? hk) ht.moves⟩
  · obtain ⟨other, hi, hother⟩ := h
    rcases ht.others i other hik hi with hn | ⟨hq, hn⟩
    · exact ⟨_, hn, hother⟩
    · exact ⟨_, hn, hQ.granted hother hq⟩

theorem Steady.step (hQ : Steady Q) (hm : m.Sound) (h : Holds Q i m) : Holds Q i m.step := by
  by_cases hq : m.queue = []
  · rwa [step_of_queue_nil hq]
  · obtain ⟨e, job, p, -, hj, ht, -⟩ := hm.step hq
    exact hQ.turn ht hj h

theorem Steady.sound_step (hQ : Steady Q) (m : Scheduler σ ρ) (h : m.Sound ∧ Holds Q i m)
    (_ : m.queue ≠ []) : m.step.Sound ∧ Holds Q i m.step :=
  ⟨h.1.of_step, hQ.step h.1 h.2⟩

theorem Steady.runWhile (hQ : Steady Q) (hm : m.Sound) (h : Holds Q i m)
    (go : Scheduler σ ρ → Bool) : Holds Q i (m.runWhile go) :=
  (runWhile_induct hQ.sound_step go ⟨hm, h⟩).2

theorem Steady.waitAll (hQ : Steady Q) (hm : m.Sound) (h : Holds Q i m) (names : List Nat) :
    Holds Q i (m.waitAll names) :=
  hQ.runWhile hm h _

theorem Steady.joins (hQ : Steady Q) (hm : m.Sound) (h : Holds Q i m) (names : List Nat) :
    Holds Q i (names.foldl Scheduler.join m) :=
  (joins_induct hQ.sound_step names ⟨hm, h⟩).2

theorem Steady.close (hQ : Steady Q) (hm : m.Sound) (h : Holds Q i m) : Holds Q i m.close :=
  (close_induct hQ.sound_step ⟨hm.unthreaded, h⟩).2

theorem Told.holds {names : List Nat} (ht : m.Told names n)
    (hQ : ∀ job, Q job → Q { job with cancelled := true }) (h : Holds Q i m) : Holds Q i n := by
  obtain ⟨job, hi, hj⟩ := h
  have hn := ht.jobs i
  rw [hi, Option.map_some] at hn
  refine ⟨_, hn, ?_⟩
  split
  · exact hQ job hj
  · exact hj

theorem Kept.told_of (hQ : Kept Q) {names : List Nat} (ht : m.Told names n) (h : Holds Q i m) :
    Holds Q i n :=
  ht.holds (fun _ hj => hQ.told hj) h

theorem Took.getElem? {work : Work σ ρ} {delay : Int} (ht : m.Took work delay n)
    (hi : m.jobs[i]? = some job) : n.jobs[i]? = some job := by
  obtain ⟨new, -, hn⟩ := ht.jobs
  rw [hn, List.getElem?_append_left (List.getElem?_eq_some_iff.1 hi).1, hi]

theorem Holds.congr (h : Holds Q i m) (hj : n.jobs = m.jobs) : Holds Q i n := by
  rwa [Holds, hj]

theorem Kept.persists (hQ : Kept Q) (i : Nat) :
    Persists fun m : Scheduler σ ρ => m.Sound ∧ Holds Q i m where
  sound h := h.1
  step h := ⟨h.1.of_step, hQ.step h.1 h.2⟩
  told h hn ht := ⟨hn, hQ.told_of ht h.2⟩
  still h hs := ⟨hs.sound, h.2.congr hs.jobs⟩

theorem Kept.perform (hQ : Kept Q) (hm : m.Sound) (h : Holds Q i m) (op : Op σ ρ) :
    Holds Q i (m.perform op) := by
  refine ((hQ.persists i).perform ⟨hm, h⟩ (fun _ hs => ?_) fun _ => ⟨hm.inWorld _, h⟩).2
  obtain ⟨hn, -, ht⟩ := hm.submit hs
  obtain ⟨job, hi, hj⟩ := h
  exact ⟨hn, job, ht.getElem? hi, hj⟩

/-- What is kept of a job holds of it in every state to come. -/
theorem Kept.run (hQ : Kept Q) (hm : m.Sound) (h : Holds Q i m) (ops : List (Op σ ρ)) :
    Holds Q i (m.run ops) := by
  induction ops generalizing m with
  | nil => exact h
  | cons op ops ih => exact ih (hm.perform op) (hQ.perform hm h op)

/-! ### What is kept of all jobs -/

/-- A scheduler some time later, with the jobs and the settings that it had. -/
structure Aged (m n : Scheduler σ ρ) : Prop where
  sound : n.Sound
  length : n.jobs.length = m.jobs.length
  threads : n.threads = m.threads
  settings : n.settings = m.settings

theorem Aged.step (h : m.Aged n) : m.Aged n.step := by
  by_cases hq : n.queue = []
  · rwa [step_of_queue_nil hq]
  · obtain ⟨_, _, _, _, _, ht, _⟩ := h.sound.step hq
    exact ⟨ht.sound, ht.length.trans h.length, ht.threads.trans h.threads,
      ht.settings.trans h.settings⟩

theorem Sound.aged_runWhile (h : m.Sound) (go : Scheduler σ ρ → Bool) : m.Aged (m.runWhile go) :=
  runWhile_induct (fun _ h _ => h.step) go ⟨h, rfl, rfl, rfl⟩

theorem persists_length (k : Nat) :
    Persists fun m : Scheduler σ ρ => m.Sound ∧ m.jobs.length = k where
  sound h := h.1
  step {m} h := by
    have haged : m.Aged m.step := Aged.step ⟨h.1, rfl, rfl, rfl⟩
    exact ⟨haged.sound, haged.length.trans h.2⟩
  told h hn ht := ⟨hn, ht.length.trans h.2⟩
  still h hs := ⟨hs.sound, (congrArg List.length hs.jobs).trans h.2⟩

theorem Sound.length_close (h : m.Sound) : m.close.jobs.length = m.jobs.length :=
  ((persists_length _).close ⟨h, rfl⟩).2

theorem Took.length {work : Work σ ρ} {delay : Int} (ht : m.Took work delay n) :
    n.jobs.length = m.jobs.length + 1 := by
  obtain ⟨_, -, hn⟩ := ht.jobs
  rw [hn, List.length_append, List.length_singleton]

def Op.submits : Op σ ρ → Bool
  | .submit _ _ => true
  | _ => false

theorem Sound.length_perform (h : m.Sound) {op : Op σ ρ} (hop : op.submits = false) :
    (m.perform op).jobs.length = m.jobs.length := by
  refine ((persists_length _).perform ⟨h, rfl⟩ (fun he _ => ?_) fun _ => ⟨h.inWorld _, rfl⟩).2
  rw [he] at hop
  cases hop

/-- An operation takes on one job or none. -/
theorem Sound.perform_took (h : m.Sound) (op : Op σ ρ) :
    (m.perform op).jobs.length = m.jobs.length ∨
    ∃ work delay, m.Took work delay (m.perform op) := by
  cases op with
  | submit work delay =>
    cases hs : m.submit work delay with
    | error f => exact .inl (by rw [perform_submit_error hs])
    | ok r => exact .inr ⟨work, delay, by rw [perform_submit_ok hs]; exact (h.submit hs).2.2⟩
  | _ => exact .inl (h.length_perform rfl)

/-- What new jobs have and is kept of a job holds of all jobs after an operation. -/
theorem Kept.perform_all (hQ : Kept Q)
    (hnew : ∀ work delay job, job.IsNew m.settings work delay → Q job)
    (hm : m.Sound) (h : ∀ i < m.jobs.length, Holds Q i m) (op : Op σ ρ) :
    ∀ i < (m.perform op).jobs.length, Holds Q i (m.perform op) := by
  intro i hi
  by_cases hlt : i < m.jobs.length
  · exact hQ.perform hm (h i hlt) op
  · rcases hm.perform_took op with hl | ⟨work, delay, ht⟩
    · omega
    · obtain ⟨job, hj, hn⟩ := ht.jobs
      have hlen := ht.length
      obtain rfl : i = m.jobs.length := by omega
      exact ⟨job, by rw [hn]; simp, hnew work delay job hj⟩

/-- What new jobs have and is kept of a job holds of all jobs in every state to come. -/
theorem Kept.run_all (hQ : Kept Q)
    (hnew : ∀ settings work delay job, job.IsNew settings work delay → Q job)
    (hm : m.Sound) (h : ∀ i < m.jobs.length, Holds Q i m) (ops : List (Op σ ρ)) :
    ∀ i < (m.run ops).jobs.length, Holds Q i (m.run ops) := by
  induction ops generalizing m with
  | nil => exact h
  | cons op ops ih => exact ih (hm.perform op) (hQ.perform_all (hnew _) hm h op)

/-! ### Runs without new jobs -/

theorem Sound.length_run (h : m.Sound) {ops : List (Op σ ρ)}
    (hops : ∀ op ∈ ops, op.submits = false) : (m.run ops).jobs.length = m.jobs.length := by
  induction ops generalizing m with
  | nil => rfl
  | cons op ops ih =>
    have hrest := ih (h.perform op) fun o ho => hops o (List.mem_cons_of_mem _ ho)
    exact hrest.trans (h.length_perform (hops op List.mem_cons_self))

theorem kept_over : Kept fun job : Job σ ρ => job.phase.isOver = true where
  moves {clock job w w' p} h hm := by
    cases hp : job.phase <;> simp [hp, Phase.isOver] at h
    cases hm <;> simp_all [Job.MayFire, Phase.isEarly]
  granted {job} h hq := by simp [hq, Phase.isOver] at h
  told h := h

theorem Sound.idle_of_over (h : m.Sound) (ho : ∀ job ∈ m.jobs, job.phase.isOver = true) :
    m.Idle := by
  refine h.idle ?_
  by_contra hq
  obtain ⟨e, he⟩ := exists_next hq
  obtain ⟨-, job, hj, hin⟩ := h.taken he
  rw [Phase.inQueue_of_isOver (ho job (List.mem_of_getElem? hj))] at hin
  cases hin

/-- Without new jobs an idle scheduler stays idle. -/
theorem Idle.run (h : m.Idle) {ops : List (Op σ ρ)} (hops : ∀ op ∈ ops, op.submits = false) :
    (m.run ops).Idle := by
  refine (h.sound.run ops).idle_of_over fun job hj => ?_
  obtain ⟨i, hi⟩ := List.mem_iff_getElem?.1 hj
  have hlt : i < m.jobs.length := by
    rw [← h.sound.length_run hops]
    exact (List.getElem?_eq_some_iff.1 hi).1
  have hover : Holds (fun job => job.phase.isOver = true) i m :=
    ⟨m.jobs[i], List.getElem?_eq_getElem hlt, h.ended _ (List.getElem_mem hlt)⟩
  exact (kept_over.run h.sound hover ops).of_getElem? hi

/-- Closing ends with every job over that it waits for. -/
theorem Sound.joins_over (h : m.Sound) (names : List Nat) (hi : i ∈ names)
    (hlt : i < m.jobs.length) :
    Holds (fun job => job.phase.isOver = true) i (names.foldl Scheduler.join m) := by
  induction names generalizing m with
  | nil => simp at hi
  | cons j names ih =>
    have hlt' : i < (m.join j).jobs.length := by
      rw [Scheduler.join, (h.aged_runWhile _).length]
      exact hlt
    rcases List.mem_cons.1 hi with rfl | hi
    · have hat := List.getElem?_eq_getElem hlt'
      refine kept_over.joins (h.runWhile _) ⟨_, hat, ?_⟩ names
      rcases h.runWhile_stops fun m => !m.hasEnded i with hstop | hq
      · have hgo : (!(m.join i).hasEnded i) = false := hstop
        rw [Bool.not_eq_false'] at hgo
        exact hasEnded_iff.1 hgo _ hat
      · exact ((h.runWhile _).idle hq).ended _ (List.getElem_mem hlt')
    · exact ih (h.runWhile _) hi hlt'

theorem Sound.close_over (h : m.Sound) (hi : i ∈ m.threads) (hlt : i < m.jobs.length) :
    Holds (fun job => job.phase.isOver = true) i m.close :=
  h.unthreaded.joins_over m.threads hi hlt

/-- Every job that there is is over or waited for. -/
def Threaded (m : Scheduler σ ρ) : Prop := ∀ k < m.jobs.length,
  k ∈ m.threads ∨ Holds (fun job => job.phase.isOver = true) k m

/-- Closing leaves a scheduler idle when every job is over or waited for. -/
theorem idle_close (hm : m.Sound) (h : Threaded m) : m.close.Idle := by
  refine hm.close.idle_of_over fun job hmem => ?_
  obtain ⟨k, hk⟩ := List.mem_iff_getElem?.1 hmem
  have hlt := (List.getElem?_eq_some_iff.1 hk).1
  rw [hm.length_close] at hlt
  rcases h k hlt with hthread | hover
  · exact (hm.close_over hthread hlt).of_getElem? hk
  · exact (kept_over.close hm hover).of_getElem? hk

theorem Threaded.of_kept (h : Threaded m)
    (hlen : n.jobs.length = m.jobs.length) (ht : n.threads = m.threads)
    (hk : ∀ k, Holds (fun job => job.phase.isOver = true) k m →
      Holds (fun job => job.phase.isOver = true) k n) : Threaded n := by
  intro k hlt
  rcases h k (hlen ▸ hlt) with hthread | hover
  · exact .inl (ht ▸ hthread)
  · exact .inr (hk k hover)

theorem Idle.threaded (h : m.Idle) : Threaded m := fun _ hk =>
  .inr ⟨_, List.getElem?_eq_getElem hk, h.ended _ (List.getElem_mem hk)⟩

/-- A new scheduler takes the place of one that is idle. -/
theorem Idle.renew (h : m.Idle) (settings : Settings) : (m.renew settings).Idle :=
  ⟨h.queue, h.ended, rfl, rfl⟩

end Scheduler

end Syndicate
