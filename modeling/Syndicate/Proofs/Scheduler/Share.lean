import Syndicate.Proofs.Scheduler.Calls

/-! How a bound on slots is kept. The slots that are free and the jobs that were granted one or are
at work always add up to the bound, so no job that waits out its delay holds one; and of the calls
that have begun, no more than the bound are open at any time. -/

namespace Syndicate

variable {σ ρ : Type}

def Note.isBegun : Note ρ → Bool
  | .begins _ _ => true
  | .ends _ _ _ => false

def Phase.isRunning : Phase ρ → Bool
  | .running => true
  | _ => false

theorem Phase.isRunning_of_unfired {p : Phase ρ} (h : p.hasFired = false) :
    p.isRunning = false := by
  cases p <;> simp [hasFired, isRunning] at h ⊢

theorem Phase.holdsSlot_of_isRunning {p : Phase ρ} (h : p.isRunning = true) :
    p.holdsSlot = true := by
  cases p <;> simp [isRunning, holdsSlot] at h ⊢

namespace Scheduler

variable {m n : Scheduler σ ρ} {i k : Nat} {job : Job σ ρ}

theorem slots_of_bound {s : Settings} (h : s.maxConcurrency = some k) (hk : 1 ≤ k) :
    s.slots = some ⟨k, []⟩ := by
  unfold Settings.slots
  rw [h]
  cases k with
  | zero => omega
  | succ k => rfl

/-- Under a bound there are slots, and they fit it. -/
theorem Sound.fit (h : m.Sound) (hs : m.settings.slots = some ⟨k, []⟩) :
    ∃ s, m.slots = some s ∧ s.Fit k m.jobs := by
  have hfit := h.slots
  rw [hs] at hfit
  cases hm : m.slots with
  | none =>
    rw [hm] at hfit
    cases hfit.of_none.1
  | some s =>
    rw [hm] at hfit
    obtain ⟨b, hb, hf⟩ := hfit.of_some
    cases hb
    exact ⟨s, rfl, hf⟩

/-! ### Jobs at work -/

/-- How many jobs are in certain phases. -/
def tally (q : Phase ρ → Bool) (m : Scheduler σ ρ) : Nat :=
  m.jobs.countP fun job => q job.phase

theorem tally_congr {q : Phase ρ → Bool} {jobs jobs' : List (Job σ ρ)}
    (h : ∀ j : Nat, jobs'[j]?.map (fun job => q job.phase) = jobs[j]?.map fun job => q job.phase) :
    (jobs'.countP fun job => q job.phase) = jobs.countP fun job => q job.phase := by
  have hmap : jobs'.map (fun job => q job.phase) = jobs.map fun job => q job.phase := by
    apply List.ext_getElem?
    intro j
    rw [List.getElem?_map, List.getElem?_map, h]
  have hcount : ∀ jobs : List (Job σ ρ), (jobs.countP fun job => q job.phase) =
      (jobs.map fun job => q job.phase).countP id := fun jobs => by
    rw [List.countP_map]
    rfl
  rw [hcount, hcount, hmap]

/-- A turn changes a tally by the job in hand alone, if it does not tell who is in line from who
was granted a slot. -/
theorem Turn.tally {q : Phase ρ → Bool} {p : Phase ρ} (hq : q .queued = q .granted)
    (ht : m.Turn i job p n) (hi : m.jobs[i]? = some job) :
    n.tally q + (q job.phase).toNat = m.tally q + (q p).toNat := by
  have hsame : n.tally q = (m.jobs.set i { job with phase := p }).countP fun job => q job.phase := by
    apply tally_congr
    intro j
    rw [getElem?_set_of_some hi]
    by_cases hj : j = i
    · subst hj
      rw [if_pos rfl, ht.moved]
    · rw [if_neg hj]
      cases hm : m.jobs[j]? with
      | none =>
        have hn : n.jobs[j]? = none := by
          rw [List.getElem?_eq_none_iff, ht.length]
          exact List.getElem?_eq_none_iff.1 hm
        rw [hn]
      | some other =>
        rcases ht.others j other hj hm with hn | ⟨hqueued, hn⟩
        · rw [hn]
        · rw [hn, Option.map_some, Option.map_some, hqueued, hq]
  rw [hsame]
  exact countP_set_add (fun job : Job σ ρ => q job.phase) hi { job with phase := p }

theorem Told.tally {names : List Nat} (ht : m.Told names n) (q : Phase ρ → Bool) :
    n.tally q = m.tally q := by
  apply tally_congr
  intro j
  rw [ht.jobs, Option.map_map]
  congr 1
  funext job
  by_cases hj : j ∈ names <;> simp [hj]

theorem Took.tally {work : Work σ ρ} {delay : Int} {q : Phase ρ → Bool}
    (ht : m.Took work delay n) (hq : ∀ p : Phase ρ, p.hasFired = false → q p = false) :
    n.tally q = m.tally q := by
  obtain ⟨job, hnew, hjobs⟩ := ht.jobs
  rw [Scheduler.tally, hjobs, List.countP_append, Scheduler.tally]
  simp [hq _ hnew.unfired]

theorem tally_le {q r : Phase ρ → Bool} (h : ∀ p, q p = true → r p = true) (m : Scheduler σ ρ) :
    m.tally q ≤ m.tally r :=
  List.countP_mono_left fun job _ hj => h job.phase hj

/-- With no slot free a job that is past its delay is put in line. -/
theorem resume_full {line : List Nat} (hi : m.jobs[i]? = some job) (hp : job.phase = .waiting)
    (hc : job.cancelled = false) (hs : m.slots = some ⟨0, line⟩) :
    (m.resume i).jobs[i]? = some { job with phase := .queued } := by
  simp only [resume, hi, hp, hc, acquire, hs, Bool.false_eq_true, ↓reduceIte, setJob_jobs]
  rw [getElem?_set_of_some hi, if_pos rfl]

/-- A job fires only while fewer jobs are at work than there are slots. -/
theorem Sound.room {e : Entry} {p : Phase ρ} (h : m.Sound)
    (hs : m.settings.slots = some ⟨k, []⟩) (he : m.next? = some e)
    (hj : m.jobs[e.job]? = some job) (ht : (m.taken e).Turn e.job job p m.step)
    (hf : job.MayFire) (hp : p.isQueued = false) : m.tally Phase.isRunning < k := by
  obtain ⟨s, hm, hfit⟩ := h.fit hs
  have hle : m.tally Phase.isRunning ≤ m.tally Phase.holdsSlot :=
    tally_le (fun _ => Phase.holdsSlot_of_isRunning) m
  have hheld : s.free + m.tally Phase.holdsSlot = k := hfit.held
  rcases hf with ⟨hw, hc⟩ | hg
  · -- It takes a slot that is free, or it would be in line.
    have hfree : s.free ≠ 0 := by
      intro h0
      have hslots : (m.taken e).slots = some ⟨0, s.line⟩ := by rw [← h0]; exact hm
      have hline := resume_full (m := m.taken e) hj hw hc hslots
      rw [← step_eq he, ht.moved] at hline
      cases hline
      simp [Phase.isQueued] at hp
    omega
  · -- It holds a slot, and is not at work yet.
    let jobs := m.jobs.set e.job { job with phase := .running }
    have hrunning : (jobs.countP fun job => job.phase.isRunning) =
        m.tally Phase.isRunning + 1 := by
      have hset := countP_set_add (fun job : Job σ ρ => job.phase.isRunning) hj
        { job with phase := .running }
      rwa [hg] at hset
    have hholds : (jobs.countP fun job => job.phase.holdsSlot) + 1 =
        m.tally Phase.holdsSlot + 1 := by
      have hset := countP_set_add (fun job : Job σ ρ => job.phase.holdsSlot) hj
        { job with phase := .running }
      rwa [hg] at hset
    have hmono : (jobs.countP fun job => job.phase.isRunning) ≤
        jobs.countP fun job => job.phase.holdsSlot :=
      List.countP_mono_left fun job _ hj => Phase.holdsSlot_of_isRunning hj
    omega

/-! ### Calls that are open -/

def begun (calls : List (Note ρ)) : Nat := calls.countP Note.isBegun

def ended (calls : List (Note ρ)) : Nat := calls.countP fun c => !c.isBegun

/-- At no time were more calls open than a number. -/
def Within (k : Nat) (calls : List (Note ρ)) : Prop :=
  ∀ past, past <+: calls → begun past ≤ ended past + k

section Within

variable {calls : List (Note ρ)} {c : Note ρ}

theorem begun_begins (i t : Nat) : begun (calls ++ [.begins i t]) = begun calls + 1 := by
  rw [begun, List.countP_append, begun]
  rfl

theorem ended_begins (i t : Nat) : ended (calls ++ [.begins i t]) = ended calls := by
  rw [ended, List.countP_append, ended]
  rfl

theorem begun_ends (i t : Nat) (r : Outcome ρ) : begun (calls ++ [.ends i t r]) = begun calls := by
  rw [begun, List.countP_append, begun]
  rfl

theorem ended_ends (i t : Nat) (r : Outcome ρ) :
    ended (calls ++ [.ends i t r]) = ended calls + 1 := by
  rw [ended, List.countP_append, ended]
  rfl

theorem Within.concat (h : Within k calls)
    (hc : begun (calls ++ [c]) ≤ ended (calls ++ [c]) + k) : Within k (calls ++ [c]) := by
  intro past hpast
  rcases List.prefix_concat_iff.1 hpast with rfl | hpast
  · exact hc
  · exact h past hpast

end Within

/-- The calls that are open are those of the jobs at work, and at no time were more open than there
are slots. -/
structure Sharing (k : Nat) (n : Scheduler (σ × List (Note ρ)) ρ) : Prop where
  numbered : Numbered n
  slots : n.settings.slots = some ⟨k, []⟩
  running : begun n.world.2 = ended n.world.2 + n.tally Phase.isRunning
  within : Within k n.world.2

namespace Sharing

variable {n n' : Scheduler (σ × List (Note ρ)) ρ}

theorem step (h : Sharing k n) : Sharing k n.step := by
  by_cases hq : n.queue = []
  · rwa [step_of_queue_nil hq]
  · obtain ⟨e, job, p, he, hj, ht, -⟩ := h.numbered.sound.step hq
    obtain ⟨x, hx⟩ := (h.numbered.works e.job (List.getElem?_eq_some_iff.1 hj).1).of_getElem? hj
    obtain ⟨new, hnew, hnotes⟩ := moves_notes hx ht.moves
    have htally := ht.tally (q := Phase.isRunning) rfl hj
    change n.step.tally _ + _ = n.tally _ + _ at htally
    have hroom := fun hf => h.numbered.sound.room h.slots he hj ht hf
    have hrunning := h.running
    replace hnew : n.step.world.2 = n.world.2 ++ new := hnew
    have hslots : n.step.settings.slots = some ⟨k, []⟩ := by rw [ht.settings]; exact h.slots
    have hall : begun n.step.world.2 = ended n.step.world.2 + n.step.tally Phase.isRunning ∧
        Within k n.step.world.2 := by
      rw [hnew]
      cases hnotes with
      | nothing hjob hp =>
        rw [Phase.isRunning_of_unfired hjob, Phase.isRunning_of_unfired hp] at htally
        rw [List.append_nil, Nat.add_right_cancel htally]
        exact ⟨hrunning, h.within⟩
      | begins hf =>
        have hlt := hroom hf rfl
        rw [Phase.isRunning_of_unfired hf.unfired] at htally
        have hmore : n.step.tally Phase.isRunning = n.tally Phase.isRunning + 1 := htally
        refine ⟨?_, h.within.concat ?_⟩ <;> rw [begun_begins, ended_begins] <;> omega
      | passes hf w =>
        have hlt := hroom hf rfl
        rw [Phase.isRunning_of_unfired hf.unfired] at htally
        have hsame : n.step.tally Phase.isRunning = n.tally Phase.isRunning := htally
        rw [List.append_cons]
        have hopen := h.within.concat (c := .begins e.job (n.taken e).clock)
          (by rw [begun_begins, ended_begins]; omega)
        refine ⟨?_, hopen.concat ?_⟩ <;>
          rw [begun_ends, ended_ends, begun_begins, ended_begins] <;> omega
      | ends hp w =>
        rw [hp] at htally
        have hless : n.step.tally Phase.isRunning + 1 = n.tally Phase.isRunning := htally
        have hopen := h.within n.world.2 (List.prefix_refl _)
        refine ⟨?_, h.within.concat ?_⟩ <;> rw [begun_ends, ended_ends] <;> omega
    exact ⟨h.numbered.step, hslots, hall.1, hall.2⟩

theorem persists : Persists (Sharing k : Scheduler (σ × List (Note ρ)) ρ → Prop) where
  sound h := h.numbered.sound
  step h := h.step
  told h hn ht := {
    numbered := persists_numbered.told h.numbered hn ht
    slots := by rw [ht.settings]; exact h.slots
    running := by rw [ht.world, ht.tally]; exact h.running
    within := by rw [ht.world]; exact h.within }
  still h hs := {
    numbered := persists_numbered.still h.numbered hs
    slots := by rw [hs.settings]; exact h.slots
    running := by rw [hs.world, tally, hs.jobs]; exact h.running
    within := by rw [hs.world]; exact h.within }

theorem submit {work : Work σ ρ} {delay : Int} {i : Nat} (h : Sharing k n)
    (hs : n.submit (work.noted n.jobs.length) delay = .ok (i, n')) : Sharing k n' := by
  obtain ⟨-, -, ht⟩ := h.numbered.sound.submit hs
  refine ⟨h.numbered.submit hs, by rw [ht.settings]; exact h.slots, ?_,
    by rw [ht.world]; exact h.within⟩
  rw [ht.world, ht.tally fun _ => Phase.isRunning_of_unfired]
  exact h.running

theorem revoke (h : Sharing k n) (j : Nat) : Sharing k (n.revoke j).2 := by
  have hn := h.numbered.revoke j
  rcases revoke_cases n j with he | ⟨job, hj, hp, he⟩
  · rwa [he]
  · rw [he] at hn ⊢
    refine ⟨hn, h.slots, ?_, h.within⟩
    have hsame := countP_set_add (fun job => job.phase.isRunning) hj { job with revoked := true }
    have htally : (n.setJob j { job with revoked := true }).tally Phase.isRunning =
        n.tally Phase.isRunning := Nat.add_right_cancel hsame
    rw [htally]
    exact h.running

theorem meetNoted (h : Sharing k n) (d : Demand σ ρ) : Sharing k (n.meetNoted d) := by
  cases d with
  | op op =>
    exact persists.performNoted h op h.submit fun f =>
      ⟨h.numbered.inWorld f, h.slots, h.running, h.within⟩
  | revoke j => exact h.revoke j

end Sharing

theorem sharing_run (settings : Settings) (hs : settings.slots = some ⟨k, []⟩) (w : σ)
    (ds : List (Demand σ ρ)) : Sharing k (notedRun settings w ds) := by
  have hstart : Sharing k (fresh settings (w, []) : Scheduler (σ × List (Note ρ)) ρ) :=
    ⟨numbered_run settings w [], hs, rfl, by
      rintro past hpast
      rw [List.prefix_nil.1 hpast]
      exact Nat.zero_le _⟩
  unfold notedRun
  generalize fresh settings (w, ([] : List (Note ρ))) = n at hstart
  induction ds generalizing n with
  | nil => exact hstart
  | cons d ds ih => exact ih _ (hstart.meetNoted d)

/-- Under a bound of `k` slots, whatever is asked: the free slots and the jobs that were granted one
or are at work are `k` together, so nobody else holds one; a job is in line only while none is free;
once every job is over all are free; and at no time were more than `k` calls open. -/
theorem slots_shared (settings : Settings) (k : Nat) (hk : settings.maxConcurrency = some k)
    (hpos : 1 ≤ k) (w : σ) (ds : List (Demand σ ρ)) :
    ∃ s, ((fresh settings w).meetAll ds).slots = some s ∧
      s.free + (((fresh settings w).meetAll ds).jobs.countP
        fun job => job.phase.holdsSlot) = k ∧
      (∀ job ∈ ((fresh settings w).meetAll ds).jobs, job.phase.isQueued = true → s.free = 0) ∧
      ((∀ job ∈ ((fresh settings w).meetAll ds).jobs, job.phase.isOver = true) →
        s = ⟨k, []⟩) ∧
      Within k (notedRun settings w ds).world.2 := by
  have hs : settings.slots = some ⟨k, []⟩ := slots_of_bound hk hpos
  have hsound : ((fresh settings w : Scheduler σ ρ).meetAll ds).Sound :=
    (idle_fresh settings w).sound.meetAll ds
  have hsettings : ((fresh settings w : Scheduler σ ρ).meetAll ds).settings = settings :=
    (idle_fresh settings w).sound.settings_meetAll ds
  obtain ⟨s, hm, hfit⟩ := hsound.fit (by rw [hsettings]; exact hs)
  refine ⟨s, hm, hfit.held, fun job hj hq => ?_, fun hover => ?_, (sharing_run settings hs w ds).within⟩
  · obtain ⟨i, hi⟩ := List.mem_iff_getElem?.1 hj
    exact hfit.full (List.ne_nil_of_mem ((hfit.mem i).2 ⟨job, hi, hq⟩))
  · have hidle := (hsound.idle_of_over hover).slots
    rw [hm, hsettings, hs] at hidle
    exact Option.some.inj hidle

/-- The one slot is taken by the job at work while another one is in line for it. -/
theorem slots_shared_lined :
    ({ maxConcurrency := some 1 } : Settings).maxConcurrency = some 1 ∧ 1 ≤ 1 ∧
    ∃ s, lined.slots = some s ∧ s.free = 0 ∧
      (lined.jobs.countP fun job => job.phase.holdsSlot) = 1 := by
  have hrun : lined = (fresh { maxConcurrency := some 1 } []).meetAll
      [.op (.submit (marking 0 10) 0), .op (.submit (marking 1 0) 0), .op (.advance 1)] := rfl
  have hqueued : (lined.jobs[1]?.any fun job => job.phase.isQueued) = true := by decide +kernel
  obtain ⟨job, hj, hq⟩ := (Option.any_eq_true _ _).1 hqueued
  obtain ⟨s, hs, hheld, hline, -⟩ := slots_shared { maxConcurrency := some 1 } 1 rfl
    (Nat.le_refl 1) [] [.op (.submit (marking 0 10) 0), .op (.submit (marking 1 0) 0),
      .op (.advance 1)]
  rw [← hrun] at hs hheld hline
  have hfree := hline job (List.mem_of_getElem? hj) hq
  exact ⟨rfl, Nat.le_refl 1, s, hs, hfree, by omega⟩

end Scheduler

end Syndicate
