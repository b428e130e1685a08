import Mathlib.Data.List.Forall2
import Syndicate.Proofs.Scheduler.Demand
import Syndicate.Proofs.Scheduler.Twins

/-! A scheduler that has served jobs before, beside one that has not. The jobs that are over matter
no more: the later ones are numbered after them, and their work acts on related worlds. Whatever is
asked of both keeps them so, whatever the earlier jobs were. -/

namespace Syndicate

variable {σ τ ρ : Type} {R : σ → τ → Prop}

/-- In related worlds work comes to the same, takes the same time, and leaves the worlds related. -/
structure Work.Matches (R : σ → τ → Prop) (a : Work σ ρ) (b : Work τ ρ) : Prop where
  duration : b.duration = a.duration
  enter : ∀ clock u v, R u v → R (a.enter clock u) (b.enter clock v)
  lag : ∀ u v, R u v → b.lag v = a.lag u
  result : ∀ clock u v, R u v → (b.leave clock v).1 = (a.leave clock u).1
  leave : ∀ clock u v, R u v → R (a.leave clock u).2 (b.leave clock v).2

/-- In one and the same world it does. -/
theorem Work.matches_self (a : Work σ ρ) : a.Matches Eq a where
  duration := rfl
  enter := by rintro clock u v rfl; rfl
  lag := by rintro u v rfl; rfl
  result := by rintro clock u v rfl; rfl
  leave := by rintro clock u v rfl; rfl

theorem Work.Matches.span {a : Work σ ρ} {b : Work τ ρ} (h : a.Matches R b) {u : σ} {v : τ}
    (hr : R u v) : b.span v = a.span u :=
  congrArg₂ (· + ·) h.duration (h.lag u v hr)

/-- Two jobs are at the same point of work that matches. -/
structure Job.Matches (R : σ → τ → Prop) (a : Job σ ρ) (b : Job τ ρ) : Prop where
  work : a.work.Matches R b.work
  wait : b.wait = a.wait
  cancelled : b.cancelled = a.cancelled
  revoked : b.revoked = a.revoked
  phase : b.phase = a.phase
  overlong : b.overlong = a.overlong

theorem Job.Matches.withPhase {a : Job σ ρ} {b : Job τ ρ} (h : a.Matches R b) (p : Phase ρ) :
    Job.Matches R { a with phase := p } { b with phase := p } :=
  { h with phase := rfl }

/-- In one and the same world a job is where it is. -/
theorem Job.matches_self {R : σ → σ → Prop} {a : Job σ ρ} (h : a.work.Matches R a.work) :
    a.Matches R a :=
  ⟨h, rfl, rfl, rfl, rfl, rfl⟩

/-- An entry with its job numbered after `b` others, and its own number after `d` others. -/
def Entry.later (b d : Nat) (e : Entry) : Entry := ⟨e.due, e.seq + d, e.job + b⟩

def Slots.later (b : Nat) (s : Slots) : Slots := ⟨s.free, s.line.map (· + b)⟩

namespace Entry

variable {b d : Nat}

theorem before_later (e f : Entry) : (e.later b d).before (f.later b d) = e.before f := by
  simp only [before, later, Nat.add_lt_add_iff_right]
  rfl

theorem later_injective : Function.Injective (later b d) := by
  rintro ⟨due, seq, job⟩ ⟨due', seq', job'⟩ h
  simp only [later, Entry.mk.injEq] at h ⊢
  omega

theorem hasten_later (clock i : Nat) (e : Entry) :
    (e.later b d).hasten clock (i + b) = (e.hasten clock i).later b d := by
  simp only [hasten, later, Nat.add_right_cancel_iff]
  split <;> rfl

end Entry

theorem forall₂_set {α β : Type} {S : α → β → Prop} {xs : List α} {ys : List β} {a : α} {b : β}
    (h : List.Forall₂ S xs ys) (hab : S a b) (i : Nat) :
    List.Forall₂ S (xs.set i a) (ys.set i b) := by
  induction h generalizing i with
  | nil => exact .nil
  | cons hxy h ih =>
    cases i with
    | zero => exact .cons hab h
    | succ i => exact .cons hxy (ih i)

namespace Scheduler

theorem first?_later (b d : Nat) (es : List Entry) :
    first? (es.map (Entry.later b d)) = (first? es).map (Entry.later b d) := by
  induction es with
  | nil => rfl
  | cons e es ih =>
    simp only [List.map_cons, first?, ih]
    cases first? es with
    | none => rfl
    | some f => simp only [Option.map_some, Entry.before_later]; split <;> rfl

theorem entries_eq {xs : List (Job σ ρ)} {ys : List (Job τ ρ)}
    (h : List.Forall₂ (Job.Matches R) xs ys) :
    ys.foldr (fun job k => job.phase.entries + k) 0 =
      xs.foldr (fun job k => job.phase.entries + k) 0 := by
  induction h with
  | nil => rfl
  | cons hab _ ih => rw [List.foldr_cons, List.foldr_cons, ih, hab.phase]

/-- Jobs that are over need no more entries. -/
theorem entries_over {jobs : List (Job σ ρ)} (h : ∀ job ∈ jobs, job.phase.isOver = true)
    (k : Nat) : jobs.foldr (fun job k => job.phase.entries + k) k = k := by
  induction jobs with
  | nil => rfl
  | cons job jobs ih =>
    have hjob := h job List.mem_cons_self
    rw [List.foldr_cons, ih fun j hj => h j (List.mem_cons_of_mem _ hj)]
    cases hp : job.phase <;> simp [hp, Phase.isOver, Phase.entries] at hjob ⊢

/-- One scheduler is as another one would be after some jobs that are over. -/
structure Follows (R : σ → τ → Prop) (old : List (Job τ ρ)) (d : Nat) (m : Scheduler σ ρ)
    (n : Scheduler τ ρ) : Prop where
  ended : ∀ job ∈ old, job.phase.isOver = true
  settings : n.settings = m.settings
  clock : n.clock = m.clock
  counted : 0 < m.nextSeq
  nextSeq : n.nextSeq = m.nextSeq + d
  queue : n.queue = m.queue.map (Entry.later old.length d)
  jobs : ∃ js, n.jobs = old ++ js ∧ List.Forall₂ (Job.Matches R) m.jobs js
  slots : n.slots = m.slots.map (Slots.later old.length)
  pending : n.pending = m.pending.map (· + old.length)
  threads : ∃ ts, n.threads = ts ++ m.threads.map (· + old.length) ∧ ∀ t ∈ ts, t < old.length
  counts : ∀ t ∈ m.threads, t < m.jobs.length
  worlds : R m.world n.world

theorem slots_later (s : Settings) (b : Nat) : s.slots.map (Slots.later b) = s.slots := by
  cases hs : s.slots with
  | none => rfl
  | some x =>
    obtain ⟨free, line⟩ := x
    obtain rfl : line = [] := Settings.slots_line hs
    rfl

variable {old : List (Job τ ρ)} {d i : Nat} {m : Scheduler σ ρ} {n : Scheduler τ ρ}
  {a : Job σ ρ} {b : Job τ ρ}

/-- An idle scheduler is as a new one would be after its jobs. -/
theorem Idle.follows {w : σ} (h : n.Idle) (hc : 0 < n.nextSeq)
    (ht : ∀ t ∈ n.threads, t < n.jobs.length) (hr : R w n.world) :
    Follows R n.jobs (n.nextSeq - 1) { fresh n.settings w with clock := n.clock } n where
  ended := h.ended
  settings := rfl
  clock := rfl
  counted := Nat.one_pos
  nextSeq := by
    show n.nextSeq = 1 + (n.nextSeq - 1)
    omega
  queue := h.queue
  jobs := ⟨[], (List.append_nil _).symm, .nil⟩
  slots := h.slots.trans (slots_later n.settings n.jobs.length).symm
  pending := h.pending
  threads := ⟨n.threads, (List.append_nil _).symm, ht⟩
  counts := by simp [fresh]
  worlds := hr

/-- A scheduler is as it is, whose jobs keep its world related to itself. -/
theorem follows_self {R : σ → σ → Prop} {m : Scheduler σ ρ} (hc : 0 < m.nextSeq)
    (ht : ∀ t ∈ m.threads, t < m.jobs.length) (hj : ∀ job ∈ m.jobs, job.work.Matches R job.work)
    (hr : R m.world m.world) : Follows R [] 0 m m where
  ended := nofun
  settings := rfl
  clock := rfl
  counted := hc
  nextSeq := rfl
  queue := (List.map_id m.queue).symm
  jobs := ⟨m.jobs, rfl, List.forall₂_same.2 fun job h => Job.matches_self (hj job h)⟩
  slots := by
    cases m.slots with
    | none => rfl
    | some s => exact congrArg (fun line => some (Slots.mk s.free line)) (List.map_id s.line).symm
  pending := (List.map_id m.pending).symm
  threads := ⟨[], (List.map_id m.threads).symm, nofun⟩
  counts := ht
  worlds := hr

namespace Follows

theorem length (h : Follows R old d m n) : n.jobs.length = m.jobs.length + old.length := by
  obtain ⟨js, hn, hjs⟩ := h.jobs
  rw [hn, List.length_append, hjs.length_eq, Nat.add_comm]

/-- The jobs of both, place by place. -/
theorem getElem? (h : Follows R old d m n) (i : Nat) :
    m.jobs[i]? = none ∧ n.jobs[i + old.length]? = none ∨
    ∃ a b, m.jobs[i]? = some a ∧ n.jobs[i + old.length]? = some b ∧ a.Matches R b := by
  obtain ⟨js, hn, hjs⟩ := h.jobs
  have hat : n.jobs[i + old.length]? = js[i]? := by
    rw [hn, List.getElem?_append_right (Nat.le_add_left _ _), Nat.add_sub_cancel]
  rw [hat]
  by_cases hi : i < m.jobs.length
  · have hi' : i < js.length := hjs.length_eq ▸ hi
    exact .inr ⟨_, _, List.getElem?_eq_getElem hi, List.getElem?_eq_getElem hi',
      hjs.get hi hi'⟩
  · exact .inl ⟨List.getElem?_eq_none (by omega), List.getElem?_eq_none (by
      rw [← hjs.length_eq]; omega)⟩

theorem threads_lt (h : Follows R old d m n) : ∀ t ∈ n.threads, t < n.jobs.length := by
  obtain ⟨ts, hn, hts⟩ := h.threads
  intro t ht
  rw [h.length]
  rw [hn, List.mem_append, List.mem_map] at ht
  rcases ht with ht | ⟨u, hu, rfl⟩
  · exact Nat.lt_of_lt_of_le (hts t ht) (Nat.le_add_left _ _)
  · exact Nat.add_lt_add_right (h.counts u hu) _

theorem withSlots (h : Follows R old d m n) (s : Option Slots) :
    Follows R old d { m with slots := s } { n with slots := s.map (Slots.later old.length) } :=
  { h with slots := rfl }

theorem inWorld (h : Follows R old d m n) {u : σ} {v : τ} (hr : R u v) :
    Follows R old d (m.withWorld u) (n.withWorld v) :=
  { h with worlds := hr }

/-! ### One step -/

theorem setJob (h : Follows R old d m n) (hab : a.Matches R b) (i : Nat) :
    Follows R old d (m.setJob i a) (n.setJob (i + old.length) b) := by
  obtain ⟨js, hn, hjs⟩ := h.jobs
  refine { h with jobs := ⟨js.set i b, ?_, forall₂_set hjs hab i⟩, counts := fun t ht => ?_ }
  · rw [setJob_jobs, hn, List.set_append_right _ _ (Nat.le_add_left _ _), Nat.add_sub_cancel]
  · rw [setJob_jobs, List.length_set]
    exact h.counts t ht

theorem schedule (h : Follows R old d m n) {due due' : Nat} (hdue : due' = due) (i : Nat) :
    Follows R old d (m.schedule due i) (n.schedule due' (i + old.length)) := by
  refine { h with counted := Nat.succ_pos _, nextSeq := ?_, queue := ?_ }
  · show n.nextSeq + 1 = m.nextSeq + 1 + d
    rw [h.nextSeq, Nat.add_right_comm]
  · rw [schedule_queue, schedule_queue, h.queue, h.nextSeq, hdue, List.map_append]
    rfl

theorem filter_pending (h : Follows R old d m n) (i : Nat) :
    n.pending.filter (· ≠ i + old.length) = (m.pending.filter (· ≠ i)).map (· + old.length) := by
  rw [h.pending, List.filter_map]
  congr 1
  apply List.filter_congr
  intro j _
  simp

theorem finish (h : Follows R old d m n) (hab : a.Matches R b) (i : Nat) (ending : Ending ρ) :
    Follows R old d (m.finish i a ending) (n.finish (i + old.length) b ending) :=
  { h.setJob (hab.withPhase (.ended ending)) i with pending := h.filter_pending i }

theorem release (h : Follows R old d m n) : Follows R old d m.release n.release := by
  have hslots := h.slots
  cases hm : m.slots with
  | none =>
    rw [hm, Option.map_none] at hslots
    simp only [Scheduler.release, hm, hslots]
    exact h
  | some s =>
    obtain ⟨free, line⟩ := s
    rw [hm, Option.map_some] at hslots
    cases line with
    | nil =>
      have hn : n.slots = some ⟨free, []⟩ := hslots
      simp only [Scheduler.release, hm, hn]
      exact h.withSlots (some ⟨free + 1, []⟩)
    | cons first line =>
      have hn : n.slots = some ⟨free, (first + old.length) :: line.map (· + old.length)⟩ := hslots
      have hleft := h.withSlots (some ⟨free, line⟩)
      rcases h.getElem? first with ⟨ha, hb⟩ | ⟨a, b, ha, hb, hab⟩
      · simp only [Scheduler.release, hm, hn, ha, hb]
        exact hleft
      · simp only [Scheduler.release, hm, hn, ha, hb]
        exact (hleft.setJob (hab.withPhase .granted) first).schedule h.clock first

theorem complete (h : Follows R old d m n) (hab : a.Matches R b) (i : Nat) :
    Follows R old d (m.complete i a) (n.complete (i + old.length) b) := by
  have he : ∀ {υ : Type} (k : Scheduler υ ρ) (i : Nat) (job : Job υ ρ), k.complete i job =
      (k.withWorld (job.work.leave k.clock k.world).2).release.finish i job
        (.finished (job.work.leave k.clock k.world).1) := fun _ _ _ => rfl
  rw [he, he, h.clock, hab.work.result m.clock _ _ h.worlds]
  exact (h.inWorld (hab.work.leave m.clock _ _ h.worlds)).release.finish hab i _

theorem fire (h : Follows R old d m n) (hab : a.Matches R b) (i : Nat) :
    Follows R old d (m.fire i a) (n.fire (i + old.length) b) := by
  have he : ∀ {υ : Type} (k : Scheduler υ ρ) (i : Nat) (job : Job υ ρ), k.fire i job =
      if job.work.span (job.work.enter k.clock k.world) = 0 then
        (k.withWorld (job.work.enter k.clock k.world)).complete i job
      else ((k.withWorld (job.work.enter k.clock k.world)).setJob i
        { job with phase := .running }).schedule
          (k.clock + job.work.span (job.work.enter k.clock k.world)) i :=
    fun _ _ _ => rfl
  have hr := hab.work.enter m.clock _ _ h.worlds
  have hin := h.inWorld hr
  rw [he, he, h.clock, hab.work.span hr]
  split
  · exact hin.complete hab i
  · exact (hin.setJob (hab.withPhase .running) i).schedule rfl i

theorem acquire (h : Follows R old d m n) (hab : a.Matches R b) (i : Nat) :
    Follows R old d (m.acquire i a) (n.acquire (i + old.length) b) := by
  have hslots := h.slots
  cases hm : m.slots with
  | none =>
    rw [hm, Option.map_none] at hslots
    simp only [Scheduler.acquire, hm, hslots]
    exact h.fire hab i
  | some s =>
    obtain ⟨free, line⟩ := s
    rw [hm, Option.map_some, Slots.later] at hslots
    cases free with
    | zero =>
      simp only [Scheduler.acquire, hm, hslots]
      have hline := (h.setJob (hab.withPhase .queued) i).withSlots (some ⟨0, line ++ [i]⟩)
      rw [Option.map_some, Slots.later, List.map_append] at hline
      exact hline
    | succ free =>
      simp only [Scheduler.acquire, hm, hslots]
      exact (h.withSlots (some ⟨free, line⟩)).fire hab i

theorem start (h : Follows R old d m n) (hab : a.Matches R b) (i : Nat) :
    Follows R old d (m.start i a) (n.start (i + old.length) b) := by
  have hdue : n.clock + b.wait = m.clock + a.wait := by rw [h.clock, hab.wait]
  unfold Scheduler.start
  by_cases hr : a.revoked = true
  · rw [if_pos hr, if_pos (hab.revoked.trans hr)]
    exact h.finish hab i _
  · have hr' : ¬ b.revoked = true := by rwa [hab.revoked]
    rw [if_neg hr, if_neg hr']
    by_cases hc : a.cancelled = true
    · rw [if_pos hc, if_pos (hab.cancelled.trans hc)]
      exact h.finish hab i _
    · have hc' : ¬ b.cancelled = true := by rwa [hab.cancelled]
      rw [if_neg hc, if_neg hc']
      by_cases ho : a.overlong = true
      · rw [if_pos ho, if_pos (hab.overlong.trans ho)]
        exact h.finish hab i _
      · have ho' : ¬ b.overlong = true := by rwa [hab.overlong]
        rw [if_neg ho, if_neg ho']
        exact (h.setJob (hab.withPhase .waiting) i).schedule hdue i

theorem resume (h : Follows R old d m n) (i : Nat) :
    Follows R old d (m.resume i) (n.resume (i + old.length)) := by
  rcases h.getElem? i with ⟨ha, hb⟩ | ⟨a, b, ha, hb, hab⟩
  · simp only [Scheduler.resume, ha, hb]
    exact h
  · simp only [Scheduler.resume, ha, hb, hab.phase]
    cases a.phase with
    | unstarted => exact h.start hab i
    | waiting =>
      dsimp only
      rw [hab.cancelled]
      split
      · exact h.finish hab i _
      · exact h.acquire hab i
    | granted => exact h.fire hab i
    | running => exact h.complete hab i
    | queued => exact h
    | ended _ => exact h

theorem next? (h : Follows R old d m n) : n.next? = m.next?.map (Entry.later old.length d) := by
  rw [Scheduler.next?, h.queue, first?_later, Scheduler.next?]

theorem taken (h : Follows R old d m n) (e : Entry) :
    Follows R old d (m.taken e) (n.taken (e.later old.length d)) := by
  refine { h with clock := ?_, queue := ?_ }
  · show max n.clock e.due = max m.clock e.due
    rw [h.clock]
  · rw [taken_queue, taken_queue, h.queue, List.map_erase Entry.later_injective]

theorem step (h : Follows R old d m n) : Follows R old d m.step n.step := by
  have hnext := h.next?
  cases he : m.next? with
  | none =>
    rw [he, Option.map_none] at hnext
    simp only [Scheduler.step, he, hnext]
    exact h
  | some e =>
    rw [he, Option.map_some] at hnext
    rw [step_eq he, step_eq hnext]
    exact (h.taken e).resume e.job

/-! ### Runs of steps -/

theorem bound (h : Follows R old d m n) : n.bound = m.bound := by
  obtain ⟨js, hn, hjs⟩ := h.jobs
  rw [bound_eq, bound_eq, hn, List.foldr_append, entries_over h.ended, entries_eq hjs, h.queue,
    List.length_map]

section Runs

variable {go : Scheduler σ ρ → Bool} {go' : Scheduler τ ρ → Bool}

/-- Both take the same steps while a condition holds that they agree on. -/
theorem stepWhile (h : Follows R old d m n)
    (hgo : ∀ (m : Scheduler σ ρ) (n : Scheduler τ ρ), Follows R old d m n → go' n = go m)
    (steps : Nat) :
    Follows R old d (Scheduler.stepWhile go steps m) (Scheduler.stepWhile go' steps n) := by
  induction steps generalizing m n with
  | zero => exact h
  | succ steps ih =>
    have hq : n.queue ≠ [] ↔ m.queue ≠ [] := by rw [h.queue, ne_eq, List.map_eq_nil_iff]
    unfold Scheduler.stepWhile
    rw [hgo m n h]
    by_cases hm : (go m && decide (m.queue ≠ [])) = true
    · rw [if_pos hm, if_pos (by simpa [hq] using hm)]
      exact ih h.step
    · rw [if_neg hm, if_neg (by simpa [hq] using hm)]
      exact h

theorem runWhile (h : Follows R old d m n)
    (hgo : ∀ (m : Scheduler σ ρ) (n : Scheduler τ ρ), Follows R old d m n → go' n = go m) :
    Follows R old d (m.runWhile go) (n.runWhile go') := by
  rw [Scheduler.runWhile, Scheduler.runWhile, h.bound]
  exact h.stepWhile hgo m.bound

end Runs

theorem hasEnded (h : Follows R old d m n) (i : Nat) :
    n.hasEnded (i + old.length) = m.hasEnded i := by
  rcases h.getElem? i with ⟨ha, hb⟩ | ⟨a, b, ha, hb, hab⟩
  · simp only [Scheduler.hasEnded, ha, hb]
  · rw [hasEnded_of ha, hasEnded_of hb, hab.phase]

theorem future (h : Follows R old d m n) (i : Nat) :
    n.future (i + old.length) = m.future i := by
  rcases h.getElem? i with ⟨ha, hb⟩ | ⟨a, b, ha, hb, hab⟩
  · simp only [Scheduler.future, ha, hb]
  · simp only [Scheduler.future, ha, hb, hab.phase, hab.revoked]

theorem failure? (h : Follows R old d m n) (i : Nat) :
    n.failure? (i + old.length) = m.failure? i := by
  rw [Scheduler.failure?, h.future i, Scheduler.failure?]

theorem hasSettled (h : Follows R old d m n) (i : Nat) :
    n.hasSettled (i + old.length) = m.hasSettled i := by
  rcases h.getElem? i with ⟨ha, hb⟩ | ⟨a, b, ha, hb, hab⟩
  · simp only [Scheduler.hasSettled, ha, hb]
  · simp only [Scheduler.hasSettled, ha, hb, hab.phase]

theorem isDueBy (h : Follows R old d m n) (time : Nat) :
    Scheduler.isDueBy time n = Scheduler.isDueBy time m := by
  rw [Scheduler.isDueBy, h.next?, Option.any_map, Scheduler.isDueBy]
  rfl

theorem all_hasSettled (h : Follows R old d m n) (names : List Nat) :
    (names.map (· + old.length)).all n.hasSettled = names.all m.hasSettled := by
  rw [List.all_map]
  exact congrArg names.all (funext h.hasSettled)

theorem waitAll (h : Follows R old d m n) (names : List Nat) :
    Follows R old d (m.waitAll names) (n.waitAll (names.map (· + old.length))) :=
  h.runWhile fun _ _ h => by rw [h.all_hasSettled]

theorem waitFirst (h : Follows R old d m n) (names : List Nat) :
    Follows R old d (m.waitFirst names) (n.waitFirst (names.map (· + old.length))) := by
  refine h.runWhile fun m n h => ?_
  rw [h.all_hasSettled, List.any_map]
  have hany : (fun i => (n.failure? i).isSome) ∘ (· + old.length) =
      fun i => (m.failure? i).isSome := funext fun i => congrArg Option.isSome (h.failure? i)
  rw [hany]

theorem advance (h : Follows R old d m n) (time : Nat) :
    Follows R old d (m.advance time) (n.advance time) := by
  have hrun : Follows R old d (m.runWhile (Scheduler.isDueBy (m.clock + time)))
      (n.runWhile (Scheduler.isDueBy (m.clock + time))) := h.runWhile fun _ _ h => h.isDueBy _
  unfold Scheduler.advance
  rw [h.clock]
  exact { hrun with clock := rfl }

theorem sleep (h : Follows R old d m n) (time : Option Nat) :
    Follows R old d (m.sleep time) (n.sleep time) := by
  cases time with
  | none => exact h
  | some time => exact h.advance time

/-- The jobs of before are over, so waiting for them takes no time. -/
theorem join_old (h : Follows R old d m n) {t : Nat} (ht : t < old.length) : n.join t = n := by
  obtain ⟨js, hn, -⟩ := h.jobs
  have hover : n.hasEnded t = true := by
    rw [hasEnded_iff]
    intro job hj
    rw [hn, List.getElem?_append_left ht] at hj
    exact h.ended job (List.mem_of_getElem? hj)
  rw [Scheduler.join, Scheduler.runWhile]
  cases n.bound with
  | zero => rfl
  | succ k => simp [Scheduler.stepWhile, hover]

theorem joins (h : Follows R old d m n) (names : List Nat) :
    Follows R old d (names.foldl Scheduler.join m)
      ((names.map (· + old.length)).foldl Scheduler.join n) := by
  induction names generalizing m n with
  | nil => exact h
  | cons i names ih => exact ih (h.runWhile fun _ _ h => by rw [h.hasEnded])

theorem close (h : Follows R old d m n) : Follows R old d m.close n.close := by
  obtain ⟨ts, hn, hts⟩ := h.threads
  have hun : Follows R old d { m with threads := [] } { n with threads := [] } :=
    { h with threads := ⟨[], rfl, by simp⟩, counts := by simp }
  have hold : ∀ ts : List Nat, (∀ t ∈ ts, t < old.length) →
      ts.foldl Scheduler.join { n with threads := [] } = { n with threads := [] } := by
    intro ts hts
    induction ts with
    | nil => rfl
    | cons t ts ih =>
      rw [List.foldl_cons, hun.join_old (hts t List.mem_cons_self),
        ih fun u hu => hts u (List.mem_cons_of_mem _ hu)]
  rw [Scheduler.close, Scheduler.close, hn, List.foldl_append, hold ts hts]
  exact hun.joins m.threads

/-! ### What is asked -/

/-- Both take on a job, or neither does. -/
theorem submit {x : Work σ ρ} {y : Work τ ρ} (h : Follows R old d m n) (hw : x.Matches R y)
    (delay : Int) :
    (∃ f, m.submit x delay = .error f ∧ n.submit y delay = .error f) ∨
    ∃ i m' n', m.submit x delay = .ok (i, m') ∧ n.submit y delay = .ok (i + old.length, n') ∧
      Follows R old d m' n' := by
  rw [submit_eq, submit_eq, h.settings]
  cases m.settings.wait delay with
  | error f => exact .inl ⟨f, rfl, rfl⟩
  | ok wait =>
    dsimp only
    generalize m.settings.isOverlong wait = overlong
    have hab : Job.Matches R { work := x, wait := wait, overlong := overlong }
        { work := y, wait := wait, overlong := overlong } := ⟨hw, rfl, rfl, rfl, rfl, rfl⟩
    have htook : Follows R old d (m.takeOn { work := x, wait := wait, overlong := overlong })
        (n.takeOn { work := y, wait := wait, overlong := overlong }) := by
      obtain ⟨js, hn, hjs⟩ := h.jobs
      obtain ⟨ts, ht, hts⟩ := h.threads
      refine { h with
        jobs := ⟨js ++ [{ work := y, wait := wait, overlong := overlong }], ?_, ?_⟩, pending := ?_
        threads := ⟨ts, ?_, hts⟩, counts := fun t ht => ?_ }
      · rw [takeOn, hn, List.append_assoc]
      · exact List.rel_append hjs (.cons hab .nil)
      · simp only [takeOn, h.pending, h.length, List.map_append, List.map_cons, List.map_nil]
      · simp only [takeOn, ht, h.length, List.map_append, List.map_cons, List.map_nil,
          List.append_assoc]
      · simp only [takeOn, List.mem_append, List.mem_singleton, List.length_append,
          List.length_singleton] at ht ⊢
        rcases ht with ht | rfl
        · exact Nat.lt_succ_of_lt (h.counts t ht)
        · exact Nat.lt_succ_self _
    refine .inr ⟨_, _, _, rfl, by rw [h.length], ?_⟩
    split
    · exact htook.schedule h.clock _
    · split
      · exact htook.finish hab _ _
      · exact (htook.setJob (hab.withPhase .waiting) _).schedule (by rw [h.clock]) _

/-- Both take on a job that is over already. -/
theorem submitEnded {x : Work σ ρ} {y : Work τ ρ} (h : Follows R old d m n) (hw : x.Matches R y)
    (result : Outcome ρ) :
    (n.submitEnded y result).1 = (m.submitEnded x result).1 + old.length ∧
    Follows R old d (m.submitEnded x result).2 (n.submitEnded y result).2 := by
  obtain ⟨js, hn, hjs⟩ := h.jobs
  have hab : Job.Matches R { work := x, wait := 0, phase := .ended (.finished result) }
      { work := y, wait := 0, phase := .ended (.finished result) } :=
    ⟨hw, rfl, rfl, rfl, rfl, rfl⟩
  refine ⟨h.length, { h with
    jobs := ⟨js ++ [_], ?_, List.rel_append hjs (.cons hab .nil)⟩, counts := fun t ht => ?_ }⟩
  · rw [Scheduler.submitEnded, hn, List.append_assoc]
  · simp only [Scheduler.submitEnded, List.length_append]
    exact Nat.lt_add_right _ (h.counts t ht)

/-- A new scheduler is made in the place of each. -/
theorem renew (h : Follows R old d m n) (settings : Settings) :
    Follows R old d (m.renew settings) (n.renew settings) :=
  { h with
    settings := rfl
    slots := (slots_later settings old.length).symm
    pending := rfl
    threads := ⟨[], rfl, nofun⟩
    counts := nofun }

theorem cancelJob (h : Follows R old d m n) (i : Nat) :
    Follows R old d (m.cancelJob i) (n.cancelJob (i + old.length)) := by
  rcases h.getElem? i with ⟨ha, hb⟩ | ⟨⟨x, _, _, _, _, _⟩, ⟨y, wait, cancelled, revoked, p, o⟩,
      ha, hb, hw, rfl, rfl, rfl, rfl, rfl⟩
  · simp only [Scheduler.cancelJob, ha, hb]
    exact h
  · have htold := h.setJob (a := ⟨x, wait, true, revoked, p, o⟩)
      (b := ⟨y, wait, true, revoked, p, o⟩) ⟨hw, rfl, rfl, rfl, rfl, rfl⟩ i
    have hqueue : n.queue.map (Entry.hasten n.clock (i + old.length)) =
        (m.queue.map (Entry.hasten m.clock i)).map (Entry.later old.length d) := by
      rw [h.queue, h.clock, List.map_map, List.map_map]
      exact List.map_congr_left fun e _ => Entry.hasten_later m.clock i e
    simp only [Scheduler.cancelJob, ha, hb]
    cases p with
    | waiting => exact { htold with queue := hqueue }
    | _ => exact htold

theorem cancelJobs (h : Follows R old d m n) (names : List Nat) :
    Follows R old d (names.foldl Scheduler.cancelJob m)
      ((names.map (· + old.length)).foldl Scheduler.cancelJob n) := by
  induction names generalizing m n with
  | nil => exact h
  | cons i names ih => exact ih (h.cancelJob i)

theorem cancel (h : Follows R old d m n) (names : List Nat) :
    Follows R old d (m.cancel names) (n.cancel (names.map (· + old.length))) := by
  have hnames : (names.map (· + old.length)).filter n.pending.contains =
      (names.filter m.pending.contains).map (· + old.length) := by
    rw [List.filter_map]
    congr 1
    apply List.filter_congr
    intro i _
    simp [h.pending]
  rw [Scheduler.cancel, Scheduler.cancel, hnames]
  exact h.cancelJobs _

theorem cancelAll (h : Follows R old d m n) : Follows R old d m.cancelAll n.cancelAll := by
  rw [Scheduler.cancelAll, Scheduler.cancelAll, h.pending]
  exact h.cancelJobs _

theorem revoke (h : Follows R old d m n) (i : Nat) :
    Follows R old d (m.revoke i).2 (n.revoke (i + old.length)).2 := by
  rcases h.getElem? i with ⟨ha, hb⟩ | ⟨⟨x, _, _, _, _, _⟩, ⟨y, wait, cancelled, revoked, p, o⟩,
      ha, hb, hw, rfl, rfl, rfl, rfl, rfl⟩
  · simp only [Scheduler.revoke, ha, hb]
    exact h
  · have htaken := h.setJob (a := ⟨x, wait, cancelled, true, p, o⟩)
      (b := ⟨y, wait, cancelled, true, p, o⟩) ⟨hw, rfl, rfl, rfl, rfl, rfl⟩ i
    simp only [Scheduler.revoke, ha, hb]
    split
    · exact h
    · cases p with
      | unstarted => exact htaken
      | _ => exact h

end Follows

end Scheduler

end Syndicate
