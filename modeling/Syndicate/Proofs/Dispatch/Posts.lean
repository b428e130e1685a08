import Syndicate.Proofs.Dispatch.Submit
import Syndicate.Proofs.Scheduler.Cancel

/-! The posts of a batch of jobs. Each posting is numbered by its task, and the postings of one
task follow the phase of its job: none before the job fires, its begin while it is at work, and its
begin and its end once its work is done. -/

namespace Syndicate

open Scheduler

/-- The failure that a post ended in. -/
def Posting.failure? (p : Posting) : Option Failure :=
  match p.stage with
  | .ended (.error f) => some f
  | _ => none

/-- The postings of one task among numbered ones. -/
def rowOf (k : Nat) (log : List (Nat × Posting)) : List Posting :=
  (log.filter fun e => e.1 = k).map Prod.snd

/-- Postings with the number of their task. -/
def numbered (k : Nat) (ps : List Posting) : List (Nat × Posting) := ps.map fun p => (k, p)

section Rows

variable {k j : Nat} {ps : List Posting} {log log' : List (Nat × Posting)}

theorem rowOf_append : rowOf k (log ++ log') = rowOf k log ++ rowOf k log' := by
  rw [rowOf, List.filter_append, List.map_append, rowOf, rowOf]

theorem rowOf_numbered : rowOf j (numbered k ps) = if j = k then ps else [] := by
  induction ps with
  | nil => simp [numbered, rowOf]
  | cons p ps ih =>
    by_cases h : j = k
    · subst h
      simpa [numbered, rowOf] using ih
    · simp [numbered, rowOf, h, Ne.symm h]

theorem mem_rowOf {p : Posting} : p ∈ rowOf k log ↔ (k, p) ∈ log := by
  simp [rowOf]

theorem snd_numbered : (numbered k ps).map Prod.snd = ps := by
  simp [numbered, Function.comp_def]

end Rows

/-! ### One job -/

/-- How far the post of a task has got when its job has come to a phase. -/
inductive Track (w : World) (t : Task) : Phase Publishing → List Posting → Prop
  | unfired {p : Phase Publishing} (h : p.hasFired = false) : Track w t p []
  | running : Track w t .running [⟨t, .begun⟩]
  | finished (o : Outcome PostRef) :
    Track w t (.ended (.finished (w.answers t o))) [⟨t, .begun⟩, ⟨t, .ended o⟩]

/-- What the turn of a job adds to the postings of its task. -/
inductive Job.Adds (job : Job World Publishing) (t : Task) : List Posting → Prop
  | nothing : Adds job t []
  | begins (hf : job.MayFire) : Adds job t [⟨t, .begun⟩]
  | passes (hf : job.MayFire) (o : Outcome PostRef) :
    Adds job t [⟨t, .begun⟩, ⟨t, .ended o⟩]
  | ends (o : Outcome PostRef) : Adds job t [⟨t, .ended o⟩]

variable {w v v' : World} {t : Task} {job : Job World Publishing} {p : Phase Publishing}
  {row : List Posting}

theorem Track.row_nil (h : Track w t p row) (hp : p.hasFired = false) : row = [] := by
  cases h with
  | unfired => rfl
  | running => simp [Phase.hasFired] at hp
  | finished => simp [Phase.hasFired] at hp

theorem enter_leads {u : World} (hw : job.work = u.work t) (clock : Nat) (v : World) :
    v.Leads [⟨t, .begun⟩] [] (job.work.enter clock v) := by
  rw [hw]
  exact World.leads_begin v t

theorem leave_leads {u : World} (hw : job.work = u.work t) (clock : Nat) (v : World) : ∃ o,
    (job.work.leave clock v).1 = v.answers t o ∧
    v.Leads [⟨t, .ended o⟩] [] (job.work.leave clock v).2 := by
  rw [hw]
  exact World.publish_leads v t clock

/-- The postings of a task keep in step with its job. -/
theorem Track.moves {clock : Nat} (h : Track w t job.phase row)
    (hw : ∃ u : World, job.work = u.work t) (hv : ∀ name, v.adapterId name = w.adapterId name)
    (hm : job.Moves clock v p v') :
    ∃ new, Track w t p (row ++ new) ∧ v.Leads new [] v' ∧ job.Adds t new := by
  obtain ⟨u, hu⟩ := hw
  cases hm with
  | revoked hp =>
    obtain rfl := h.row_nil (by rw [hp]; rfl)
    exact ⟨[], .unfired rfl, .refl v, .nothing⟩
  | calledOff he =>
    obtain rfl := h.row_nil (Phase.hasFired_of_isEarly he)
    exact ⟨[], .unfired rfl, .refl v, .nothing⟩
  | waits hp | lost hp | queues hp =>
    obtain rfl := h.row_nil (by rw [hp]; rfl)
    exact ⟨[], .unfired rfl, .refl v, .nothing⟩
  | begins hf =>
    obtain rfl := h.row_nil hf.unfired
    exact ⟨[⟨t, .begun⟩], .running, enter_leads hu clock v, .begins hf⟩
  | passes hf =>
    obtain rfl := h.row_nil hf.unfired
    have he := enter_leads hu clock v
    obtain ⟨o, ho, hl⟩ := leave_leads hu clock (job.work.enter clock v)
    refine ⟨[⟨t, .begun⟩, ⟨t, .ended o⟩], ?_, he.trans hl, .passes hf o⟩
    rw [ho, World.answers_congr fun name => (he.ids name).trans (hv name)]
    exact .finished o
  | ends hp =>
    obtain ⟨o, ho, hl⟩ := leave_leads hu clock v
    rw [hp] at h
    cases h with
    | unfired hp' => simp [Phase.hasFired] at hp'
    | running =>
      refine ⟨[⟨t, .ended o⟩], ?_, hl, .ends o⟩
      rw [ho, World.answers_congr hv]
      exact .finished o

/-! ### Failures -/

/-- No post has failed. -/
def Unfailed (log : List (Nat × Posting)) : Prop := ∀ e ∈ log, e.2.failure? = none

/-- No post has failed but the one that ended last, if that one has. -/
def Halts (log : List (Nat × Posting)) : Prop := Unfailed log ∨
  ∃ before k t f, log = before ++ [(k, ⟨t, .ended (.error f)⟩)] ∧ Unfailed before

theorem Unfailed.append {log log' : List (Nat × Posting)} (h : Unfailed log)
    (h' : Unfailed log') : Unfailed (log ++ log') := by
  intro e he
  rcases List.mem_append.1 he with he | he
  · exact h e he
  · exact h' e he

theorem halts_ended {log : List (Nat × Posting)} (h : Unfailed log) (k : Nat) (t : Task)
    (o : Outcome PostRef) : Halts (log ++ [(k, ⟨t, .ended o⟩)]) := by
  cases o with
  | ok ref => exact .inl (h.append (by simp [Unfailed, Posting.failure?]))
  | error f => exact .inr ⟨log, k, t, f, rfl, h⟩

theorem halts_append {log : List (Nat × Posting)} {k : Nat} (h : Unfailed log)
    (hadds : job.Adds t row) : Halts (log ++ numbered k row) := by
  have hbegun : Unfailed (log ++ [(k, ⟨t, .begun⟩)]) :=
    h.append (by simp [Unfailed, Posting.failure?])
  cases hadds with
  | nothing => exact .inl (by simpa [numbered] using h)
  | begins => exact .inl hbegun
  | passes _ o => simpa [numbered] using halts_ended hbegun k t o
  | ends o => exact halts_ended h k t o

theorem Halts.of_mem {log : List (Nat × Posting)} {k : Nat} {f : Failure} (h : Halts log)
    (hm : (k, ⟨t, .ended (.error f)⟩) ∈ log) :
    ∃ before, log = before ++ [(k, ⟨t, .ended (.error f)⟩)] ∧ Unfailed before := by
  rcases h with h | ⟨before, k', t', f', rfl, hb⟩
  · have := h _ hm
    simp [Posting.failure?] at this
  · rcases List.mem_append.1 hm with hm | hm
    · have := hb _ hm
      simp [Posting.failure?] at this
    · rw [List.mem_singleton] at hm
      exact ⟨before, by rw [hm], hb⟩

theorem Job.Barred.adds (h : job.Barred) (hadds : job.Adds t row) :
    ∀ p ∈ row, p.stage ≠ .begun := by
  cases hadds with
  | nothing => simp
  | begins hf | passes hf => exact absurd hf h.not_mayFire
  | ends => simp

/-! ### All jobs of a batch -/

/-- A batch of jobs under way: they come after jobs that are over, and the postings of each task
have got as far as its job. -/
structure UnderWay (b : Nat) (ts : List Task) (w : World) (log : List (Nat × Posting))
    (m : Scheduler World Publishing) : Prop where
  sound : m.Sound
  length : m.jobs.length = b + ts.length
  before : ∀ k < b, Holds (fun job => job.phase.isOver = true) k m
  jobs : ∀ k t, ts[k]? = some t → Holds (fun job => (∃ u : World, job.work = u.work t) ∧
    Track w t job.phase (rowOf k log)) (b + k) m
  within : ∀ e ∈ log, e.1 < ts.length
  leads : w.Leads (log.map Prod.snd) [] m.world

namespace UnderWay

variable {b : Nat} {ts : List Task} {log : List (Nat × Posting)}
  {m n : Scheduler World Publishing} {Q : Job World Publishing → Prop} {A : Posting → Prop}

/-- A step is the turn of the job of one task. -/
theorem step (h : UnderWay b ts w log m) (hq : m.queue ≠ []) : ∃ k t job new,
    ts[k]? = some t ∧ m.jobs[b + k]? = some job ∧ job.Adds t new ∧
    UnderWay b ts w (log ++ numbered k new) m.step := by
  obtain ⟨e, job, p, -, hj, ht, -⟩ := h.sound.step hq
  have hge : b ≤ e.job := by
    by_contra hlt
    have hover := (h.before e.job (by omega)).of_getElem? hj
    simp [ht.moves.not_over] at hover
  obtain ⟨k, hk⟩ := Nat.exists_eq_add_of_le hge
  have hlt : k < ts.length := by
    have := (List.getElem?_eq_some_iff.1 hj).1
    have := h.length
    omega
  have hat := List.getElem?_eq_getElem hlt
  rw [hk] at hj ht
  obtain ⟨hwork, htrack⟩ := (h.jobs k _ hat).of_getElem? hj
  obtain ⟨new, hnew, hl, hadds⟩ := htrack.moves hwork h.leads.ids ht.moves
  refine ⟨k, ts[k], job, new, hat, hj, hadds, ht.sound, ht.length.trans h.length,
    fun j hjb => kept_over.step h.sound (h.before j hjb), fun j u hu => ?_, fun e he => ?_, ?_⟩
  · rw [rowOf_append, rowOf_numbered]
    by_cases hjk : j = k
    · subst hjk
      rw [hat] at hu
      cases hu
      exact ⟨_, ht.moved, hwork, by rwa [if_pos rfl]⟩
    · obtain ⟨other, ho, hw, htr⟩ := h.jobs j u hu
      rw [if_neg hjk, List.append_nil]
      rcases ht.others (b + j) other (by omega) ho with hn | ⟨hqueued, hn⟩
      · exact ⟨other, hn, hw, htr⟩
      · refine ⟨_, hn, hw, ?_⟩
        rw [htr.row_nil (by rw [hqueued]; rfl)]
        exact .unfired rfl
  · rcases List.mem_append.1 he with he | he
    · exact h.within e he
    · obtain ⟨_, -, rfl⟩ := List.mem_map.1 he
      exact hlt
  · rw [List.map_append, snd_numbered]
    exact h.leads.trans hl

/-- All jobs have a property, and what was added to a log has another one. -/
structure Grown (b : Nat) (ts : List Task) (w : World) (log : List (Nat × Posting))
    (Q : Job World Publishing → Prop) (A : Posting → Prop)
    (m : Scheduler World Publishing) : Prop where
  jobs : ∀ k < ts.length, Holds Q (b + k) m
  added : ∃ more, UnderWay b ts w (log ++ more) m ∧ ∀ e ∈ more, A e.2

section Grown

variable (hQ : Steady Q) (hA : ∀ job t new, Q job → job.Adds t new → ∀ p ∈ new, A p)
include hQ hA

/-- What the turn of any job with a steady property adds, a step adds. -/
theorem grown_step (m : Scheduler World Publishing) (h : Grown b ts w log Q A m)
    (hq : m.queue ≠ []) : Grown b ts w log Q A m.step := by
  obtain ⟨more, hm, hmore⟩ := h.added
  obtain ⟨k, t, job, new, hk, hj, hadds, hstep⟩ := hm.step hq
  refine ⟨fun j hlt => hQ.step hm.sound (h.jobs j hlt), more ++ numbered k new, ?_, fun e he => ?_⟩
  · rwa [← List.append_assoc]
  · rcases List.mem_append.1 he with he | he
    · exact hmore e he
    · obtain ⟨p, hp, rfl⟩ := List.mem_map.1 he
      have hlt := (List.getElem?_eq_some_iff.1 hk).1
      exact hA job t new ((h.jobs k hlt).of_getElem? hj) hadds p hp

theorem runWhile (h : UnderWay b ts w log m) (hm : ∀ k < ts.length, Holds Q (b + k) m)
    (go : Scheduler World Publishing → Bool) :
    ∃ more, UnderWay b ts w (log ++ more) (m.runWhile go) ∧ ∀ e ∈ more, A e.2 :=
  (runWhile_induct (grown_step hQ hA) go ⟨hm, [], by rwa [List.append_nil], by simp⟩).added

theorem close (h : UnderWay b ts w log m) (hm : ∀ k < ts.length, Holds Q (b + k) m) :
    ∃ more, UnderWay b ts w (log ++ more) m.close ∧ ∀ e ∈ more, A e.2 := by
  have hc : UnderWay b ts w (log ++ []) { m with threads := [] } := by
    rw [List.append_nil]
    exact ⟨h.sound.unthreaded, h.length, h.before, h.jobs, h.within, h.leads⟩
  exact (close_induct (grown_step hQ hA) ⟨hm, [], hc, by simp⟩).added

end Grown

/-- Being told to stop changes nothing about the posts. -/
theorem told (h : UnderWay b ts w log m) {names : List Nat} (hn : n.Sound) (ht : m.Told names n) :
    UnderWay b ts w log n where
  sound := hn
  length := ht.length.trans h.length
  before k hk := kept_over.told_of ht (h.before k hk)
  jobs k t hk := ht.holds (fun _ hj => hj) (h.jobs k t hk)
  within := h.within
  leads := by rw [ht.world]; exact h.leads

/-- A batch that has just been submitted. -/
theorem of_submitted {s s' : Session} {es : List Event} (h : s.Submitted ts es s')
    (hs : ∀ job ∈ s.scheduler.jobs, job.phase.isOver = true) :
    UnderWay s.scheduler.jobs.length ts s'.world [] s'.scheduler where
  sound := h.sound
  length := h.length
  before k hk := by
    obtain ⟨js, hj, -⟩ := h.jobs
    refine ⟨s.scheduler.jobs[k], ?_, hs _ (List.getElem_mem hk)⟩
    rw [hj, List.getElem?_append_left hk, List.getElem?_eq_getElem hk]
  jobs k t hk := by
    have hlt := (List.getElem?_eq_some_iff.1 hk).1
    have hlt' : s.scheduler.jobs.length + k < s'.scheduler.jobs.length := by
      rw [h.length]
      omega
    have hat := List.getElem?_eq_getElem hlt'
    obtain ⟨u, hu, hn⟩ := h.getElem? hat
    rw [hk] at hu
    cases hu
    obtain ⟨w, hnew⟩ := hn
    exact ⟨_, hat, ⟨w, hnew.work⟩, .unfired hnew.unfired⟩
  within := by simp
  leads := .refl _

/-! ### Jobs and their failures -/

/-- The post of a job that is over and has done its work has ended. -/
theorem finished (h : UnderWay b ts w log m) {k : Nat} (hk : ts[k]? = some t)
    (hj : m.jobs[b + k]? = some job) (hfired : job.phase.hasFired = true)
    (ho : job.phase.isOver = true) : ∃ o,
    job.phase = .ended (.finished (w.answers t o)) ∧
    rowOf k log = [⟨t, .begun⟩, ⟨t, .ended o⟩] := by
  obtain ⟨-, htrack⟩ := (h.jobs k t hk).of_getElem? hj
  generalize job.phase = p at htrack ho hfired
  generalize rowOf k log = row at htrack
  cases htrack with
  | unfired hp => simp [hp] at hfired
  | running => simp [Phase.isOver] at ho
  | finished o => exact ⟨o, rfl, rfl⟩

/-- The post of a task does not begin whose job has not done its work. -/
theorem row_nil (h : UnderWay b ts w log m) {k : Nat} (hk : ts[k]? = some t)
    (hj : Holds (fun job => job.phase.hasFired = false) (b + k) m) : rowOf k log = [] := by
  obtain ⟨job, hjob, hunfired⟩ := hj
  obtain ⟨-, htrack⟩ := (h.jobs k t hk).of_getElem? hjob
  exact htrack.row_nil hunfired

/-- A failed post is known from its job. -/
theorem failure_of_mem (h : UnderWay b ts w log m) {k : Nat} {p : Posting} {f : Failure}
    (hp : (k, p) ∈ log) (hf : p.failure? = some f) : m.failure? (b + k) = some f := by
  obtain ⟨t, hk⟩ : ∃ t, ts[k]? = some t := ⟨_, List.getElem?_eq_getElem (h.within _ hp)⟩
  obtain ⟨job, hj, -, htrack⟩ := h.jobs k t hk
  rw [← mem_rowOf] at hp
  simp only [Scheduler.failure?, Scheduler.future, hj]
  generalize job.phase = phase at htrack
  generalize rowOf k log = row at htrack hp
  cases htrack with
  | unfired => simp at hp
  | running =>
    obtain rfl := List.mem_singleton.1 hp
    simp [Posting.failure?] at hf
  | finished o =>
    have ho : o = .error f := by
      rcases List.mem_cons.1 hp with rfl | hp
      · simp [Posting.failure?] at hf
      · obtain rfl := List.mem_singleton.1 hp
        cases o with
        | ok ref => simp [Posting.failure?] at hf
        | error g => simpa [Posting.failure?] using hf
    subst ho
    rfl

/-- A job that nobody has stopped fails with its post. -/
theorem mem_of_failure (h : UnderWay b ts w log m) {k : Nat} {f : Failure}
    (hk : ts[k]? = some t) (hid : ∃ id, w.adapterId t.adapter = .ok id)
    (hc : Holds Job.Free (b + k) m) (hf : m.failure? (b + k) = some f) :
    (k, ⟨t, .ended (.error f)⟩) ∈ log := by
  obtain ⟨job, hj, hfree⟩ := hc
  obtain ⟨hover, hnot⟩ : job.phase.isOver = true ∧ job.phase ≠ .ended .lost := by
    simp only [Scheduler.failure?, Scheduler.future, hj, hfree.revoked] at hf
    cases hp : job.phase with
    | ended e => cases e <;> simp [hp, Phase.isOver] at hf ⊢
    | _ => simp [hp] at hf
  obtain ⟨o, hp, hrow⟩ := h.finished hk hj ((hfree.ended hover).resolve_right hnot) hover
  obtain ⟨id, hid⟩ := hid
  simp only [Scheduler.failure?, Scheduler.future, hj, hp] at hf
  rw [← mem_rowOf, hrow]
  cases o with
  | ok ref =>
    have ha : w.answers t (.ok ref) = .ok ⟨ref.id, ref.url, t.rule, id⟩ := by
      simp only [World.answers, hid]
      rfl
    simp [ha] at hf
  | error g =>
    obtain rfl : g = f := by simpa [World.answers, Bind.bind, Except.bind] using hf
    simp

/-- Until a post fails none has failed, and the waiting ends with the first one that does. -/
theorem waitFirst (h : UnderWay b ts w [] m) : ∃ log,
    UnderWay b ts w log (m.waitFirst (List.range' b ts.length)) ∧ Halts log := by
  refine runWhile_while (P := fun n => ∃ log, UnderWay b ts w log n ∧ Halts log) ?_
    ⟨[], h, .inl (by simp [Unfailed])⟩
  rintro n ⟨log, hn, -⟩ hgo hq
  have hclean : Unfailed log := by
    rintro ⟨k, p⟩ he
    cases hf : p.failure? with
    | none => rfl
    | some f =>
      have hlt := hn.within _ he
      have hmem : b + k ∈ List.range' b ts.length := by
        rw [List.mem_range'_1]
        dsimp only at hlt
        omega
      have hany : (List.range' b ts.length).any (fun i => (n.failure? i).isSome) = true :=
        List.any_eq_true.2 ⟨b + k, hmem, by rw [hn.failure_of_mem he hf]; rfl⟩
      simp only [hany, Bool.or_true, Bool.not_true, Bool.false_eq_true] at hgo
  obtain ⟨k, t, job, new, -, -, hadds, hstep⟩ := hn.step hq
  exact ⟨_, hstep, halts_append hclean hadds⟩

end UnderWay

end Syndicate
