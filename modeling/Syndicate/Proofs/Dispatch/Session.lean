import Syndicate.Proofs.Dispatch.World
import Syndicate.Proofs.Scheduler.Run

/-! What the parts of a batch do to a session. Verifying and reporting only let the world move on,
publishing at once lets time pass as well, and submitting adds one job for each task. -/

namespace Syndicate

open Scheduler

namespace Session

variable {s s' s'' : Session} {α : Type}

/-! ### Talking -/

/-- Only the world has moved on, and no post has got anywhere. -/
def Talks (s s' : Session) : Prop := ∃ w es, s' = s.setWorld w ∧ s.world.Leads [] es w

theorem Talks.refl (s : Session) : s.Talks s := ⟨s.world, [], rfl, .refl _⟩

theorem Talks.trans (s t u : Session) (h : s.Talks t) (h' : t.Talks u) : s.Talks u := by
  obtain ⟨w, es, rfl, hw⟩ := h
  obtain ⟨w', es', rfl, hw'⟩ := h'
  exact ⟨w', es ++ es', rfl, hw.trans hw'⟩

open Act (Keeps)

theorem outcome_emit (s : Session) (e : Event) : (emit e).outcome s =
    if e.isShowable then (.ok (), s.setWorld (s.world.emit e))
    else (faulty .tooManyDigits, s) := by
  unfold emit
  split <;> rfl

theorem emit_talks (e : Event) : Keeps Talks (emit e) := by
  intro s
  rw [outcome_emit]
  split
  · exact ⟨_, [e], rfl, World.leads_emit _ e⟩
  · exact Talks.refl s

theorem write_talks {r : Record} (h : r.source ≠ "core.diagnostics") : Keeps Talks (write r) :=
  fun s => ⟨_, [], rfl, World.leads_write s.world h⟩

theorem outcome_adapterId (s : Session) (name : String) :
    (adapterId name).outcome s = (s.world.adapterId name, s) := by
  rw [adapterId, Act.outcome_bind_ok (Act.outcome_get s), Act.outcome_ofOutcome]

/-! ### Verifying

Verification tells of adapters that fail and of tasks that are dropped, and of nothing else. -/

/-- Only the world has moved on, no post has got anywhere, and what was told are warnings. -/
def Warns (s s' : Session) : Prop :=
  ∃ w es, s' = s.setWorld w ∧ s.world.Leads [] es w ∧ ∀ e ∈ es, e.isWarning = true

theorem Warns.refl (s : Session) : s.Warns s := ⟨s.world, [], rfl, .refl _, by simp⟩

theorem Warns.trans (s t u : Session) (h : s.Warns t) (h' : t.Warns u) : s.Warns u := by
  obtain ⟨w, es, rfl, hw, he⟩ := h
  obtain ⟨w', es', rfl, hw', he'⟩ := h'
  refine ⟨w', es ++ es', rfl, hw.trans hw', fun e hmem => ?_⟩
  rcases List.mem_append.1 hmem with hmem | hmem
  · exact he e hmem
  · exact he' e hmem

theorem Warns.talks (h : s.Warns s') : s.Talks s' := by
  obtain ⟨w, es, hs, hw, -⟩ := h
  exact ⟨w, es, hs, hw⟩

theorem emit_warns {e : Event} (h : e.isWarning = true) : Keeps Warns (emit e) := by
  intro s
  rw [outcome_emit]
  split
  · exact ⟨_, [e], rfl, World.leads_emit _ e, by simpa using h⟩
  · exact Warns.refl s

theorem adapterId_warns (name : String) : Keeps Warns (adapterId name) :=
  Keeps.bind Warns.trans (Keeps.get Warns.refl) fun _ => Keeps.ofOutcome Warns.refl _

theorem verdictOf_warns (name : String) : Keeps Warns (verdictOf name) := by
  intro s
  have h : s.Warns ((inWorld (World.at_ name Station.verify)).outcome s).2 := by
    rw [inWorld, Act.outcome_within]
    exact ⟨_, [], rfl, World.leads_verify _ name, by simp⟩
  simp only [Act.outcome, verdictOf, EStateM.run] at h ⊢
  cases hr : inWorld (World.at_ name Station.verify) s with
  | ok v t => rw [hr] at h; exact h
  | error f t =>
    rw [hr] at h
    by_cases hf : f.isNotImplemented = true
    · simp only [hf, ↓reduceIte]; exact h
    · simp only [hf, ↓reduceIte, Bool.false_eq_true]; exact h

theorem check_warns (checks : Checks) (name : String) : Keeps Warns (check checks name) := by
  unfold check
  split
  · exact Keeps.pure Warns.refl _
  · refine Keeps.bind Warns.trans (verdictOf_warns name) fun verdict => ?_
    split
    · exact Keeps.pure Warns.refl _
    · refine Keeps.bind Warns.trans (adapterId_warns name) fun id => ?_
      exact Keeps.bind Warns.trans (emit_warns rfl) fun _ => Keeps.pure Warns.refl _

theorem checkAll_warns (checks : Checks) (ts : List Task) : Keeps Warns (checkAll checks ts) := by
  induction ts generalizing checks with
  | nil => exact Keeps.pure Warns.refl _
  | cons t ts ih => exact Keeps.bind Warns.trans (check_warns checks _) fun r => ih r.2

theorem survivors_warns (checks : Checks) (ts : List Task) :
    Keeps Warns (survivors checks ts) := by
  induction ts generalizing checks with
  | nil => exact Keeps.pure Warns.refl _
  | cons t ts ih =>
    refine Keeps.bind Warns.trans (check_warns checks _) fun r => ?_
    obtain ⟨passed, checks⟩ := r
    dsimp only
    split
    · exact Keeps.bind Warns.trans (ih checks) fun _ => Keeps.pure Warns.refl _
    · refine Keeps.bind Warns.trans (adapterId_warns _) fun id => ?_
      exact Keeps.bind Warns.trans (emit_warns rfl) fun _ => ih checks

/-- The tasks that a batch goes on with: all, or those whose adapters pass. -/
def keptBy (verify : Bool) (ts : List Task) : Act Session (List Task) :=
  if verify then gate ts else pure ts

theorem keptBy_warns (verify : Bool) (ts : List Task) : Keeps Warns (keptBy verify ts) := by
  cases verify with
  | false => exact Keeps.pure Warns.refl _
  | true => exact Keeps.bind Warns.trans (checkAll_warns [] ts) fun cs => survivors_warns cs ts

theorem keptBy_talks (verify : Bool) (ts : List Task) : Keeps Talks (keptBy verify ts) :=
  fun s => (keptBy_warns verify ts s).talks

/-! ### Reporting -/

theorem report_talks (p : Publishing) : Keeps Talks (report p) := emit_talks _

theorem reportAll_talks (ps : List Publishing) : Keeps Talks (reportAll ps) := by
  induction ps with
  | nil => exact Keeps.pure Talks.refl _
  | cons p ps ih => exact Keeps.bind Talks.trans (report_talks p) fun _ => ih

/-! ### Letting time pass -/

/-- The scheduler has taken on no job, and nothing else but the world has changed. -/
structure Evolves (s s' : Session) : Prop where
  lane : s'.lane = s.lane
  ops : ∃ ops : List (Op World Publishing), (∀ op ∈ ops, op.submits = false) ∧
    s'.scheduler = s.scheduler.run ops

theorem Evolves.refl (s : Session) : s.Evolves s := ⟨rfl, [], by simp, rfl⟩

theorem Evolves.trans (s t u : Session) (h : s.Evolves t) (h' : t.Evolves u) : s.Evolves u := by
  obtain ⟨hl, ops, ho, hm⟩ := h
  obtain ⟨hl', ops', ho', hm'⟩ := h'
  refine ⟨hl'.trans hl, ops ++ ops', fun op hop => ?_, ?_⟩
  · rcases List.mem_append.1 hop with hop | hop
    · exact ho op hop
    · exact ho' op hop
  · rw [hm', hm, run, run, run, List.foldl_append]

theorem evolves_setWorld (s : Session) (w : World) : s.Evolves (s.setWorld w) :=
  ⟨rfl, [.act fun _ => w], by simp [Op.submits], rfl⟩

theorem Talks.evolves (h : s.Talks s') : s.Evolves s' := by
  obtain ⟨w, -, rfl, -⟩ := h
  exact evolves_setWorld s w

theorem publishNow_evolves (t : Task) : Keeps Evolves (publishNow t) := by
  refine Keeps.bind Evolves.trans (Keeps.modify fun s => evolves_setWorld s _) fun _ => ?_
  refine Keeps.bind Evolves.trans (Keeps.modify fun s => ?_) fun _ => ?_
  · cases hr : s.world.time? t.adapter with
    | none => exact Evolves.refl s
    | some n => exact ⟨rfl, [.advance n], by simp [Op.submits], rfl⟩
  · refine Keeps.bind Evolves.trans (Keeps.get Evolves.refl) fun s => ?_
    intro t
    rw [inWorld, Act.outcome_within]
    exact evolves_setWorld t _

theorem publishEach_evolves (ts : List Task) : Keeps Evolves (publishEach ts) := by
  induction ts with
  | nil => exact Keeps.pure Evolves.refl _
  | cons t ts ih =>
    refine Keeps.bind Evolves.trans (publishNow_evolves t) fun p => ?_
    refine Keeps.bind Evolves.trans (fun s => (report_talks p s).evolves) fun _ => ?_
    exact Keeps.bind Evolves.trans ih fun _ => Keeps.pure Evolves.refl _

end Session

end Syndicate
