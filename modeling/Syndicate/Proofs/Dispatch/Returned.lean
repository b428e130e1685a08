import Syndicate.Proofs.Dispatch.Filter
import Syndicate.Proofs.Dispatch.Tally

/-! Batches that return. Every task that verification lets through has been posted once and with
success, and nothing else has been posted. -/

namespace Syndicate

/-- The posts of some tasks in any order: of each task one, which began and came about. -/
def Delivered (ts : List Task) (ps : List Posting) : Prop :=
  ∃ done : List (Task × PostRef), (done.map Prod.fst).Perm ts ∧ ps.Perm (done.flatMap posted)

/-- The tasks that a batch is to publish: all of them, or those whose adapters pass when each is
asked once. -/
def dueOf (verify : Bool) (ts : List Task) (w : World) : List Task :=
  if verify then passing (w.askEach (adaptersOf ts)).1 ts else ts

namespace Session

open Scheduler

variable {s s' : Session} {ts kept : List Task} {name : String} {checks : Checks} {as : Answers}

/-! ### Through the gate -/

/-- A failed verification that cannot be shown ends the batch. -/
theorem check_unshown (h : checks.lookup name = none)
    (hid : ∃ id, s.world.adapterId name = .ok id ∧ id.isShowable = true)
    (hshow : (s.world.ask name).1.isShowable = false) :
    ∃ f s', (check checks name).outcome s = (.error f, s') := by
  have hverdict := outcome_verdictOf s name
  have hids := (World.leads_verify s.world name).ids
  simp only [World.ask] at hshow
  rw [check, h]
  generalize (World.at_ name Station.verify).outcome s.world = r at hverdict hids hshow
  obtain ⟨o, w⟩ := r
  dsimp only at hverdict hids hshow
  cases hanswer : Answer.of o with
  | passed => rw [hanswer] at hshow; cases hshow
  | lacking f => rw [hanswer] at hshow; cases hshow
  | failed cause =>
    rw [hanswer] at hverdict hshow
    obtain ⟨id, hid, -⟩ := hid
    have hadapter := outcome_adapterId (s.setWorld w) name
    rw [show (s.setWorld w).world.adapterId name = .ok id from (hids name).trans hid] at hadapter
    have hevent : (Event.verifyFailed id cause).isShowable = false := by
      simp only [Event.isShowable, Bool.and_eq_false_iff]
      exact .inr hshow
    have hemit := outcome_emit (s.setWorld w) (.verifyFailed id cause)
    rw [if_neg (by rw [hevent]; decide)] at hemit
    refine ⟨.fault .tooManyDigits, s.setWorld w, ?_⟩
    rw [Act.outcome_bind_ok hverdict]
    dsimp only
    rw [Act.outcome_bind_ok hadapter, Act.outcome_bind_error hemit]

/-- If all adapters could be checked, those that failed can be told of. -/
theorem showable_of_checkAll (hr : ∀ t ∈ ts, s.world.Reportable t) {found : Checks}
    (h : (checkAll as.checks ts).outcome s = (.ok found, s')) :
    ∀ a ∈ (s.world.askEach (unasked as ts)).1, a.2.isShowable = true := by
  induction ts generalizing s as with
  | nil => exact fun a ha => absurd ha List.not_mem_nil
  | cons t ts ih =>
    obtain ⟨ht, hr⟩ := List.forall_mem_cons.1 hr
    rw [checkAll] at h
    cases hl : as.lookup t.adapter with
    | some answer =>
      have hknown : as.checks.lookup t.adapter = some answer.isPassed := by
        rw [as.lookup_checks, hl]
        rfl
      rw [unasked_cons_known (by rw [hl]; rfl)]
      rw [Act.outcome_bind_ok (check_known hknown)] at h
      exact ih hr h
    | none =>
      have hnew : as.checks.lookup t.adapter = none := by
        rw [as.lookup_checks, hl]
        rfl
      cases hshow : (s.world.ask t.adapter).1.isShowable with
      | false =>
        obtain ⟨f, s₁, hcheck⟩ := check_unshown hnew ht.id hshow
        rw [Act.outcome_bind_error hcheck] at h
        cases h
      | true =>
        have hcheck := check_new hnew ht.id hshow
        rw [unasked_cons_new hl (s.world.ask t.adapter).1, World.askEach_cons]
        cases hlacking : (s.world.ask t.adapter).1.lacking? with
        | some f =>
          rw [hlacking] at hcheck
          rw [Act.outcome_bind_error hcheck] at h
          cases h
        | none =>
          rw [hlacking] at hcheck
          rw [Act.outcome_bind_ok hcheck] at h
          have hchecks : (as ++ [(t.adapter, (s.world.ask t.adapter).1)]).checks =
              as.checks ++ [(t.adapter, (s.world.ask t.adapter).1.isPassed)] := List.map_append
          rw [← hchecks] at h
          have hrest := ih (s := s.setWorld (s.world.ask t.adapter).2)
            (fun u hu => (World.reportable_congr (s.world.ask_leads _).ids u).2 (hr u hu)) h
          simp only [Option.isSome_none, Bool.false_eq_true, ↓reduceIte, List.forall_mem_cons]
          exact ⟨hshow, hrest⟩

/-- A gate that lets tasks through lets through those whose adapters pass. -/
theorem gate_ok (hr : ∀ t ∈ ts, s.world.Reportable t)
    (h : (gate ts).outcome s = (.ok kept, s')) :
    kept = passing (s.world.askEach (adaptersOf ts)).1 ts := by
  have hshow : ∀ a ∈ (s.world.askEach (adaptersOf ts)).1, a.2.isShowable = true := by
    have hnone : ∀ {found u}, (checkAll (Answers.checks []) ts).outcome s = (.ok found, u) → _ :=
      showable_of_checkAll hr
    rw [← unasked_nil]
    cases hc : (checkAll [] ts).outcome s with
    | mk o s₁ =>
      cases o with
      | ok found => exact hnone hc
      | error f =>
        rw [gate, Act.outcome_bind_error hc] at h
        cases h
  have hgate := gate_eq hr hshow
  dsimp only at hgate
  rw [h] at hgate
  split at hgate
  · cases hgate
  · exact Except.ok.inj (Prod.mk.inj hgate).1

/-! ### What was posted -/

theorem immediate_append_deferred (ts : List Task) :
    (immediateOf ts ++ deferredOf ts).Perm ts := List.filter_append_perm _ ts

/-- The deferred tasks of a batch that returns. -/
theorem deferred_delivers (hl : s.lane ≠ .inline) (hi : s.scheduler.Idle)
    {later : List Publishing}
    (ho : (withOwnScheduler (publishDeferred ts)).outcome s = (.ok later, s')) :
    s'.scheduler.Idle ∧ ∃ done : List (Task × PostRef), done.map Prod.fst = ts ∧
      ∃ ps, s.world.Course ps s'.world ∧ ps.Perm (done.flatMap posted) := by
  obtain ⟨-, -, w, log, done, hw, hunder, hdone, hrows, hidle, -⟩ := deferred_ok hl hi ho
  have hlt : ∀ e ∈ log, e.1 < done.length := by
    intro e he
    have hlt := hunder.within e he
    rwa [← hdone, List.length_map] at hlt
  have hcourse : s.world.Course _ s'.world := (hw.trans hunder.leads).course
  exact ⟨hidle, done, hdone, log.map Prod.snd, by simpa using hcourse, perm_rows hlt hrows⟩

/-- A batch without verification that returns. -/
theorem delivers_all (hl : s.lane ≠ .inline) (hi : s.scheduler.Idle) {results : List Publishing}
    (h : (execute false ts).outcome s = (.ok results, s')) :
    s'.scheduler.Idle ∧ ∃ ps, s.world.Course ps s'.world ∧ Delivered ts ps := by
  rcases upToLane_ends hi false ts with ⟨now, es, s₁, hr, -⟩ | ⟨f, ps, es, s₁, -, -, -, -, ho⟩
  · have hnow : now.map Prod.fst = immediateOf ts := hr.immediate
    have hsplit := immediate_append_deferred ts
    by_cases hd : deferredOf ts = []
    · rw [hr.execute_alone hd] at h
      obtain rfl := (Prod.mk.inj h).2
      refine ⟨hr.stays.idle hi, now.flatMap posted, hr.leads.course, now, ?_, .refl _⟩
      rw [hnow]
      rwa [hd, List.append_nil] at hsplit
    · cases hlane : (withOwnScheduler (publishDeferred (deferredOf ts))).outcome s₁ with
      | mk o s₂ =>
        cases o with
        | error f =>
          rw [hr.execute_error hd hlane] at h
          cases h
        | ok later =>
          obtain ⟨hidle, done, hdone, ps, hps, hperm⟩ :=
            deferred_delivers (hr.stays.lane ▸ hl) (hr.stays.idle hi) hlane
          obtain ⟨w, es', hw, hleads⟩ := afterLane_talks_of
            (r := (now.map s.world.publishing, deferredOf ts)) hd hlane
          have hend : s' = s₂.setWorld w := by
            rw [hr.execute_rest] at h
            rw [← hw]
            exact (congrArg Prod.snd h).symm
          rw [hend]
          refine ⟨⟨hidle.queue, hidle.ended, hidle.pending, hidle.slots⟩,
            now.flatMap posted ++ ps, ?_, now ++ done, ?_, ?_⟩
          · have hcourse : s.world.Course _ (s₂.setWorld w).world :=
              (hr.leads.course.trans hps).trans hleads.course
            rwa [List.append_nil] at hcourse
          · rw [List.map_append, hnow, hdone]
            exact hsplit
          · rw [List.flatMap_append]
            exact hperm.append_left _
  · rw [execute_eq, Act.outcome_bind_error ho] at h
    cases h

/-- A batch that returns has posted what it is to publish, each task once, and nothing else. -/
theorem execute_delivers (hl : s.lane ≠ .inline) (hi : s.scheduler.Idle) {verify : Bool}
    (hr : ∀ t ∈ ts, s.world.Reportable t) {results : List Publishing}
    (h : (execute verify ts).outcome s = (.ok results, s')) :
    s'.scheduler.Idle ∧ ∃ ps, s.world.Course ps s'.world ∧
      Delivered (dueOf verify ts s.world) ps := by
  cases verify with
  | false => exact delivers_all hl hi h
  | true =>
    cases hgate : (gate ts).outcome s with
    | mk o s₀ =>
      cases o with
      | error f =>
        have herror : (execute true ts).outcome s = (.error f, s₀) := Act.outcome_bind_error hgate
        rw [herror] at h
        cases h
      | ok kept =>
        have htalks := keptBy_talks true ts s
        rw [show (keptBy true ts).outcome s = _ from hgate] at htalks
        obtain ⟨w, es, rfl, hleads⟩ := htalks
        have hrest : (execute true ts).outcome s = (execute false kept).outcome (s.setWorld w) :=
          Act.outcome_bind_ok hgate
        rw [hrest] at h
        obtain ⟨hidle, ps, hps, hdone⟩ := delivers_all (s := s.setWorld w) hl
          ⟨hi.queue, hi.ended, hi.pending, hi.slots⟩ h
        rw [dueOf, if_pos rfl, ← gate_ok hr hgate]
        exact ⟨hidle, ps, hleads.course.trans hps, hdone⟩

end Session

end Syndicate
