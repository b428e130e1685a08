import Syndicate.Proofs.Dispatch.Deferred

/-! The immediate tasks of a batch, when nothing else is under way: each post begins and ends in
its turn, and the first failure is the last post. -/

namespace Syndicate

open Scheduler

/-- The event that a task was published. -/
def Publishing.event (p : Publishing) : Event :=
  .taskPublished p.rule p.adapterId (if p.url.truthy then p.url else p.id)

/-- What is known of a task can be shown: its rule, and the id of its adapter, which has one. -/
structure World.Reportable (w : World) (t : Task) : Prop where
  rule : t.rule.isShowable = true
  id : ∃ id, w.adapterId t.adapter = .ok id ∧ id.isShowable = true

theorem World.reportable_congr {w w' : World} (h : ∀ name, w'.adapterId name = w.adapterId name)
    (t : Task) : w'.Reportable t ↔ w.Reportable t := by
  constructor
  · intro ht
    obtain ⟨id, hid, hs⟩ := ht.id
    exact ⟨ht.rule, id, (h _).symm.trans hid, hs⟩
  · intro ht
    obtain ⟨id, hid, hs⟩ := ht.id
    exact ⟨ht.rule, id, (h _).trans hid, hs⟩

theorem World.Reportable.event {w : World} {t : Task} (h : w.Reportable t) {ref : PostRef}
    (hr : ref.IsPlain) : (w.publishing (t, ref)).event.isShowable = true := by
  obtain ⟨id, hid, hs⟩ := h.id
  have hidof : w.idOf t.adapter = id := by
    simp only [World.idOf, hid]
    rfl
  have hpost : (if ref.url.truthy then ref.url else ref.id).isShowable = true := by
    split
    · exact hr.url
    · exact hr.id
  simp only [Publishing.event, World.publishing, Event.isShowable, h.rule, hidof, hs, hpost,
    Bool.and_self]

theorem World.Reportable.announceable_iff {w : World} {t : Task} (h : w.Reportable t) :
    (w.scheduling t).isShowable = true ↔ (Value.int t.delay).isShowable = true := by
  obtain ⟨id, hid, hs⟩ := h.id
  have hidof : w.idOf t.adapter = id := by
    simp only [World.idOf, hid]
    rfl
  simp only [World.scheduling, Event.isShowable, h.rule, hidof, hs, Bool.true_and]

/-- A reportable task that can be submitted is refused only if its delay cannot be written down. -/
theorem World.Reportable.admission_iff {w : World} {t : Task} {settings : Settings}
    (h : w.Reportable t) (hs : ∃ wait, settings.wait t.delay = .ok wait) :
    w.admission settings t = .ok () ↔ (Value.int t.delay).isShowable = true := by
  obtain ⟨id, hid, -⟩ := h.id
  obtain ⟨wait, hwait⟩ := hs
  rw [← h.announceable_iff]
  unfold World.admission
  rw [hid, hwait]
  by_cases hshow : (w.scheduling t).isShowable = true
  · exact iff_of_true (if_pos hshow) hshow
  · refine iff_of_false (fun h => ?_) hshow
    cases (if_neg hshow).symm.trans h

namespace Session

variable {s s' s'' : Session} {t : Task} {ts : List Task}

/-- Time has passed and the world has moved on, and nothing else has changed. -/
structure Stays (s s' : Session) : Prop where
  lane : s'.lane = s.lane
  scheduler : ∃ clock w, s'.scheduler = { s.scheduler with clock := clock, world := w }

theorem Stays.refl (s : Session) : s.Stays s := ⟨rfl, s.scheduler.clock, s.scheduler.world, rfl⟩

theorem Stays.trans (h : s.Stays s') (h' : s'.Stays s'') : s.Stays s'' := by
  obtain ⟨clock, w, hm⟩ := h.scheduler
  obtain ⟨clock', w', hm'⟩ := h'.scheduler
  exact ⟨h'.lane.trans h.lane, clock', w', by rw [hm', hm]⟩

theorem Stays.queue (h : s.Stays s') : s'.scheduler.queue = s.scheduler.queue := by
  obtain ⟨clock, w, hm⟩ := h.scheduler
  rw [hm]

theorem Stays.idle (h : s.Stays s') (hi : s.scheduler.Idle) : s'.scheduler.Idle := by
  obtain ⟨clock, w, hm⟩ := h.scheduler
  rw [hm]
  exact ⟨hi.queue, hi.ended, hi.pending, hi.slots⟩

theorem stays_setWorld (s : Session) (w : World) : s.Stays (s.setWorld w) :=
  ⟨rfl, s.scheduler.clock, w, rfl⟩

theorem Talks.stays (h : s.Talks s') : s.Stays s' := by
  obtain ⟨w, -, rfl, -⟩ := h
  exact stays_setWorld s w

/-- A sleep in which nothing is due. -/
theorem sleep_of_queue_nil {m : Scheduler World Publishing} (hq : m.queue = [])
    (time : Option Nat) : ∃ clock, m.sleep time = { m with clock := clock } := by
  cases time with
  | none => exact ⟨m.clock, rfl⟩
  | some n =>
    have hrun : m.runWhile (isDueBy (m.clock + n)) = m := runWhile_induct (P := fun k => k = m)
      (fun k hk hne => absurd (hk ▸ hq) hne) _ rfl
    exact ⟨m.clock + n, by rw [sleep, advance, hrun]⟩

/-- A post outside of any job. -/
theorem publishNow_stays (hq : s.scheduler.queue = []) (t : Task) : ∃ o s',
    (publishNow t).outcome s = (s.world.answers t o, s') ∧ s.Stays s' ∧
    s.world.Leads [⟨t, .begun⟩, ⟨t, .ended o⟩] [] s'.world := by
  let s₁ := s.setWorld (s.world.begin t)
  obtain ⟨clock, hsleep⟩ := sleep_of_queue_nil (m := s₁.scheduler) hq (s₁.world.time? t.adapter)
  let s₂ := s₁.setScheduler (s₁.scheduler.sleep (s₁.world.time? t.adapter))
  let s₃ := s₂.setWorld ((World.publish t s₂.scheduler.clock).outcome s₂.world).2
  have hw : s₂.world = s.world.begin t := by
    show (s₁.scheduler.sleep (s₁.world.time? t.adapter)).world = _
    rw [hsleep]
    rfl
  have hstays : s.Stays s₃ := by
    refine ⟨rfl, clock, s₃.world, ?_⟩
    show { s₁.scheduler.sleep (s₁.world.time? t.adapter) with world := s₃.world } = _
    rw [hsleep]
    rfl
  have hbegin : s.world.Leads [⟨t, .begun⟩] [] s₂.world := by
    rw [hw]
    exact World.leads_begin s.world t
  obtain ⟨o, hanswer, hl⟩ := World.publish_leads s₂.world t s₂.scheduler.clock
  refine ⟨o, s₃, ?_, hstays, hbegin.trans hl⟩
  rw [publishNow, Act.outcome_bind_ok (Act.outcome_modify s _),
    Act.outcome_bind_ok (Act.outcome_modify s₁ _), Act.outcome_bind_ok (Act.outcome_get s₂),
    inWorld, Act.outcome_within, ← World.answers_congr hbegin.ids, ← hanswer]

theorem report_ok {p : Publishing} (h : p.event.isShowable = true) :
    (report p).outcome s = (.ok (), s.setWorld (s.world.emit p.event)) := by
  have he := outcome_emit s p.event
  rw [if_pos h] at he
  exact he

theorem report_error {p : Publishing} (h : p.event.isShowable = false) :
    (report p).outcome s = (faulty .tooManyDigits, s) := by
  have he := outcome_emit s p.event
  rw [h] at he
  exact he

/-- Publishing a task at once and reporting it. -/
def publishOne (t : Task) : Act Session Publishing := do
  let p ← publishNow t
  report p
  pure p

theorem publishEach_cons (t : Task) (ts : List Task) : publishEach (t :: ts) =
    publishOne t >>= fun p => publishEach ts >>= fun ps => pure (p :: ps) := by
  rw [publishEach, publishOne, bind_assoc]
  congr 1
  funext p
  rw [bind_assoc]
  rfl

/-- One immediate post comes about and is reported, or is followed by an error, which is its
failure if it has failed. -/
theorem publishOne_ends (hq : s.scheduler.queue = []) (t : Task) : ∃ s', s.Stays s' ∧
    ((∃ ref, (publishOne t).outcome s = (.ok (s.world.publishing (t, ref)), s') ∧
        s.world.Leads (posted (t, ref)) [(s.world.publishing (t, ref)).event] s'.world) ∨
      ∃ o f, (publishOne t).outcome s = (.error f, s') ∧
        s.world.Leads [⟨t, .begun⟩, ⟨t, .ended o⟩] [] s'.world ∧
        (o = .error f ∨ (∃ ref, o = .ok ref) ∧ ¬ s.world.Reportable t)) := by
  obtain ⟨o, s₁, ho, hstays, hl⟩ := publishNow_stays hq t
  cases o with
  | error f => exact ⟨s₁, hstays, .inr ⟨.error f, f, Act.outcome_bind_error ho, hl, .inl rfl⟩⟩
  | ok ref =>
    have hplain : ref.IsPlain := hl.plain ⟨t, .ended (.ok ref)⟩ (by simp) ref rfl
    cases hid : s.world.adapterId t.adapter with
    | error f =>
      have ha : s.world.answers t (.ok ref) = .error f := by
        simp only [World.answers, hid]
        rfl
      rw [ha] at ho
      refine ⟨s₁, hstays, .inr ⟨.ok ref, f, Act.outcome_bind_error ho, hl, .inr ⟨⟨ref, rfl⟩, ?_⟩⟩⟩
      intro hr
      obtain ⟨id, hid', -⟩ := hr.id
      rw [hid] at hid'
      cases hid'
    | ok id =>
      rw [World.answers_ok ⟨id, hid⟩] at ho
      cases hs : (s.world.publishing (t, ref)).event.isShowable with
      | false =>
        have hr : (publishOne t).outcome s = (.error (.fault .tooManyDigits), s₁) := by
          rw [publishOne, Act.outcome_bind_ok ho]
          exact Act.outcome_bind_error (report_error hs)
        refine ⟨s₁, hstays, .inr ⟨.ok ref, _, hr, hl, .inr ⟨⟨ref, rfl⟩, ?_⟩⟩⟩
        intro hr
        simp [hr.event hplain] at hs
      | true =>
        refine ⟨s₁.setWorld (s₁.world.emit (s.world.publishing (t, ref)).event),
          hstays.trans (stays_setWorld s₁ _), .inl ⟨ref, ?_, ?_⟩⟩
        · rw [publishOne, Act.outcome_bind_ok ho, Act.outcome_bind_ok (report_ok hs)]
          rfl
        · exact hl.trans (World.leads_emit s₁.world (s.world.publishing (t, ref)).event)

/-- Immediate posts: all of them come about, or the last one is followed by an error. -/
theorem publishEach_ends (hq : s.scheduler.queue = []) (ts : List Task) : ∃ s', s.Stays s' ∧
    ((∃ done : List (Task × PostRef), done.map Prod.fst = ts ∧
        (publishEach ts).outcome s = (.ok (done.map s.world.publishing), s') ∧
        s.world.Leads (done.flatMap posted) (done.map fun r => (s.world.publishing r).event)
          s'.world) ∨
      ∃ (done : List (Task × PostRef)) (t : Task) (rest : List Task) (o : Outcome PostRef)
        (f : Failure), ts = done.map Prod.fst ++ t :: rest ∧
        (publishEach ts).outcome s = (.error f, s') ∧
        s.world.Leads (done.flatMap posted ++ [⟨t, .begun⟩, ⟨t, .ended o⟩])
          (done.map fun r => (s.world.publishing r).event) s'.world ∧
        (o = .error f ∨ (∃ ref, o = .ok ref) ∧ ¬ s.world.Reportable t)) := by
  induction ts generalizing s with
  | nil => exact ⟨s, .refl s, .inl ⟨[], rfl, rfl, .refl _⟩⟩
  | cons t ts ih =>
    obtain ⟨s₁, hstays, ⟨ref, ho, hl⟩ | ⟨o, f, ho, hl, hlast⟩⟩ := publishOne_ends hq t
    · have hpub : s₁.world.publishing = s.world.publishing := World.publishing_congr hl.ids
      obtain ⟨s', hstays', hrest⟩ := ih (s := s₁) (hstays.queue.trans hq)
      refine ⟨s', hstays.trans hstays', ?_⟩
      rw [publishEach_cons, Act.outcome_bind_ok ho]
      rcases hrest with ⟨done, rfl, ho', hl'⟩ | ⟨done, u, rest, o, f, rfl, ho', hl', hlast⟩
      · rw [hpub] at hl' ho'
        refine .inl ⟨(t, ref) :: done, rfl, ?_, hl.trans hl'⟩
        rw [Act.outcome_bind_ok ho']
        rfl
      · rw [World.reportable_congr hl.ids] at hlast
        rw [hpub] at hl'
        refine .inr ⟨(t, ref) :: done, u, rest, o, f, rfl, ?_, hl.trans hl', hlast⟩
        rw [Act.outcome_bind_error ho']
    · refine ⟨s₁, hstays, .inr ⟨[], t, ts, o, f, rfl, ?_, hl, hlast⟩⟩
      rw [publishEach_cons, Act.outcome_bind_error ho]

/-- All that was published can be reported. -/
theorem reportAll_ok {ps : List Publishing} (h : ∀ p ∈ ps, p.event.isShowable = true) : ∃ w,
    (reportAll ps).outcome s = (.ok (), s.setWorld w) ∧
    s.world.Leads [] (ps.map Publishing.event) w := by
  induction ps generalizing s with
  | nil => exact ⟨s.world, rfl, .refl _⟩
  | cons p ps ih =>
    obtain ⟨w, ho, hl⟩ := ih (s := s.setWorld (s.world.emit p.event)) fun q hq =>
      h q (List.mem_cons_of_mem _ hq)
    refine ⟨w, ?_, (World.leads_emit s.world p.event).trans hl⟩
    rw [reportAll, Act.outcome_bind_ok (report_ok (h p List.mem_cons_self)), ho]
    rfl

end Session

end Syndicate
