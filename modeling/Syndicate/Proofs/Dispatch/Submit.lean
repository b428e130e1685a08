import Mathlib.Data.List.Forall2
import Syndicate.Proofs.Dispatch.Session

/-! Submitting the deferred tasks of a batch. A task is announced and then becomes a job; the first
that cannot be announced or submitted ends the submitting, and the jobs before it stay. -/

namespace Syndicate

open Scheduler

theorem forall₂_getElem? {α β : Type} {R : α → β → Prop} {l : List α} {l' : List β}
    (h : List.Forall₂ R l l') {j : Nat} {b : β} (hb : l'[j]? = some b) :
    ∃ a, l[j]? = some a ∧ R a b := by
  induction h generalizing j with
  | nil => simp at hb
  | cons hr _ ih =>
    cases j with
    | zero =>
      obtain rfl := Option.some.inj hb
      exact ⟨_, rfl, hr⟩
    | succ j => exact ih hb

namespace World

/-- The id of an adapter, null when it has none. -/
def idOf (w : World) (name : String) : Value := (w.adapterId name).toOption.getD .null

/-- The event that a task is scheduled. -/
def scheduling (w : World) (t : Task) : Event := .taskScheduled t.rule (w.idOf t.adapter) t.delay

/-- Whether a task can be announced and submitted, or what comes of it instead. -/
def admission (w : World) (settings : Settings) (t : Task) : Outcome Unit :=
  match w.adapterId t.adapter with
  | .error f => .error f
  | .ok _ =>
    if (w.scheduling t).isShowable then
      match settings.wait t.delay with
      | .error f => .error f
      | .ok _ => .ok ()
    else faulty .tooManyDigits

theorem scheduling_congr {w w' : World} (h : ∀ name, w'.adapterId name = w.adapterId name) :
    w'.scheduling = w.scheduling := by
  funext t
  simp only [scheduling, idOf, h]

theorem admission_congr {w w' : World} (h : ∀ name, w'.adapterId name = w.adapterId name)
    (settings : Settings) (t : Task) : w'.admission settings t = w.admission settings t := by
  simp only [admission, scheduling, idOf, h]
  rfl

end World

namespace Session

variable {s s' s'' : Session} {t : Task} {ts ts' : List Task} {es es' : List Event}

/-- The job of a task that has just been taken on. -/
def IsNew (settings : Settings) (t : Task) (job : Job World Publishing) : Prop :=
  ∃ w : World, job.IsNew settings (w.work t) t.delay

/-- Tasks have become jobs, in their order, and some events were told. -/
structure Submitted (s : Session) (ts : List Task) (es : List Event) (s' : Session) : Prop where
  lane : s'.lane = s.lane
  sound : s'.scheduler.Sound
  settings : s'.scheduler.settings = s.scheduler.settings
  jobs : ∃ js, s'.scheduler.jobs = s.scheduler.jobs ++ js ∧ List.Forall₂ (IsNew s.scheduler.settings) ts js
  threads : s'.scheduler.threads =
    s.scheduler.threads ++ List.range' s.scheduler.jobs.length ts.length
  leads : s.world.Leads [] es s'.world

theorem Submitted.length (h : s.Submitted ts es s') :
    s'.scheduler.jobs.length = s.scheduler.jobs.length + ts.length := by
  obtain ⟨js, hj, hn⟩ := h.jobs
  rw [hj, List.length_append, hn.length_eq]

theorem Submitted.refl (h : s.scheduler.Sound) : s.Submitted [] [] s :=
  ⟨rfl, h, rfl, ⟨[], by simp, .nil⟩, by simp, .refl _⟩

theorem Submitted.trans (h : s.Submitted ts es s') (h' : s'.Submitted ts' es' s'') :
    s.Submitted (ts ++ ts') (es ++ es') s'' := by
  obtain ⟨js, hj, hn⟩ := h.jobs
  obtain ⟨js', hj', hn'⟩ := h'.jobs
  rw [h.settings] at hn'
  refine ⟨h'.lane.trans h.lane, h'.sound, h'.settings.trans h.settings,
    ⟨js ++ js', ?_, List.rel_append hn hn'⟩, ?_, ?_⟩
  · rw [hj', hj, List.append_assoc]
  · rw [h'.threads, h.threads, h.length, List.length_append, List.append_assoc,
      List.range'_append_1]
  · have := h.leads.trans h'.leads
    simpa using this

/-- What is told in between adds no job. -/
theorem Submitted.of_leads {w : World} (hs : s.scheduler.Sound) (h : s.world.Leads [] es w) :
    s.Submitted [] es (s.setWorld w) :=
  ⟨rfl, hs.of_eq rfl rfl rfl rfl rfl rfl, rfl, ⟨[], by simp [setWorld], .nil⟩,
    by simp [setWorld], h⟩

/-- What comes after the jobs there were are the jobs of the tasks. -/
theorem Submitted.getElem? (h : s.Submitted ts es s') {k : Nat} {job : Job World Publishing}
    (hk : s'.scheduler.jobs[s.scheduler.jobs.length + k]? = some job) :
    ∃ t, ts[k]? = some t ∧ IsNew s.scheduler.settings t job := by
  obtain ⟨js, hj, hn⟩ := h.jobs
  rw [hj, List.getElem?_append_right (Nat.le_add_right _ _), Nat.add_sub_cancel_left] at hk
  exact forall₂_getElem? hn hk

/-! ### One task -/

theorem outcome_announce (s : Session) (t : Task) : (announce t).outcome s =
    match s.world.adapterId t.adapter with
    | .error f => (.error f, s)
    | .ok _ => if (s.world.scheduling t).isShowable then
        (.ok (), s.setWorld (s.world.emit (s.world.scheduling t)))
      else (faulty .tooManyDigits, s) := by
  have hg := outcome_adapterId s t.adapter
  cases hid : s.world.adapterId t.adapter with
  | error f =>
    rw [hid] at hg
    exact Act.outcome_bind_error hg
  | ok id =>
    rw [hid] at hg
    have he : s.world.scheduling t = .taskScheduled t.rule id t.delay := by
      simp only [World.scheduling, World.idOf, hid]
      rfl
    rw [announce, Act.outcome_bind_ok hg, outcome_emit, he]

theorem announce_ok (hs : s.scheduler.Sound) {id : Value}
    (hid : s.world.adapterId t.adapter = .ok id)
    (hshow : (s.world.scheduling t).isShowable = true) : ∃ s',
    (announce t).outcome s = (.ok (), s') ∧ s.Submitted [] [s.world.scheduling t] s' := by
  have ho := outcome_announce s t
  simp only [hid, hshow, ↓reduceIte] at ho
  exact ⟨_, ho, .of_leads hs (World.leads_emit _ _)⟩

theorem writeAll_leads (rs : List Record) (h : ∀ r ∈ rs, r.source ≠ "core.diagnostics")
    (s : Session) : ∃ w, (writeAll rs).outcome s = (.ok (), s.setWorld w) ∧
    s.world.Leads [] [] w := by
  induction rs generalizing s with
  | nil => exact ⟨s.world, rfl, .refl _⟩
  | cons r rs ih =>
    obtain ⟨w, ho, hw⟩ := ih (fun r' hr => h r' (List.mem_cons_of_mem _ hr))
      (s.setWorld (s.world.write r))
    refine ⟨w, ?_, ?_⟩
    · have hr : (write r).outcome s = (.ok (), s.setWorld (s.world.write r)) := rfl
      rw [writeAll, Act.outcome_bind_ok hr, ho]
      rfl
    · exact (World.leads_write s.world (h r List.mem_cons_self)).trans hw

theorem cutLine_source (settings : Settings) (delay : Int) :
    ∀ r ∈ (cutLine settings delay).toList, r.source ≠ "core.diagnostics" := by
  intro r hr
  simp only [cutLine] at hr
  split at hr
  · simp at hr
  · obtain rfl : r = _ := by simpa using hr
    show schedulerSource ≠ "core.diagnostics"
    decide

/-- What submitting comes down to once a line about a cut was written. -/
theorem outcome_submitJob {w : World}
    (hw : (writeAll (cutLine s.scheduler.settings t.delay).toList).outcome s =
      (.ok (), s.setWorld w)) :
    (submitJob t).outcome s =
      match (s.setWorld w).scheduler.submit (w.work t) t.delay with
      | .error f => (.error f, s.setWorld w)
      | .ok (i, m) => (.ok i, (s.setWorld w).setScheduler m) := by
  rw [submitJob, Act.outcome_bind_ok (Act.outcome_get s), Act.outcome_bind_ok hw,
    Act.outcome_bind_ok (Act.outcome_get _)]
  cases hm : (s.setWorld w).scheduler.submit (w.work t) t.delay with
  | error f =>
    have ho : (Act.ofOutcome ((s.setWorld w).scheduler.submit (w.work t) t.delay)
        : Act Session _).outcome (s.setWorld w) = (.error f, s.setWorld w) := by
      rw [Act.outcome_ofOutcome, hm]
    exact Act.outcome_bind_error ho
  | ok r =>
    have ho : (Act.ofOutcome ((s.setWorld w).scheduler.submit (w.work t) t.delay)
        : Act Session _).outcome (s.setWorld w) = (.ok r, s.setWorld w) := by
      rw [Act.outcome_ofOutcome, hm]
    exact Act.outcome_bind_ok ho

theorem submitJob_ok (hs : s.scheduler.Sound) {n : Nat}
    (hw : s.scheduler.settings.wait t.delay = .ok n) : ∃ s',
    (submitJob t).outcome s = (.ok s.scheduler.jobs.length, s') ∧ s.Submitted [t] [] s' := by
  obtain ⟨w, ho, hl⟩ := writeAll_leads _ (cutLine_source s.scheduler.settings t.delay) s
  have hsw : (s.setWorld w).scheduler.Sound := hs.of_eq rfl rfl rfl rfl rfl rfl
  rw [outcome_submitJob ho]
  cases hm : (s.setWorld w).scheduler.submit (w.work t) t.delay with
  | error f =>
    rw [submit_eq, show (s.setWorld w).scheduler.settings.wait t.delay = .ok n from hw] at hm
    cases hm
  | ok r =>
    obtain ⟨i, m⟩ := r
    obtain ⟨hsound, rfl, ht⟩ := hsw.submit hm
    obtain ⟨job, hnew, hj⟩ := ht.jobs
    refine ⟨_, rfl, rfl, hsound, ht.settings, ⟨[job], hj, ?_⟩, ht.threads, ?_⟩
    · exact .cons ⟨w, hnew⟩ .nil
    · rw [show ((s.setWorld w).setScheduler m).world = w from ht.world]
      exact hl

theorem submitJob_error (hs : s.scheduler.Sound) {f : Failure}
    (hw : s.scheduler.settings.wait t.delay = .error f) : ∃ s',
    (submitJob t).outcome s = (.error f, s') ∧ s.Submitted [] [] s' := by
  obtain ⟨w, ho, hl⟩ := writeAll_leads _ (cutLine_source s.scheduler.settings t.delay) s
  have hm : (s.setWorld w).scheduler.submit (w.work t) t.delay = .error f := by
    rw [submit_eq, show (s.setWorld w).scheduler.settings.wait t.delay = .error f from hw]
  rw [outcome_submitJob ho, hm]
  exact ⟨_, rfl, .of_leads hs hl⟩

/-! ### All tasks -/

/-- Announcing a task and giving it to the scheduler. -/
def place (t : Task) : Act Session Nat := do
  announce t
  submit t

theorem outcome_submit (hl : s.lane ≠ .inline) (t : Task) :
    (submit t).outcome s = (submitJob t).outcome s := by
  rw [submit, Act.outcome_bind_ok (Act.outcome_get s), if_neg hl]

theorem place_ok (hl : s.lane ≠ .inline) (hs : s.scheduler.Sound)
    (ha : s.world.admission s.scheduler.settings t = .ok ()) : ∃ s',
    (place t).outcome s = (.ok s.scheduler.jobs.length, s') ∧
    s.Submitted [t] [s.world.scheduling t] s' := by
  unfold World.admission at ha
  split at ha
  · cases ha
  · rename_i id hid
    split at ha
    · rename_i hshow
      split at ha
      · cases ha
      · rename_i n hw
        obtain ⟨s₁, ho, hsub⟩ := announce_ok hs hid hshow
        obtain ⟨s', ho', hs'⟩ := submitJob_ok (t := t) hsub.sound (hsub.settings ▸ hw)
        have hlen : s₁.scheduler.jobs.length = s.scheduler.jobs.length := hsub.length
        refine ⟨s', ?_, hsub.trans hs'⟩
        rw [place, Act.outcome_bind_ok ho, outcome_submit (hsub.lane ▸ hl), ho', hlen]
    · cases ha

/-- A task that cannot become a job may have been announced. -/
theorem place_error (hl : s.lane ≠ .inline) (hs : s.scheduler.Sound) {f : Failure}
    (ha : s.world.admission s.scheduler.settings t = .error f) : ∃ n s', n ≤ 1 ∧
    (place t).outcome s = (.error f, s') ∧
    s.Submitted [] (([t].take n).map s.world.scheduling) s' := by
  have ho := outcome_announce s t
  unfold World.admission at ha
  split at ha
  · rename_i g hid
    cases ha
    simp only [hid] at ho
    exact ⟨0, s, Nat.zero_le 1, Act.outcome_bind_error ho, .refl hs⟩
  · rename_i id hid
    split at ha
    · rename_i hshow
      split at ha
      · rename_i g hw
        cases ha
        obtain ⟨s₁, ho, hsub⟩ := announce_ok hs hid hshow
        obtain ⟨s', ho', hs'⟩ := submitJob_error (t := t) hsub.sound (hsub.settings ▸ hw)
        refine ⟨1, s', Nat.le_refl 1, ?_, hsub.trans hs'⟩
        rw [place, Act.outcome_bind_ok ho, outcome_submit (hsub.lane ▸ hl), ho']
      · cases ha
    · rename_i hshow
      cases ha
      simp only [hid, hshow] at ho
      exact ⟨0, s, Nat.zero_le 1, Act.outcome_bind_error ho, .refl hs⟩

theorem submitAll_cons (t : Task) (ts : List Task) :
    submitAll (t :: ts) = place t >>= fun i => submitAll ts >>= fun is => pure (i :: is) := by
  rw [submitAll, place, bind_assoc]

theorem submitAll_error {f : Failure} (h : (place t).outcome s = (.error f, s'))
    (ts : List Task) : (submitAll (t :: ts)).outcome s = (.error f, s') := by
  rw [submitAll_cons, Act.outcome_bind_error h]

theorem submitAll_rest_error {i : Nat} {f : Failure} (h : (place t).outcome s = (.ok i, s'))
    (h' : (submitAll ts).outcome s' = (.error f, s'')) :
    (submitAll (t :: ts)).outcome s = (.error f, s'') := by
  rw [submitAll_cons, Act.outcome_bind_ok h, Act.outcome_bind_error h']

theorem submitAll_rest_ok {i : Nat} {is : List Nat} (h : (place t).outcome s = (.ok i, s'))
    (h' : (submitAll ts).outcome s' = (.ok is, s'')) :
    (submitAll (t :: ts)).outcome s = (.ok (i :: is), s'') := by
  rw [submitAll_cons, Act.outcome_bind_ok h, Act.outcome_bind_ok h', Act.outcome_pure]

/-- All tasks become jobs, or else those before the first one that cannot; each is announced before
it is submitted. -/
theorem submitAll_cases (hl : s.lane ≠ .inline) (hs : s.scheduler.Sound) (ts : List Task) :
    ((∀ t ∈ ts, s.world.admission s.scheduler.settings t = .ok ()) ∧ ∃ s',
      (submitAll ts).outcome s = (.ok (List.range' s.scheduler.jobs.length ts.length), s') ∧
      s.Submitted ts (ts.map s.world.scheduling) s') ∨
    ∃ done t rest f n s', ts = done ++ t :: rest ∧
      (∀ u ∈ done, s.world.admission s.scheduler.settings u = .ok ()) ∧
      s.world.admission s.scheduler.settings t = .error f ∧
      (submitAll ts).outcome s = (.error f, s') ∧
      s.Submitted done ((ts.take n).map s.world.scheduling) s' := by
  induction ts generalizing s with
  | nil => exact .inl ⟨by simp, s, rfl, .refl hs⟩
  | cons t ts ih =>
    cases ha : s.world.admission s.scheduler.settings t with
    | error f =>
      obtain ⟨n, s', hn, ho, hsub⟩ := place_error hl hs ha
      have htake : [t].take n = (t :: ts).take n := by
        obtain rfl | rfl : n = 0 ∨ n = 1 := by omega
        · rfl
        · rfl
      rw [htake] at hsub
      exact .inr ⟨[], t, ts, f, n, s', rfl, by simp, ha, submitAll_error ho ts, hsub⟩
    | ok u =>
      obtain ⟨s', ho, hsub⟩ := place_ok hl hs ha
      have hadm : ∀ v, s'.world.admission s'.scheduler.settings v =
          s.world.admission s.scheduler.settings v := by
        intro v
        rw [hsub.settings, World.admission_congr hsub.leads.ids]
      rcases ih (hsub.lane ▸ hl) hsub.sound with ⟨hall, s'', ho', hsub'⟩ |
          ⟨done, v, rest, f, n, s'', rfl, hdone, hv, ho', hsub'⟩
      · refine .inl ⟨fun v hv => ?_, s'', ?_, ?_⟩
        · rcases List.mem_cons.1 hv with rfl | hv
          · exact ha
          · rw [← hadm]; exact hall v hv
        · rw [submitAll_rest_ok ho ho', hsub.length]
          rfl
        · rw [World.scheduling_congr hsub.leads.ids] at hsub'
          exact hsub.trans hsub'
      · rw [World.scheduling_congr hsub.leads.ids] at hsub'
        refine .inr ⟨t :: done, v, rest, f, n + 1, s'', rfl, fun u hu => ?_, ?_,
          submitAll_rest_error ho ho', hsub.trans hsub'⟩
        · rcases List.mem_cons.1 hu with rfl | hu
          · exact ha
          · rw [← hadm]; exact hdone u hu
        · rw [← hadm]; exact hv

end Session

end Syndicate
