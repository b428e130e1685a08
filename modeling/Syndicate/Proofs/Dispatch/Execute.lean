import Syndicate.Proofs.Dispatch.Immediate
import Syndicate.Proofs.Json
import Syndicate.Proofs.Scheduler.Seconds

/-! Whole batches, when nothing else is under way. If no post fails, every task is published once
and the results are those of the immediate tasks and then of the deferred ones, each in order. If
one fails, the batch ends with its failure and no later post begins. -/

namespace Syndicate

open Scheduler

namespace Session

variable {s s' : Session} {ts : List Task}

/-- The tasks of a batch that are published at once. -/
def immediateOf (ts : List Task) : List Task := ts.filter Task.isImmediate

/-- The tasks of a batch that are published later. -/
def deferredOf (ts : List Task) : List Task := ts.filter fun t => !t.isImmediate

theorem Stays.settings_opened (h : s.Stays s') :
    s'.opened.scheduler.settings = s.opened.scheduler.settings := by
  obtain ⟨clock, w, hm⟩ := h.scheduler
  rw [opened, opened, h.lane]
  split
  · show s'.ownSettings = s.ownSettings
    rw [ownSettings, ownSettings, hm]
  · rw [hm]

theorem Stays.jobs (h : s.Stays s') : s'.scheduler.jobs = s.scheduler.jobs := by
  obtain ⟨clock, w, hm⟩ := h.scheduler
  rw [hm]

theorem Stays.waitable_iff (h : s.Stays s') (t : Task) : s'.Waitable t ↔ s.Waitable t := by
  rw [Waitable, Waitable, h.settings_opened]

/-- The tasks that a batch goes on with, none if it ends with its verification. -/
def keptOf (verify : Bool) (ts : List Task) (s : Session) : List Task :=
  match ((keptBy verify ts).outcome s).1 with
  | .ok kept => kept
  | .error _ => []

/-- Verification tells of warnings only, and without it nothing is told. -/
theorem keptBy_leads (verify : Bool) (ts : List Task) (s : Session) : ∃ w es,
    ((keptBy verify ts).outcome s).2 = s.setWorld w ∧ s.world.Leads [] es w ∧
    (verify = false → es = []) ∧ ∀ e ∈ es, e.isWarning = true := by
  cases verify with
  | false => exact ⟨s.world, [], rfl, .refl _, fun _ => rfl, by simp⟩
  | true =>
    obtain ⟨w, es, hs, hl, he⟩ := keptBy_warns true ts s
    exact ⟨w, es, hs, hl, nofun, he⟩

/-- How far a batch that ends before its deferred tasks has come: not through its verification, or
to an immediate task. -/
inductive Aborted (w : World) (kept : List Task) (f : Failure) : List Posting → List Event → Prop
  | gate (es : List Event) (hes : ∀ e ∈ es, e.isWarning = true) : Aborted w kept f [] es
  | task (es : List Event) (hes : ∀ e ∈ es, e.isWarning = true) (done : List (Task × PostRef))
    (t : Task) (rest : List Task) (o : Outcome PostRef)
    (hts : immediateOf kept = done.map Prod.fst ++ t :: rest)
    (ho : o = .error f ∨ (∃ ref, o = .ok ref) ∧ ¬ w.Reportable t) :
    Aborted w kept f (done.flatMap posted ++ [⟨t, .begun⟩, ⟨t, .ended o⟩])
      (es ++ done.map fun r => (w.publishing r).event)

/-- A batch that has come to its deferred tasks: the immediate ones were published in order. -/
structure Reached (s : Session) (verify : Bool) (ts : List Task) (now : List (Task × PostRef))
    (es : List Event) (s₁ : Session) : Prop where
  stays : s.Stays s₁
  warnings : ∀ e ∈ es, e.isWarning = true
  immediate : now.map Prod.fst = immediateOf (keptOf verify ts s)
  leads : s.world.Leads (now.flatMap posted)
    (es ++ now.map fun r => (s.world.publishing r).event) s₁.world
  outcome : (upToLane verify ts).outcome s =
    (.ok (now.map s.world.publishing, deferredOf (keptOf verify ts s)), s₁)

/-- Up to its deferred tasks a batch publishes the immediate ones, or ends with an error. -/
theorem upToLane_ends (hi : s.scheduler.Idle) (verify : Bool) (ts : List Task) :
    (∃ now es s₁, Reached s verify ts now es s₁ ∧ (verify = false → es = [])) ∨
    ∃ f ps es s₁, s.Stays s₁ ∧ Aborted s.world (keptOf verify ts s) f ps es ∧
      (verify = false → ps ≠ []) ∧ s.world.Leads ps es s₁.world ∧
      (upToLane verify ts).outcome s = (.error f, s₁) := by
  obtain ⟨w, es, hs₀, hgate, hes, hwarn⟩ := keptBy_leads verify ts s
  have hfalse : verify = false → (keptBy verify ts).outcome s = (.ok ts, s) := by
    rintro rfl
    rfl
  cases hk : (keptBy verify ts).outcome s with
  | mk o s₀ =>
    rw [hk] at hs₀ hfalse
    have hstays₀ : s.Stays s₀ := Talks.stays ⟨w, es, hs₀, hgate⟩
    dsimp only at hs₀
    cases o with
    | error f =>
      refine .inr ⟨f, [], es, s₀, hstays₀, .gate es hwarn, fun h => ?_, ?_,
        Act.outcome_bind_error hk⟩
      · cases (Prod.mk.inj (hfalse h)).1
      · rw [hs₀]
        exact hgate
    | ok kept =>
      have hkept : keptOf verify ts s = kept := by rw [keptOf, hk]
      let line := splitLine (immediateOf kept).length (deferredOf kept).length
      have hsource : line.source ≠ "core.diagnostics" := by
        show dispatchSource ≠ "core.diagnostics"
        decide
      let s' := s₀.setWorld (s₀.world.write line)
      have hstays' : s.Stays s' := hstays₀.trans (stays_setWorld s₀ _)
      have hleads : s.world.Leads [] (es ++ []) s'.world := by
        have hw : s₀.world.Leads [] [] s'.world := World.leads_write s₀.world hsource
        rw [hs₀] at hw
        exact hgate.trans hw
      rw [List.append_nil] at hleads
      have hup : (upToLane verify ts).outcome s = (publishEach (immediateOf kept) >>= fun first =>
          pure (first, deferredOf kept)).outcome s' := by
        rw [upToLane, Act.outcome_bind_ok hk]
        exact Act.outcome_bind_ok (f := fun _ => publishEach (immediateOf kept) >>= fun first =>
          pure (first, deferredOf kept)) (Act.outcome_modify s₀ _)
      have hpub : s'.world.publishing = s.world.publishing := World.publishing_congr hleads.ids
      obtain ⟨s₁, hstays, hends⟩ :=
        publishEach_ends (s := s') (hstays'.queue.trans hi.queue) (immediateOf kept)
      rcases hends with ⟨now, hnow, ho, hl⟩ | ⟨done, t, rest, o, f, hts, ho, hl, hlast⟩
      · rw [hpub] at ho hl
        refine .inl ⟨now, es, s₁, ⟨hstays'.trans hstays, hwarn, ?_, hleads.trans hl, ?_⟩, hes⟩
        · rw [hkept, hnow]
        · rw [hkept, hup]
          exact Act.outcome_bind_ok ho
      · rw [World.reportable_congr hleads.ids] at hlast
        rw [hpub] at hl
        refine .inr ⟨f, _, _, s₁, hstays'.trans hstays, ?_, by simp, hleads.trans hl, ?_⟩
        · rw [hkept]
          exact .task es hwarn done t rest o hts hlast
        · rw [hup]
          exact Act.outcome_bind_error ho

theorem afterLane_error_of {r : List Publishing × List Task} {f : Failure} (hr : r.2 ≠ [])
    (h : (withOwnScheduler (publishDeferred r.2)).outcome s = (.error f, s')) :
    (afterLane r).outcome s = (.error f, s') := by
  rw [afterLane, if_neg hr, Act.outcome_bind_error h]

theorem afterLane_ok_of {r : List Publishing × List Task} {later : List Publishing}
    (hr : r.2 ≠ []) (h : (withOwnScheduler (publishDeferred r.2)).outcome s = (.ok later, s'))
    (hs : ∀ p ∈ later, p.event.isShowable = true) : ∃ w,
    (afterLane r).outcome s = (.ok (r.1 ++ later), s'.setWorld w) ∧
    s'.world.Leads [] (later.map Publishing.event) w := by
  obtain ⟨w, ho, hl⟩ := reportAll_ok (s := s') hs
  refine ⟨w, ?_, hl⟩
  rw [afterLane, if_neg hr, Act.outcome_bind_ok h, Act.outcome_bind_ok ho]
  rfl

namespace Reached

variable {verify : Bool} {now : List (Task × PostRef)} {es es' : List Event} {s₁ s₂ : Session}
  {f : Failure}

theorem execute_rest (h : Reached s verify ts now es s₁) : (execute verify ts).outcome s =
    (afterLane (now.map s.world.publishing, deferredOf (keptOf verify ts s))).outcome s₁ := by
  rw [execute_eq, Act.outcome_bind_ok h.outcome]

theorem execute_alone (h : Reached s verify ts now es s₁)
    (hd : deferredOf (keptOf verify ts s) = []) :
    (execute verify ts).outcome s = (.ok (now.map s.world.publishing), s₁) := by
  rw [h.execute_rest, hd, afterLane, if_pos rfl, Act.outcome_pure]

theorem execute_error (h : Reached s verify ts now es s₁)
    (hd : deferredOf (keptOf verify ts s) ≠ [])
    (ho : (withOwnScheduler (publishDeferred (deferredOf (keptOf verify ts s)))).outcome s₁ =
      (.error f, s₂)) : (execute verify ts).outcome s = (.error f, s₂) := by
  rw [h.execute_rest]
  exact afterLane_error_of hd ho

theorem admission (h : Reached s verify ts now es s₁) :
    s₁.world.admission s₁.opened.scheduler.settings =
      s.world.admission s.opened.scheduler.settings := by
  funext t
  rw [h.stays.settings_opened, World.admission_congr h.leads.ids]

/-- What happens for the immediate tasks comes before what happens for the deferred ones. -/
theorem course {b : Nat} {us : List Task} {w : World} {log : List (Nat × Posting)}
    (h : Reached s verify ts now es s₁) (hw : s₁.world.Leads [] es' w)
    (hu : UnderWay b us w log s₂.scheduler) :
    s.world.Course (now.flatMap posted ++ log.map Prod.snd) s₂.world := by
  have hcourse : s.world.Course _ s₂.world := ((h.leads.trans hw).trans hu.leads).course
  rwa [List.append_nil] at hcourse

end Reached

/-! ### Batches in which no post fails -/

/-- What a batch comes to when no post fails: the results and the events, the posts of the
immediate tasks one after the other, and those of the deferred tasks in some order, in which the
post of each begins and ends once. What comes of a post is what its adapter came to. -/
structure Published (s : Session) (ts : List Task) (o : Outcome (List Publishing)) (s' : Session)
    (now later : List (Task × PostRef)) (log : List (Nat × Posting)) : Prop where
  immediate : now.map Prod.fst = immediateOf ts
  deferred : later.map Prod.fst = deferredOf ts
  results : o = .ok ((now ++ later).map s.world.publishing)
  course : s.world.Course (now.flatMap posted ++ log.map Prod.snd) s'.world
  within : ∀ e ∈ log, e.1 < later.length
  once : ∀ k r, later[k]? = some r → rowOf k log = posted r
  told : s.world.site.journal.Tells
    (now.map (fun r => (s.world.publishing r).event) ++ (deferredOf ts).map s.world.scheduling ++
      later.map fun r => (s.world.publishing r).event) s'.world.site.journal
  idle : s'.scheduler.Idle

/-- A post that came about can be reported. -/
theorem event_showable {b : Nat} {w w' : World} {later : List (Task × PostRef)}
    {log : List (Nat × Posting)} {m : Scheduler World Publishing}
    (h : UnderWay b (later.map Prod.fst) w log m)
    (hrows : ∀ k r, later[k]? = some r → rowOf k log = posted r)
    (hr : ∀ r ∈ later, w'.Reportable r.1) :
    ∀ p ∈ later.map w'.publishing, p.event.isShowable = true := by
  intro p hp
  obtain ⟨⟨t, ref⟩, hmem, rfl⟩ := List.mem_map.1 hp
  obtain ⟨k, hk⟩ := List.mem_iff_getElem?.1 hmem
  have hin : (⟨t, .ended (.ok ref)⟩ : Posting) ∈ rowOf k log := by
    rw [hrows k _ hk]
    simp [posted]
  have hplain := h.leads.plain _ (List.mem_map.2 ⟨_, mem_rowOf.1 hin, rfl⟩) ref rfl
  exact (hr _ hmem).event hplain

/-- A batch that ends with an immediate task ends with its failure, if it could be reported. -/
theorem Aborted.fails {w : World} {f : Failure} {ps : List Posting} {es : List Event}
    (h : Aborted w ts f ps es) (hps : ps ≠ []) (hr : ∀ t ∈ immediateOf ts, w.Reportable t) :
    ∃ p ∈ ps, p.failure? = some f := by
  cases h with
  | gate => exact absurd rfl hps
  | task _ _ done t rest o hts hlast =>
    rcases hlast with rfl | ⟨-, hnot⟩
    · exact ⟨⟨t, .ended (.error f)⟩, by simp, rfl⟩
    · exact absurd (hr t (by rw [hts]; simp)) hnot

/-- If all deferred tasks could be announced, submitted and waited out, and no post has failed, all
tasks were published. -/
theorem Reached.published {now : List (Task × PostRef)} {s₁ : Session}
    (h : Reached s false ts now [] s₁) (hl : s.lane ≠ .inline) (hi : s.scheduler.Idle)
    (hreport : ∀ t ∈ ts, s.world.Reportable t)
    (hadm : ∀ t ∈ deferredOf ts, s.world.admission s.opened.scheduler.settings t = .ok ())
    (hwait : ∀ t ∈ deferredOf ts, s.Waitable t)
    (hok : ∀ p ∈ ((execute false ts).outcome s).2.world.posts.drop s.world.posts.length,
      p.failure? = none) :
    ∃ later log, Published s ts ((execute false ts).outcome s).1
      ((execute false ts).outcome s).2 now later log := by
  have hkept : keptOf false ts s = ts := rfl
  by_cases hd : deferredOf ts = []
  · rw [h.execute_alone hd]
    refine ⟨[], [], h.immediate, hd.symm, by simp, ?_, by simp, by simp, ?_, h.stays.idle hi⟩
    · simpa using h.leads.course
    · simpa [hd] using h.leads.journal
  cases hlane : (withOwnScheduler (publishDeferred (deferredOf ts))).outcome s₁ with
  | mk o s₂ =>
    rw [← h.admission] at hadm
    obtain ⟨w, log, hw, hunder, hends⟩ :=
      deferred_ends (h.stays.lane ▸ hl) (h.stays.idle hi) hadm hlane
    have hfits : ¬ ∃ t ∈ deferredOf ts, ¬ s₁.Waitable t := fun ⟨t, ht, hnot⟩ =>
      hnot ((h.stays.waitable_iff t).2 (hwait t ht))
    cases hends with
    | returns later hlater hrows hidle =>
      have hsch : s₁.world.scheduling = s.world.scheduling := World.scheduling_congr h.leads.ids
      have hpub : s₁.world.publishing = s.world.publishing := World.publishing_congr h.leads.ids
      rw [hpub] at hlane
      rw [← hlater] at hunder
      have hshow := event_showable hunder hrows fun r hmem =>
        hreport _ (List.mem_of_mem_filter (hlater ▸ List.mem_map_of_mem hmem))
      obtain ⟨w', ho', hl'⟩ := afterLane_ok_of
        (r := (now.map s.world.publishing, deferredOf ts)) hd hlane hshow
      rw [hsch] at hw
      have htotal := h.leads.trans ((hw.trans hunder.leads).trans hl')
      rw [h.execute_rest, hkept, ho']
      refine ⟨later, log, h.immediate, hlater, by rw [List.map_append], ?_, ?_, hrows, ?_,
        hidle.queue, hidle.ended, hidle.pending, hidle.slots⟩
      · have hcourse : s.world.Course _ (s₂.setWorld w').world := htotal.course
        simpa using hcourse
      · intro e he
        have hlength : (later.map Prod.fst).length = later.length := List.length_map _
        rw [← hlength]
        exact hunder.within e he
      · have hjournal : s.world.site.journal.Tells _ (s₂.setWorld w').world.site.journal :=
          htotal.journal
        simpa [List.map_map, Function.comp_def] using hjournal
    | hangs _ hlong => exact absurd hlong hfits
    | @fails _ _ _ t _ g hlog _ _ hraised _ =>
      -- A failed post would be among the posts.
      obtain rfl := hraised.resolve_right fun hr => hfits hr.2
      rw [h.execute_error hd hlane, (h.course hw hunder).posts, hlog] at hok
      have hfail := hok ⟨t, .ended (.error g)⟩ (by simp)
      simp [Posting.failure?] at hfail

/-- If all tasks were published, the deferred ones could be submitted and waited out. -/
theorem Published.admitted (hl : s.lane ≠ .inline) (hi : s.scheduler.Idle)
    {now later : List (Task × PostRef)} {log : List (Nat × Posting)}
    (h : Published s ts ((execute false ts).outcome s).1 s' now later log) :
    ∀ t ∈ deferredOf ts,
      s.world.admission s.opened.scheduler.settings t = .ok () ∧ s.Waitable t := by
  intro t ht
  have hres := h.results
  rcases upToLane_ends hi false ts with ⟨now, es, s₁, hr, -⟩ | ⟨f, ps, es, s₁, -, -, -, -, ho⟩
  · have hne : deferredOf ts ≠ [] := List.ne_nil_of_mem ht
    cases hlane : (withOwnScheduler (publishDeferred (deferredOf ts))).outcome s₁ with
    | mk o s₂ =>
      cases o with
      | error f =>
        rw [hr.execute_error hne hlane] at hres
        cases hres
      | ok later =>
        obtain ⟨hall, hwait, -⟩ := deferred_ok (hr.stays.lane ▸ hl) (hr.stays.idle hi) hlane
        rw [hr.admission] at hall
        exact ⟨hall t ht, (hr.stays.waitable_iff t).1 (hwait t ht)⟩
  · rw [execute_eq, Act.outcome_bind_error ho] at hres
    cases hres

/-- When no submit raises and no post fails, a batch publishes every task once, and its results
stand in the order of the tasks, whatever the order in which the deferred posts end, if and only if
each delay that it is to wait out can be written down and is not too long to be waited out. -/
theorem execute_published (s : Session) (hl : s.lane ≠ .inline) (hi : s.scheduler.Idle)
    (ts : List Task) (hreport : ∀ t ∈ ts, s.world.Reportable t)
    (hsubmit : ∀ t ∈ deferredOf ts, ∃ wait, s.opened.scheduler.settings.wait t.delay = .ok wait)
    (hok : ∀ p ∈ ((execute false ts).outcome s).2.world.posts.drop s.world.posts.length,
      p.failure? = none) :
    (∃ now later log, Published s ts ((execute false ts).outcome s).1
      ((execute false ts).outcome s).2 now later log) ↔
    ∀ t ∈ deferredOf ts, (Value.int t.delay).isShowable = true ∧ s.Waitable t := by
  have hadm : ∀ t ∈ deferredOf ts, s.world.admission s.opened.scheduler.settings t = .ok () ↔
      (Value.int t.delay).isShowable = true := fun t ht =>
    (hreport t (List.mem_of_mem_filter ht)).admission_iff (hsubmit t ht)
  rcases upToLane_ends hi false ts with ⟨now, es, s₁, hr, hes⟩ |
      ⟨f, ps, es, s₁, -, haborted, hps, hleads, ho⟩
  · obtain rfl := hes rfl
    refine ⟨fun ⟨_, _, _, hp⟩ t ht => ?_, fun hd => ⟨now, hr.published hl hi hreport
      (fun t ht => (hadm t ht).2 (hd t ht).1) (fun t ht => (hd t ht).2) hok⟩⟩
    obtain ⟨hshow, hwait⟩ := hp.admitted hl hi t ht
    exact ⟨(hadm t ht).1 hshow, hwait⟩
  · obtain ⟨p, hp, hf⟩ := haborted.fails (hps rfl) fun t ht =>
      hreport t (List.mem_of_mem_filter ht)
    rw [execute_eq, Act.outcome_bind_error ho] at hok
    have hnone := hok p (by rw [hleads.posts]; simpa using hp)
    rw [hf] at hnone
    cases hnone

/-- A session whose scheduler has one slot, cuts long delays and cannot wait out more than a second,
and in which each post takes longer than the one before. -/
def narrow : Session where
  scheduler := fresh { maxDelay := some 20, maxConcurrency := some 1, longest := some 1000 }
    { adapters := [("a", .recorder { id := .text "a", duration := 10 })], pace := id }
  lane := .shared

/-- The first deferred post takes the slot that the second one waits for. -/
def mixed : List Task := [rehearsed "a" "late" 9, rehearsed "a" "now" 0, rehearsed "a" "early" 5]

theorem published_mixed : ∃ now later log, Published narrow mixed
    ((execute false mixed).outcome narrow).1 ((execute false mixed).outcome narrow).2
    now later log := by
  have hreport : ∀ t ∈ mixed, narrow.world.Reportable t := by
    intro t ht
    have hid : narrow.world.adapterId t.adapter = .ok (.text "a") := by
      simp only [mixed, List.mem_cons, List.not_mem_nil, or_false] at ht
      rcases ht with rfl | rfl | rfl <;> rfl
    refine ⟨?_, _, hid, rfl⟩
    simp only [mixed, List.mem_cons, List.not_mem_nil, or_false] at ht
    rcases ht with rfl | rfl | rfl <;> rfl
  have hcap : ∀ t ∈ mixed, narrow.opened.scheduler.settings.cap t.delay ≤ 20 := by decide +kernel
  have hwait : ∀ t ∈ mixed, narrow.opened.scheduler.settings.wait t.delay =
      .ok (narrow.opened.scheduler.settings.cap t.delay).toNat := fun t ht =>
    Settings.wait_eq (Int.le_trans (hcap t ht) (by decide))
  have hok : (((execute false mixed).outcome narrow).2.world.posts.drop
      narrow.world.posts.length).all (fun p => p.failure?.isNone) = true := by decide +kernel
  refine (execute_published narrow (by decide) (idle_fresh _ _) mixed hreport
    (fun t ht => ⟨_, hwait t (List.mem_of_mem_filter ht)⟩) fun p hp => ?_).2 fun t ht => ⟨?_, ?_⟩
  · simpa using List.all_eq_true.1 hok p hp
  · have hshow : ∀ t ∈ mixed, (Value.int t.delay).isShowable = true := by decide +kernel
    exact hshow t (List.mem_of_mem_filter ht)
  · have hfits : ∀ t ∈ mixed, narrow.opened.scheduler.settings.isOverlong
        (narrow.opened.scheduler.settings.cap t.delay).toNat = false := by decide +kernel
    exact (Settings.fits_iff (hwait t (List.mem_of_mem_filter ht))).2
      (hfits t (List.mem_of_mem_filter ht))

/-- A session whose scheduler has threads that can wait for 9223372036 seconds and no longer. -/
def threaded : Session where
  scheduler := fresh { longest := some 9223372036854 }
    { adapters := [("a", .recorder { id := .text "a" })] }
  lane := .shared

/-- A batch of one deferred task that cannot be announced or submitted posts nothing. -/
theorem posts_of_refused (hl : s.lane ≠ .inline) (hi : s.scheduler.Idle) {t : Task}
    (ht : t.isImmediate = false)
    (hno : s.world.admission s.opened.scheduler.settings t ≠ .ok ()) :
    ((execute false [t]).outcome s).2.world.posts = s.world.posts := by
  have hnow : immediateOf [t] = [] := by simp [immediateOf, ht]
  have hlater : deferredOf [t] = [t] := by simp [deferredOf, ht]
  rcases upToLane_ends hi false [t] with ⟨now, es, s₁, hr, -⟩ |
      ⟨f, ps, es, s₁, -, haborted, hps, -, -⟩
  · have hkept : keptOf false [t] s = [t] := rfl
    obtain rfl : now = [] := by
      have := hr.immediate
      rwa [hkept, hnow, List.map_eq_nil_iff] at this
    cases hlane : (withOwnScheduler (publishDeferred (deferredOf [t]))).outcome s₁ with
    | mk o s₂ =>
      have hnot : ¬ ∀ u ∈ deferredOf [t],
          s₁.world.admission s₁.opened.scheduler.settings u = .ok () := fun hall => by
        rw [hr.admission, hlater] at hall
        exact hno (hall t (List.mem_singleton_self t))
      obtain ⟨done, u, rest, f, n, w, log, hts, -, -, rfl, hw, hunder, -⟩ :=
        deferred_refused (hr.stays.lane ▸ hl) (hr.stays.idle hi) hnot hlane
      obtain rfl : done = [] := by
        rw [hlater] at hts
        cases done with
        | nil => rfl
        | cons _ done => simp at hts
      have hlog : log = [] := List.eq_nil_iff_forall_not_mem.2 fun e he => by
        simpa using hunder.within e he
      rw [hr.execute_error (by rw [hkept, hlater]; simp) hlane, (hr.course hw hunder).posts, hlog]
      simp
  · cases haborted with
    | gate => exact absurd rfl (hps rfl)
    | task _ _ done u rest o hts =>
      rw [show keptOf false [t] s = [t] from rfl, hnow] at hts
      simp at hts

/-- A task that is delayed by 200000 days. -/
def slow : Task := rehearsed "a" "late" 17280000000000

/-- A task with a delay of more than 4300 digits. -/
def vast : Task := rehearsed "a" "late" (10 ^ Text.maxDigits : Nat)

/-- A task that can be submitted, and whose post does not fail, is not published when its delay is too
long to be waited out. -/
theorem not_published_slow :
    (threaded.opened.scheduler.settings.wait slow.delay).isOk = true ∧
    ((execute false [slow]).outcome threaded).2.world.posts.isEmpty = true ∧
    ¬ ∃ now later log, Published threaded [slow] ((execute false [slow]).outcome threaded).1
      ((execute false [slow]).outcome threaded).2 now later log := by
  have hfails : ((execute false [slow]).outcome threaded).1.isOk = false := by decide +kernel
  refine ⟨by decide +kernel, by decide +kernel, fun ⟨now, later, log, hp⟩ => ?_⟩
  rw [hp.results] at hfails
  cases hfails

/-- Nor is it when the delay is too long to be written down, although it is cut. -/
theorem not_published_vast :
    (∃ wait, narrow.opened.scheduler.settings.wait vast.delay = .ok wait) ∧
    ((execute false [vast]).outcome narrow).2.world.posts = [] ∧
    ¬ ∃ now later log, Published narrow [vast] ((execute false [vast]).outcome narrow).1
      ((execute false [vast]).outcome narrow).2 now later log := by
  have hcut : ∀ d : Int, 20 < d → narrow.opened.scheduler.settings.cap d = 20 := fun _ h =>
    if_pos h
  have hlong : (20 : Int) < (10 ^ Text.maxDigits : Nat) := by
    have hpow : 10 ^ 2 ≤ 10 ^ Text.maxDigits := Nat.pow_le_pow_right (by decide) (by decide)
    omega
  have hcap : narrow.opened.scheduler.settings.cap vast.delay = 20 := hcut _ hlong
  have hwait : narrow.opened.scheduler.settings.wait vast.delay = .ok 20 := by
    rw [Settings.wait_eq (by rw [hcap]; decide), hcap]
    rfl
  have hreport : narrow.world.Reportable vast := ⟨rfl, .text "a", rfl, rfl⟩
  have hno : narrow.world.admission narrow.opened.scheduler.settings vast ≠ .ok () := by
    rw [Ne, hreport.admission_iff ⟨_, hwait⟩, Value.isShowable_int_iff]
    exact fun h => Nat.lt_irrefl _ (Int.natAbs_natCast (10 ^ Text.maxDigits) ▸ h)
  have hlater : vast.isImmediate = false :=
    decide_eq_false (Int.ne_of_gt (Int.lt_trans (by decide) hlong))
  refine ⟨⟨_, hwait⟩, posts_of_refused (by decide) (idle_fresh _ _) hlater hno, ?_⟩
  rintro ⟨_, _, _, hp⟩
  exact hno (hp.admitted (by decide) (idle_fresh _ _) vast (by simp [deferredOf, hlater])).1

/-! ### Batches in which a post fails -/

/-- No post fails before one that does, and none begins after it. -/
def StopsWith (f : Failure) (ps : List Posting) : Prop := ∃ before p after,
  ps = before ++ p :: after ∧ (∀ q ∈ before, q.failure? = none) ∧ p.failure? = some f ∧
  ∀ q ∈ after, q.stage ≠ .begun

/-- Whether a task of a batch with a scheduler of its own can be announced and submitted. -/
def Admitted (s : Session) (t : Task) : Prop := s.world.admission {} t = .ok ()

/-- How the posts of a batch with a scheduler of its own went: those of the immediate tasks one
after the other, those of the deferred tasks in some order, each of them once and to its end. -/
structure Stops (s : Session) (verify : Bool) (ts : List Task) (now : List Posting)
    (log : List (Nat × Posting)) : Prop where
  course : s.world.Course (now ++ log.map Prod.snd) ((execute verify ts).outcome s).2.world
  inOrder : ∃ ends : List (Task × Outcome PostRef),
    ends.map Prod.fst <+: immediateOf (keptOf verify ts s) ∧
    now = ends.flatMap fun r => [⟨r.1, .begun⟩, ⟨r.1, .ended r.2⟩]
  once : ∀ k, rowOf k log = [] ∨ ∃ t o, (deferredOf (keptOf verify ts s))[k]? = some t ∧
    rowOf k log = [⟨t, .begun⟩, ⟨t, .ended o⟩]
  /-- After an immediate post has failed nothing more is published or submitted. -/
  immediate : ∀ t f, ⟨t, .ended (.error f)⟩ ∈ now →
    ((execute verify ts).outcome s).1 = .error f ∧ log = [] ∧
    ((execute verify ts).outcome s).2.scheduler.jobs = s.scheduler.jobs ∧
    ∃ (done : List (Task × PostRef)) (rest : List Task),
      immediateOf (keptOf verify ts s) = done.map Prod.fst ++ t :: rest ∧
      now = done.flatMap posted ++ [⟨t, .begun⟩, ⟨t, .ended (.error f)⟩]
  /-- After a deferred post has failed no post begins, if all tasks could be submitted. -/
  deferred : (∀ t ∈ deferredOf (keptOf verify ts s), s.Admitted t) → ¬ Unfailed log →
    ∃ f, StopsWith f (log.map Prod.snd) ∧
      ((∀ t ∈ deferredOf (keptOf verify ts s), s.Waitable t) →
        ((execute verify ts).outcome s).1 = .error f)
  /-- A batch has no end if all tasks could be submitted and one of them waits too long. -/
  endless : ((upToLane verify ts).outcome s).1.isOk = true →
    (∀ t ∈ deferredOf (keptOf verify ts s), s.Admitted t) →
    (∃ t ∈ deferredOf (keptOf verify ts s), ¬ s.Waitable t) →
    ((execute verify ts).outcome s).1 = .error (.fault .endless)
  /-- The tasks before one that could not be submitted are published whatever happens to them, but
  for those that wait too long. -/
  refused : ((upToLane verify ts).outcome s).1.isOk = true →
    ¬ (∀ t ∈ deferredOf (keptOf verify ts s), s.Admitted t) →
    ∃ done t rest f, deferredOf (keptOf verify ts s) = done ++ t :: rest ∧
      (∀ u ∈ done, s.Admitted u) ∧ s.world.admission {} t = .error f ∧
      ((execute verify ts).outcome s).1 = .error f ∧
      ∀ k u, done[k]? = some u →
        (s.Waitable u → ∃ o, rowOf k log = [⟨u, .begun⟩, ⟨u, .ended o⟩]) ∧
        (¬ s.Waitable u → rowOf k log = [])
  idle : ((execute verify ts).outcome s).2.scheduler.Idle

section Stops

variable {verify : Bool} {s₁ : Session}

theorem posted_unfailed (now : List (Task × PostRef)) :
    ∀ t f, (⟨t, .ended (.error f)⟩ : Posting) ∉ now.flatMap posted := by
  intro t f h
  obtain ⟨r, -, hr⟩ := List.mem_flatMap.1 h
  simp [posted] at hr

theorem posted_eq (now : List (Task × PostRef)) : now.flatMap posted =
    (now.map fun r => (r.1, (.ok r.2 : Outcome PostRef))).flatMap
      fun r => [⟨r.1, .begun⟩, ⟨r.1, .ended r.2⟩] := by
  rw [List.flatMap_map]
  rfl

/-- A batch that ends before its deferred tasks. -/
theorem Aborted.stops {f : Failure} {ps : List Posting} {es : List Event} (hi : s.scheduler.Idle)
    (h : Aborted s.world (keptOf verify ts s) f ps es) (hstays : s.Stays s₁)
    (hl : s.world.Leads ps es s₁.world) (ho : (upToLane verify ts).outcome s = (.error f, s₁)) :
    Stops s verify ts ps [] := by
  have he : (execute verify ts).outcome s = (.error f, s₁) := by
    rw [execute_eq, Act.outcome_bind_error ho]
  refine ⟨?_, ?_, fun _ => .inl rfl, fun t g hg => ?_, fun _ hf => ?_, fun hr => ?_, fun hr => ?_,
    ?_⟩
  · rw [he]
    simpa using hl.course
  · cases h with
    | gate => exact ⟨[], List.nil_prefix, rfl⟩
    | task _ _ done t rest o hts =>
      refine ⟨done.map (fun r => (r.1, .ok r.2)) ++ [(t, o)], ⟨rest, ?_⟩, ?_⟩
      · rw [hts]
        simp [Function.comp_def]
      · rw [List.flatMap_append, ← posted_eq]
        rfl
  · rw [he]
    cases h with
    | gate => simp at hg
    | task _ _ done t' rest o hts hlast =>
      rcases List.mem_append.1 hg with hg | hg
      · exact absurd hg (posted_unfailed done t g)
      · simp only [List.mem_cons, Posting.mk.injEq, reduceCtorEq, and_false, Stage.ended.injEq,
          List.not_mem_nil, or_false, false_or] at hg
        obtain ⟨rfl, rfl⟩ := hg
        have hfg : g = f := by
          rcases hlast with hlast | ⟨⟨ref, hlast⟩, -⟩
          · exact Except.error.inj hlast
          · cases hlast
        exact ⟨by rw [hfg], rfl, hstays.jobs, done, rest, hts, rfl⟩
  · exact absurd (by simp [Unfailed]) hf
  · rw [ho] at hr
    cases hr
  · rw [ho] at hr
    cases hr
  · rw [he]
    exact hstays.idle hi

/-- With a scheduler of their own the deferred tasks leave it idle. -/
theorem idle_of_own (hl : s.lane = .own) (hi : s.scheduler.Idle)
    {o : Outcome (List Publishing)}
    (ho : (withOwnScheduler (publishDeferred ts)).outcome s = (o, s')) : s'.scheduler.Idle := by
  obtain ⟨-, hs, ht⟩ := publishDeferred_threaded (.inl ⟨hl, hi⟩) ts
  rw [outcome_withOwnScheduler, Prod.mk.injEq] at ho
  obtain ⟨-, rfl⟩ := ho
  rw [shut, if_pos hl]
  exact idle_close hs (ht hi)

theorem afterLane_talks_of {r : List Publishing × List Task} {later : List Publishing}
    (hr : r.2 ≠ []) (h : (withOwnScheduler (publishDeferred r.2)).outcome s = (.ok later, s')) :
    s'.Talks ((afterLane r).outcome s).2 := by
  rw [afterLane, if_neg hr, Act.outcome_bind_ok h]
  exact Act.Keeps.bind Talks.trans (reportAll_talks later) (fun _ => Act.Keeps.pure Talks.refl _) _

/-- The posts of a batch whose deferred tasks have ended. -/
theorem Reached.stops {now : List (Task × PostRef)} {es : List Event} {log : List (Nat × Posting)}
    (h : Reached s verify ts now es s₁)
    (hcourse : s.world.Course (now.flatMap posted ++ log.map Prod.snd)
      ((execute verify ts).outcome s).2.world)
    (honce : ∀ k, rowOf k log = [] ∨ ∃ t o, (deferredOf (keptOf verify ts s))[k]? = some t ∧
      rowOf k log = [⟨t, .begun⟩, ⟨t, .ended o⟩])
    (hdeferred : (∀ t ∈ deferredOf (keptOf verify ts s), s.Admitted t) → ¬ Unfailed log →
      ∃ f, StopsWith f (log.map Prod.snd) ∧
        ((∀ t ∈ deferredOf (keptOf verify ts s), s.Waitable t) →
          ((execute verify ts).outcome s).1 = .error f))
    (hendless : (∀ t ∈ deferredOf (keptOf verify ts s), s.Admitted t) →
      (∃ t ∈ deferredOf (keptOf verify ts s), ¬ s.Waitable t) →
      ((execute verify ts).outcome s).1 = .error (.fault .endless))
    (hrefused : ¬ (∀ t ∈ deferredOf (keptOf verify ts s), s.Admitted t) →
      ∃ done t rest f, deferredOf (keptOf verify ts s) = done ++ t :: rest ∧
        (∀ u ∈ done, s.Admitted u) ∧ s.world.admission {} t = .error f ∧
        ((execute verify ts).outcome s).1 = .error f ∧
        ∀ k u, done[k]? = some u →
          (s.Waitable u → ∃ o, rowOf k log = [⟨u, .begun⟩, ⟨u, .ended o⟩]) ∧
          (¬ s.Waitable u → rowOf k log = []))
    (hidle : ((execute verify ts).outcome s).2.scheduler.Idle) :
    Stops s verify ts (now.flatMap posted) log where
  course := hcourse
  inOrder := by
    refine ⟨now.map fun r => (r.1, .ok r.2), ?_, posted_eq now⟩
    rw [← h.immediate]
    simp [Function.comp_def]
  once := honce
  immediate t f hf := absurd hf (posted_unfailed now t f)
  deferred := hdeferred
  endless _ := hendless
  refused _ := hrefused
  idle := hidle

theorem stopsWith_of_log {before after : List (Nat × Posting)} {k : Nat} {t : Task} {f : Failure}
    (hb : Unfailed before) (ha : ∀ e ∈ after, e.2.stage ≠ .begun) :
    StopsWith f ((before ++ (k, ⟨t, .ended (.error f)⟩) :: after).map Prod.snd) := by
  refine ⟨before.map Prod.snd, ⟨t, .ended (.error f)⟩, after.map Prod.snd, ?_, ?_, rfl, ?_⟩
  · rw [List.map_append, List.map_cons]
  · intro q hq
    obtain ⟨e, he, rfl⟩ := List.mem_map.1 hq
    exact hb e he
  · intro q hq
    obtain ⟨e, he, rfl⟩ := List.mem_map.1 hq
    exact ha e he

section Reached

variable {now : List (Task × PostRef)} {es : List Event} (h : Reached s verify ts now es s₁)
include h

theorem Reached.stops_alone (hi : s.scheduler.Idle) (hd : deferredOf (keptOf verify ts s) = []) :
    Stops s verify ts (now.flatMap posted) [] := by
  have hend := h.execute_alone hd
  refine h.stops ?_ (fun _ => .inl rfl) (fun _ hf => ?_) (fun _ hf => ?_) (fun hf => ?_) ?_
  · rw [hend]
    simpa using h.leads.course
  · exact absurd (by simp [Unfailed]) hf
  · simp [hd] at hf
  · exact absurd (by simp [hd]) hf
  · rw [hend]
    exact h.stays.idle hi

variable (hl : s.lane = .own)
include hl

theorem Reached.admission_own (t : Task) :
    s₁.world.admission s₁.opened.scheduler.settings t = s.world.admission {} t := by
  rw [h.admission, settings_opened_own hl, admission_ownSettings]

variable (hi : s.scheduler.Idle) (hd : deferredOf (keptOf verify ts s) ≠ [])
include hi hd

theorem Reached.stops_admitted (hall : ∀ t ∈ deferredOf (keptOf verify ts s), s.Admitted t) :
    ∃ log, Stops s verify ts (now.flatMap posted) log := by
  have hl₁ : s₁.lane = .own := h.stays.lane.trans hl
  have hi₁ : s₁.scheduler.Idle := h.stays.idle hi
  have hwaits : (∃ t ∈ deferredOf (keptOf verify ts s), ¬ s.Waitable t) →
      ∃ t ∈ deferredOf (keptOf verify ts s), ¬ s₁.Waitable t := fun ⟨t, ht, hnot⟩ =>
    ⟨t, ht, fun hw => hnot ((h.stays.waitable_iff t).1 hw)⟩
  cases hlane : (withOwnScheduler (publishDeferred (deferredOf (keptOf verify ts s)))).outcome
    s₁ with
  | mk o s₂ =>
    have hidle := idle_of_own hl₁ hi₁ hlane
    obtain ⟨w, log, hw, hunder, hends⟩ := deferred_ends (by simp [hl₁]) hi₁
      (fun t ht => (h.admission_own hl t).trans (hall t ht)) hlane
    have honce := hunder.whole hidle.ended
    have hcourse := h.course hw hunder
    refine ⟨log, ?_⟩
    cases hends with
    | returns later hlater hrows _ hwait =>
      obtain ⟨w', es', hw', hl'⟩ := afterLane_talks_of
        (r := (now.map s.world.publishing, deferredOf (keptOf verify ts s))) hd hlane
      refine h.stops ?_ honce (fun _ hf => ?_) (fun _ hlong => ?_) (absurd hall) ?_
      · rw [h.execute_rest, hw', ← List.append_nil (_ ++ _)]
        exact hcourse.trans hl'.course
      · exact absurd (hunder.unfailed hlater hrows) hf
      · obtain ⟨t, ht, hnot⟩ := hwaits hlong
        exact absurd (hwait t ht) hnot
      · rw [h.execute_rest, hw']
        exact ⟨hidle.queue, hidle.ended, hidle.pending, hidle.slots⟩
    | hangs hclean _ =>
      have hend := h.execute_error hd hlane
      refine h.stops ?_ honce (fun _ hf => absurd hclean hf) (fun _ _ => ?_) (absurd hall) ?_
      · rwa [hend]
      · rw [hend]
      · rwa [hend]
    | @fails before after k t f g hlog hb ha hraised hown =>
      have hend := h.execute_error hd hlane
      refine h.stops ?_ honce (fun _ _ => ⟨f, ?_, fun hwait => ?_⟩) (fun _ hlong => ?_)
        (absurd hall) ?_
      · rwa [hend]
      · rw [hlog]
        exact stopsWith_of_log hb (ha hl₁)
      · rw [hend, hraised.resolve_right fun ⟨_, t, ht, hnot⟩ =>
          hnot ((h.stays.waitable_iff t).2 (hwait t ht))]
      · rw [hend, hown hl₁ (hwaits hlong)]
      · rwa [hend]

theorem Reached.stops_refused (hall : ¬ ∀ t ∈ deferredOf (keptOf verify ts s), s.Admitted t) :
    ∃ log, Stops s verify ts (now.flatMap posted) log := by
  have hl₁ : s₁.lane = .own := h.stays.lane.trans hl
  have hi₁ : s₁.scheduler.Idle := h.stays.idle hi
  have hadm := h.admission_own hl
  have hnot : ¬ ∀ t ∈ deferredOf (keptOf verify ts s),
      s₁.world.admission s₁.opened.scheduler.settings t = .ok () :=
    fun hok => hall fun t ht => (hadm t).symm.trans (hok t ht)
  cases hlane : (withOwnScheduler (publishDeferred (deferredOf (keptOf verify ts s)))).outcome
    s₁ with
  | mk o s₂ =>
    have hidle := idle_of_own hl₁ hi₁ hlane
    obtain ⟨done, t, rest, f, n, w, log, hts, hdone, hf, rfl, hw, hunder, hrows⟩ :=
      deferred_refused (by simp [hl₁]) hi₁ hnot hlane
    have hend := h.execute_error hd hlane
    refine ⟨log, h.stops ?_ (fun k => ?_) (fun hok => absurd hok hall)
      (fun hok => absurd hok hall) (fun _ => ?_) ?_⟩
    · rw [hend]
      exact h.course hw hunder
    · rcases hunder.whole hidle.ended k with hrow | ⟨u, o, hu, hrow⟩
      · exact .inl hrow
      · refine .inr ⟨u, o, ?_, hrow⟩
        rw [hts, List.getElem?_append_left (List.getElem?_eq_some_iff.1 hu).1, hu]
    · refine ⟨done, t, rest, f, hts, fun u hu => (hadm u).symm.trans (hdone u hu), ?_,
        by rw [hend], fun k u hk => ?_⟩
      · rw [← hadm, hf]
      · rw [← h.stays.waitable_iff]
        exact hrows hl₁ k u hk
    · rw [hend]
      exact hidle

end Reached

/-- With a scheduler of its own the first failure of a batch ends it, and no later post begins,
unless a task cannot be submitted: then those before it are published all the same. A batch with a
task that waits too long has no end. -/
theorem execute_stops (s : Session) (hl : s.lane = .own) (hi : s.scheduler.Idle) (verify : Bool)
    (ts : List Task) : ∃ now log, Stops s verify ts now log := by
  rcases upToLane_ends hi verify ts with ⟨now, es, s₁, h, -⟩ |
      ⟨f, ps, es, s₁, hstays, haborted, -, hleads, ho⟩
  · refine ⟨now.flatMap posted, ?_⟩
    by_cases hd : deferredOf (keptOf verify ts s) = []
    · exact ⟨[], h.stops_alone hi hd⟩
    · by_cases hall : ∀ t ∈ deferredOf (keptOf verify ts s), s.Admitted t
      · exact h.stops_admitted hl hi hd hall
      · exact h.stops_refused hl hi hd hall
  · exact ⟨ps, [], haborted.stops hi hstays hleads ho⟩

theorem stops_failing : ∃ now log, Stops rehearsal false failing now log :=
  execute_stops rehearsal rfl (idle_fresh _ _) false failing

/-- The first post fails while the second one waits, and the third task cannot be announced. -/
def interrupted : List Task :=
  [rehearsed "a" "bad" 5, rehearsed "a" "good" 10, rehearsed "b" "never" 1]

/-- Whether a post begins, and whether it fails. -/
def marks (p : Posting) : Bool × Bool :=
  (match p.stage with | .begun => true | .ended _ => false, p.failure?.isSome)

/-- When a task cannot be announced a post begins after another one has failed, and the batch does
not end with the failure of a post. -/
theorem not_stopsWith_interrupted :
    (∃ p ∈ ((execute false interrupted).outcome rehearsal).2.world.posts, p.failure? ≠ none) ∧
    (¬ ∃ f, StopsWith f ((execute false interrupted).outcome rehearsal).2.world.posts) ∧
    ∀ f, ((execute false interrupted).outcome rehearsal).1 = .error f →
      ∀ p ∈ ((execute false interrupted).outcome rehearsal).2.world.posts, p.failure? ≠ some f := by
  have hmarks : ((execute false interrupted).outcome rehearsal).2.world.posts.map marks =
      [(true, false), (false, true), (true, false), (false, false)] := by decide +kernel
  have herror : (match ((execute false interrupted).outcome rehearsal).1 with
      | .ok _ => false | .error f => f.isNotImplemented) = true := by decide +kernel
  have hothers : ((execute false interrupted).outcome rehearsal).2.world.posts.all
      (fun p => p.failure?.all fun f => !f.isNotImplemented) = true := by decide +kernel
  generalize (execute false interrupted).outcome rehearsal = r at hmarks herror hothers
  refine ⟨?_, ?_, fun f hf p hp hpf => ?_⟩
  · have hmem : (false, true) ∈ r.2.world.posts.map marks := by simp [hmarks]
    obtain ⟨p, hp, hm⟩ := List.mem_map.1 hmem
    refine ⟨p, hp, fun hn => ?_⟩
    simp [marks, hn] at hm
  · rintro ⟨f, before, p, after, hposts, hbefore, hp, hafter⟩
    rw [hposts, List.map_append, List.map_cons] at hmarks
    rcases before with - | ⟨a, - | ⟨b, before⟩⟩
    · have hm := (List.cons.inj hmarks).1
      simp [marks, hp] at hm
    · have hm := (List.cons.inj (List.cons.inj hmarks).2).2
      have hmem : (true, false) ∈ after.map marks := by simp [hm]
      obtain ⟨q, hq, hqm⟩ := List.mem_map.1 hmem
      have hstage := hafter q hq
      cases hs : q.stage with
      | begun => exact hstage hs
      | ended o => simp [marks, hs] at hqm
    · have hm := (List.cons.inj (List.cons.inj hmarks).2).1
      simp [marks, hbefore b (by simp)] at hm
  · have ho := List.all_eq_true.1 hothers p hp
    rw [hf] at herror
    simp [hpf, herror] at ho

end Stops

end Session

end Syndicate
