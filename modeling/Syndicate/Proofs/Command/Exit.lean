import Syndicate.Proofs.Command.Plan
import Syndicate.Proofs.Dispatch.Returned

/-! What the exit code of a run says of what it did. With code 1, or if it is only to show its
tasks, nothing has been executed; with code 0 every task was published that verification let
through; and code 2 is that of a batch that was aborted. -/

namespace Syndicate.Command

variable {a : Arguments} {s : Situation} {config : Entries} {l : Launch} {t : Session}

/-! ### Launching -/

/-- The session in which a launch executes its tasks: one with a scheduler for the longest wait, if
there is one. -/
def ready (maxDelay : Option Int) (t : Session) : Session :=
  match maxDelay with
  | none => t
  | some m =>
    let settings := { t.ownSettings with maxDelay := some m }
    { t.setScheduler (t.scheduler.renew settings) with lane := .shared }

/-- The session after that. -/
def left (maxDelay : Option Int) (t : Session) : Session :=
  match maxDelay with
  | none => t
  | some _ => t.close

theorem outcome_withLongestWait {α : Type} (maxDelay : Option Int) (x : Run α) (t : Session) :
    (withLongestWait maxDelay x).outcome t =
      ((x.outcome (ready maxDelay t)).1, left maxDelay (x.outcome (ready maxDelay t)).2) := by
  cases maxDelay with
  | none => rfl
  | some m =>
    have hready : { t.setScheduler (t.scheduler.renew { t.ownSettings with maxDelay := some m }) with
        lane := .shared } = ready (some m) t := rfl
    simp only [Act.outcome, EStateM.run, withLongestWait, hready]
    cases x (ready (some m) t) <;> rfl

/-- The exit code after executing tasks. Only a fault ends a run without one. -/
def codeOf {α : Type} : Outcome α → Outcome Nat
  | .ok _ => .ok 0
  | .error (.error _) => .ok 2
  | .error (.fault f) => .error (.fault f)

section CodeOf

variable {α : Type} {o : Outcome α}

theorem codeOf_ne_one : codeOf o ≠ .ok 1 := by
  rcases o with (e | f) | x <;> simp [codeOf]

theorem ok_of_codeOf (h : codeOf o = .ok 0) : ∃ x, o = .ok x := by
  rcases o with (e | f) | x
  · cases h
  · cases h
  · exact ⟨x, rfl⟩

theorem error_of_codeOf (h : codeOf o = .ok 2) : ∃ e, o = .error (.error e) := by
  rcases o with (e | f) | x
  · exact ⟨e, rfl⟩
  · cases h
  · cases h

end CodeOf

theorem settle_tells (count : Nat) (o : Outcome (List Publishing)) :
    Tells (settle count o) (codeOf o) t := by
  cases o with
  | ok results =>
    exact (sayResults_tells results).bind (g := fun _ => .ok 0) fun _ _ _ _ =>
      .after fun _ => .pure 0
  | error f =>
    cases f with
    | error e => exact .after fun _ => .pure 2
    | fault f => exact ⟨t, rfl, .refl t⟩

/-- Executing a launch ends a run with the code for what came of it. -/
theorem publishWith_comes (exec : Executor) (l : Launch) (t : Session) :
    let r := (exec l.verify l.tasks).outcome (ready l.maxDelay t)
    ∃ u, (publishWith exec l).outcome t = (codeOf r.1, u) ∧ Writes (left l.maxDelay r.2) u := by
  intro r
  obtain ⟨u, hu, hw⟩ := settle_tells (t := left l.maxDelay r.2) l.tasks.length r.1
  refine ⟨u, ?_, hw⟩
  rw [← hu]
  show (settle l.tasks.length ((withLongestWait l.maxDelay _).outcome t).1).outcome
    ((withLongestWait l.maxDelay _).outcome t).2 = _
  rw [outcome_withLongestWait]

/-! ### The courses of a run -/

/-- Nothing was posted and no request was sent, and no adapter was used: there are none, or those
that the configuration sets up. -/
structure Idle (a : Arguments) (s : Situation) (t : Session) : Prop where
  posts : t.world.posts = []
  network : t.world.site.network = s.network
  adapters : t.world.adapters = [] ∨
    ∃ config, loaded a s = .ok config ∧ registered config s = .ok t.world.adapters

theorem idle_initial (a : Arguments) (s : Situation) : Idle a s (initial s) :=
  ⟨rfl, rfl, .inl rfl⟩

theorem Prepares.idle (h : Prepares s.token config (initial s) t) (hc : loaded a s = .ok config) :
    Idle a s t :=
  ⟨h.posts, h.network, h.adapters.imp_right fun ha => ⟨config, hc, ha⟩⟩

/-- A run with a configuration comes to execute a launch in a session: the tasks of the evaluation
of its content for the adapters and the rules of the configuration. -/
structure Launches (a : Arguments) (s : Situation) (config : Entries) (l : Launch) (t : Session) :
    Prop where
  reads : loaded a s = .ok config
  adapters : registered config s = .ok t.world.adapters
  tasks : ∃ fs c rules, opened a config s = .ok fs ∧ itemOf a s fs = .ok c ∧
    rulesOf config s.now = .ok rules ∧
    (evaluated s c t.world.adapters rules).outcome = .ok l.tasks
  settings : ∃ script, sectionOf config "script" "get" = .ok script ∧
    l.verify = verifyOf a script ∧
    maxDelayOf (Entries.get script "max_delay") = .ok l.maxDelay
  dryRun : a.dryRun = false
  session : ∃ w, t = (initial s).setWorld w
  idle : Idle a s t

theorem weighed_launch {script : Entries} {o : Outcome (List Task)}
    (h : weighed a script o = .ok (.inr l)) : o = .ok l.tasks ∧ a.dryRun = false ∧
      l.verify = verifyOf a script ∧
      maxDelayOf (Entries.get script "max_delay") = .ok l.maxDelay := by
  cases o with
  | error f =>
    simp only [weighed] at h
    cases hf : refusal? f <;> rw [hf] at h <;> cases h
  | ok ts =>
    rw [weighed] at h
    cases hd : a.dryRun with
    | true => rw [hd, if_pos rfl] at h; cases h
    | false =>
      rw [hd, if_neg (by decide)] at h
      obtain ⟨maxDelay, hm, h⟩ := ok_of_bind h
      cases h
      exact ⟨rfl, rfl, rfl, hm⟩

theorem launches_of_plan (hc : loaded a s = .ok config) (hp : plan a config s = .ok (.inr l))
    (ht : Prepares s.token config (initial s) t)
    (hr : registered config s = .ok t.world.adapters) : Launches a s config l t := by
  obtain ⟨fs, hfs, hp⟩ := ok_of_bind hp
  obtain ⟨_, -, hp⟩ := ok_of_bind hp
  obtain ⟨script, hscript, hp⟩ := ok_of_bind hp
  obtain ⟨hfound, hd, hv, hm⟩ := weighed_launch hp
  obtain ⟨c, registry, rules, hitem, hr', hrules, hts⟩ := found_ok a config hfound
  obtain rfl := Except.ok.inj (hr'.symm.trans hr)
  exact ⟨hc, hr, ⟨fs, c, rules, hfs, hitem, hrules, hts⟩, ⟨script, hscript, hv, hm⟩, hd, ht.world,
    ht.idle hc⟩

/-- Before it executes anything a run ends with code 1, or with 0 if it is only to show its tasks. -/
theorem plan_code {n : Nat} (h : plan a config s = .ok (.inl n)) :
    n = 1 ∨ n = 0 ∧ a.dryRun = true := by
  obtain ⟨fs, -, h⟩ := ok_of_bind h
  obtain ⟨_, -, h⟩ := ok_of_bind h
  obtain ⟨script, -, h⟩ := ok_of_bind h
  cases hts : found a config s fs with
  | error f =>
    rw [hts, weighed] at h
    cases hf : refusal? f with
    | none => rw [hf] at h; cases h
    | some message => rw [hf] at h; cases h; exact .inl rfl
  | ok ts =>
    rw [hts, weighed] at h
    cases hd : a.dryRun with
    | true => rw [hd, if_pos rfl] at h; cases h; exact .inr ⟨rfl, rfl⟩
    | false =>
      rw [hd, if_neg (by decide)] at h
      obtain ⟨maxDelay, -, h⟩ := ok_of_bind h
      cases h

/-- Without a configuration nothing else is done. -/
theorem runWith_unloaded {f : Failure} (hc : loaded a s = .error f) : ∃ o complaint,
    o ≠ .ok 0 ∧ o ≠ .ok 2 ∧ ∀ exec, runWith exec a s = ⟨o, complaint, initial s⟩ := by
  unfold runWith
  rw [hc]
  split
  · exact ⟨.ok 1, _, by simp, by simp, fun _ => rfl⟩
  · exact ⟨.error _, "", nofun, nofun, fun _ => rfl⟩
  · contradiction

/-- A run ends in one and the same way whatever executing tasks would do, or it executes a launch. -/
theorem run_courses (a : Arguments) (s : Situation) :
    (∃ o complaint t, Idle a s t ∧ (o = .ok 0 → a.dryRun = true) ∧ o ≠ .ok 2 ∧
      ∀ exec, runWith exec a s = ⟨o, complaint, t⟩) ∨
    ∃ config l t, Launches a s config l t ∧ ∀ exec,
      let r := (exec l.verify l.tasks).outcome (ready l.maxDelay t)
      ∃ u, runWith exec a s = ⟨codeOf r.1, "", u⟩ ∧ Writes (left l.maxDelay r.2) u := by
  cases hc : loaded a s with
  | error f =>
    obtain ⟨o, complaint, h0, h2, hrun⟩ := runWith_unloaded hc
    exact .inl ⟨o, complaint, initial s, idle_initial a s, fun h => absurd h h0, h2, hrun⟩
  | ok config =>
    obtain ⟨t, ht, hpt, hreg⟩ := prepare_comes a config s
    cases hp : plan a config s with
    | error f =>
      rw [hp] at ht
      refine .inl ⟨.error f, "", t, hpt.idle hc, nofun, nofun, fun exec => ?_⟩
      simp only [runWith, hc]
      rw [Act.outcome_bind_error ht]
    | ok end_ =>
      rw [hp] at ht
      cases end_ with
      | inl code =>
        have hcode := plan_code hp
        refine .inl ⟨.ok code, "", t, hpt.idle hc, fun h => ?_, fun h => ?_, fun exec => ?_⟩
        · obtain rfl := Except.ok.inj h
          simpa using hcode
        · obtain rfl := Except.ok.inj h
          simp at hcode
        · simp only [runWith, hc]
          rw [Act.outcome_bind_ok ht]
          rfl
      | inr l =>
        have hl := launches_of_plan hc hp hpt (hreg l hp)
        refine .inr ⟨config, l, t, hl, fun exec => ?_⟩
        obtain ⟨u, hu, hw⟩ := publishWith_comes exec l t
        refine ⟨u, ?_, hw⟩
        simp only [runWith, hc]
        rw [Act.outcome_bind_ok ht]
        exact congrArg (fun r : Outcome Nat × Session => Aftermath.mk r.1 "" r.2) hu

/-! ### Executing -/

namespace Launches

variable (h : Launches a s config l t)
include h

/-- Every task can be told of: its rule has a text for a name, if any, and its adapter for an id. -/
theorem reportable : ∀ task ∈ l.tasks, t.world.Reportable task := by
  intro task htask
  obtain ⟨fs, c, rules, -, -, -, hts⟩ := h.tasks
  obtain ⟨hknown, hrule⟩ := (evaluated_plain s c t.world.adapters rules).2 _ hts task htask
  obtain ⟨ad, had⟩ := Option.isSome_iff_exists.1 hknown
  have hnamed := Registry.build_all Registry.adapterOf_named (Prod.ext rfl h.adapters)
  obtain ⟨id, hid⟩ :=
    Registry.all_of_lookup (P := fun a => ∃ id, a.id = .ok (.text id)) hnamed had
  refine ⟨hrule, .text id, ?_, rfl⟩
  simp only [World.adapterId, World.adapter, had]
  exact hid

theorem lane : (ready l.maxDelay t).lane ≠ .inline := by
  obtain ⟨w, rfl⟩ := h.session
  cases l.maxDelay <;> simp [ready, initial, Session.setWorld]

theorem idle_ready : (ready l.maxDelay t).scheduler.Idle := by
  have hidle : t.scheduler.Idle := by
    obtain ⟨w, rfl⟩ := h.session
    exact Scheduler.idle_fresh { longest := s.longest } w
  cases l.maxDelay with
  | none => exact hidle
  | some m => exact hidle.renew _

end Launches

theorem world_ready (maxDelay : Option Int) (t : Session) :
    (ready maxDelay t).world = t.world := by
  cases maxDelay <;> rfl

/-- Closing an idle scheduler leaves the world alone. -/
theorem world_left {maxDelay : Option Int} (h : t.scheduler.Idle) :
    (left maxDelay t).world = t.world := by
  cases maxDelay with
  | none => rfl
  | some m =>
    show (Session.close t).world = _
    unfold Session.close
    split
    · rfl
    · show t.scheduler.close.world = _
      rw [Session.close_of_queue_nil h.queue]
      rfl

/-- What the exit code of a run says. -/
structure Accountable (a : Arguments) (s : Situation) : Prop where
  /-- With code 1, and in a dry run, nothing was executed: the run is the same whatever executing
  does. -/
  idle : (run a s).outcome = .ok 1 ∨ a.dryRun = true →
    (∀ exec, runWith exec a s = run a s) ∧ Idle a s (run a s).session
  /-- With code 0 each task of the evaluation that verification let through was posted once and
  with success, and nothing else was posted. Each post is one that its adapter came to when it
  published the content of the task, and nothing but lines of the log comes after the last. -/
  published : (run a s).outcome = .ok 0 → a.dryRun = false →
    ∃ config l t w journal, Launches a s config l t ∧
      t.world.Course (run a s).session.world.posts w ∧
      Delivered (dueOf l.verify l.tasks t.world) (run a s).session.world.posts ∧
      (run a s).session.world = { w with site.journal := journal }
  /-- With code 2 executing the tasks has ended with an error of the domain. -/
  aborted : (run a s).outcome = .ok 2 → ∃ config l t e, Launches a s config l t ∧
    ((Session.execute l.verify l.tasks).outcome (ready l.maxDelay t)).1 = .error (.error e)

theorem run_accountable (a : Arguments) (s : Situation) : Accountable a s := by
  rcases run_courses a s with ⟨o, complaint, t, hidle, h0, h2, hrun⟩ | ⟨config, l, t, hl, hexec⟩
  · have hsame := hrun Session.execute
    rw [← run_eq] at hsame
    rw [← hsame] at hrun
    refine ⟨fun _ => ⟨hrun, ?_⟩, fun h hd => ?_, fun h => ?_⟩
    · rw [hsame]
      exact hidle
    · rw [hsame] at h
      rw [h0 h] at hd
      cases hd
    · rw [hsame] at h
      exact absurd h h2
  · obtain ⟨u, hu, hw⟩ := hexec Session.execute
    rw [← run_eq] at hu
    have hcode : (run a s).outcome = codeOf _ := congrArg Aftermath.outcome hu
    refine ⟨?_, fun h _ => ?_, fun h => ?_⟩
    · rintro (h | h)
      · exact absurd (hcode.symm.trans h) codeOf_ne_one
      · rw [hl.dryRun] at h
        cases h
    · obtain ⟨results, hr⟩ := ok_of_codeOf (hcode.symm.trans h)
      have hready := world_ready l.maxDelay t
      obtain ⟨hidle, ps, hps, hdone⟩ := Session.execute_delivers hl.lane hl.idle_ready
        (by rw [hready]; exact hl.reportable) (Prod.ext hr rfl)
      rw [hready] at hps hdone
      obtain ⟨journal, hw⟩ := hw
      have hworld : (run a s).session.world =
          { ((Session.execute l.verify l.tasks).outcome (ready l.maxDelay t)).2.world with
            site.journal := journal } := by
        rw [hu, hw]
        show ({ (left l.maxDelay _).world with site.journal := journal } : World) = _
        rw [world_left hidle]
      have hposts : (run a s).session.world.posts = ps := by
        rw [hworld]
        exact hps.posts.trans (by rw [hl.idle.posts, List.nil_append])
      rw [← hposts] at hps hdone
      exact ⟨config, l, t, _, journal, hl, hps, hdone, hworld⟩
    · obtain ⟨e, he⟩ := error_of_codeOf (hcode.symm.trans h)
      exact ⟨config, l, t, e, hl, he⟩

end Syndicate.Command
