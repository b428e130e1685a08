import Syndicate.Proofs.Command.Prepare
import Syndicate.Proofs.Dispatch.Immediate
import Syndicate.Proofs.Registry
import Syndicate.Proofs.Routing

/-! What a run comes to before it executes tasks, as a function of its arguments and its files: the
failure or the exit code that it ends with, or what it executes and in which session. -/

namespace Syndicate

namespace Routing

open Traced

variable {known : String → Bool} {now : Instant} {c : Content}

/-- A step that can be reported: to a known adapter, for a rule that can be shown. -/
def Step.IsPlain (known : String → Bool) : Step → Prop
  | .missing e => e.isShowable = true
  | .yields t => known t.adapter = true ∧ t.rule.isShowable = true
  | .fails _ => True

theorem showable_ofOption (name : Option String) : (Value.ofOption name).isShowable = true := by
  cases name <;> rfl

theorem stepsOf_plain (r : Rule) : ∀ x ∈ stepsOf known now c (.rule r), x.IsPlain known := by
  intro x hx
  simp only [stepsOf, RuleEntry.rule?] at hx
  split at hx
  · obtain rfl := List.mem_singleton.1 hx
    trivial
  · cases hx
  · obtain ⟨d, -, rfl⟩ := List.mem_map.1 hx
    have hname := showable_ofOption r.name
    unfold stepTo
    split
    · rename_i hknown
      cases Delay.parse now d.delay with
      | error f => trivial
      | ok delay => exact ⟨hknown, hname⟩
    · exact hname

theorem walked_plain {steps : List Step} (h : ∀ x ∈ steps, x.IsPlain known) :
    (∀ e ∈ (walked steps).events, e.isShowable = true) ∧
    ∀ ts, (walked steps).outcome = .ok ts →
      ∀ t ∈ ts, known t.adapter = true ∧ t.rule.isShowable = true := by
  refine ⟨fun e he => ?_, fun ts hts t ht => ?_⟩
  · obtain ⟨x, hx, he⟩ := List.mem_filterMap.1 he
    have hplain := h x (List.takeWhile_subset _ hx)
    cases x with
    | missing e' =>
      obtain rfl := Option.some.inj he
      exact hplain
    | yields t => cases he
    | fails f => cases he
  · simp only [walked] at hts
    split at hts
    · cases hts
    · cases hts
      obtain ⟨x, hx, ht⟩ := List.mem_filterMap.1 ht
      have hplain := h x hx
      cases x with
      | yields t' =>
        obtain rfl := Option.some.inj ht
        exact hplain
      | missing e => cases ht
      | fails f => cases ht

end Routing

namespace Command

variable (a : Arguments) (config : Entries) (s : Situation)

/-! ### Finding tasks -/

/-- The item of the content file. -/
def itemOf (fs : Files) : Outcome Content :=
  match a.content with
  | some path => Config.loadContent fs path s.readers
  | none => faulty .wrongType

/-- The adapters that a configuration sets up. -/
def registered : Outcome Registry := (Registry.build s.token (.map config)).2

/-- The tasks for an item, some adapters and some rules. -/
def evaluated (c : Content) (registry : Registry) (rules : List Rule) : Traced (List Task) :=
  Routing.tasks (fun name => (registry.lookup name).isSome) s.now Validator.body (.item c)
    (.ok (rules.map .rule))

/-- The tasks that a run finds with some files. -/
def found (fs : Files) : Outcome (List Task) := do
  let c ← itemOf a s fs
  let registry ← registered config s
  let rules ← rulesOf config s.now
  (evaluated s c registry rules).outcome

variable {s} {t : Session} {c : Content} {registry : Registry} {rules : List Rule}

/-- The steps of an evaluation, unless the item is refused, can be reported. -/
theorem evaluated_plain (s : Situation) (c : Content) (registry : Registry) (rules : List Rule) :
    (∀ e ∈ (evaluated s c registry rules).events, e.isShowable = true) ∧
    ∀ ts, (evaluated s c registry rules).outcome = .ok ts → ∀ t ∈ ts,
      (registry.lookup t.adapter).isSome = true ∧ t.rule.isShowable = true := by
  rw [evaluated, Routing.tasks_eq_evaluation, Routing.evaluation_eq]
  cases Routing.accepted Validator.body (.item c) with
  | error f => exact ⟨by simp, nofun⟩
  | ok c =>
    let known (name : String) : Bool := (registry.lookup name).isSome
    have hsteps : ∀ x ∈ (rules.map .rule).flatMap (Routing.stepsOf known s.now c),
        x.IsPlain known := fun x hx => by
      obtain ⟨e, he, hx⟩ := List.mem_flatMap.1 hx
      obtain ⟨r, -, rfl⟩ := List.mem_map.1 he
      exact Routing.stepsOf_plain r x hx
    exact Routing.walked_plain hsteps

/-- The part of finding tasks that comes after the adapters were set up. -/
def evaluate (s : Situation) (c : Content) : Run (List Task) := do
  let rules ← lift (rulesOf config s.now)
  let adapters := (← get).world.adapters
  emitAll (evaluated s c adapters rules).events
  let ts ← lift (evaluated s c adapters rules).outcome
  writeRecords (Routing.evaluated ts.length c).toList
  pure ts

theorem findTasks_eq (s : Situation) : findTasks a config s = (do
    let c ← lift (itemOf a s (← files))
    setUpAdapters s.token config
    evaluate config s c) := rfl

theorem evaluate_tells (c : Content) : Tells (evaluate config s c)
    (do
      let rules ← rulesOf config s.now
      (evaluated s c t.world.adapters rules).outcome) t := by
  refine (Tells.lift _).bind fun rules u _ hu => ?_
  rw [← hu.adapters]
  obtain ⟨hevents, -⟩ := evaluated_plain s c u.world.adapters rules
  obtain ⟨v, hv, hw⟩ := emitAll_tells (t := u) hevents
  have hline : ∀ (ts : List Task) (t : Session), Tells (do
      writeRecords (Routing.evaluated ts.length c).toList
      pure ts) (.ok ts) t := fun ts t =>
    (writeRecords_tells _).bind (g := fun _ => .ok ts) fun _ _ _ _ => .pure ts
  obtain ⟨w, hw', hwrites⟩ := (Tells.lift (t := v) (evaluated s c u.world.adapters rules).outcome).bind
    (g := .ok) fun ts t _ _ => hline ts t
  have hok : ∀ o : Outcome (List Task), (o >>= .ok) = o := fun o => by cases o <;> rfl
  rw [hok] at hw'
  refine ⟨w, ?_, hw.trans hwrites⟩
  rw [Act.outcome_bind_ok (Act.outcome_get u), Act.outcome_bind_ok hv]
  exact hw'

/-- Setting up adapters puts those of the configuration in the place of all others. -/
theorem setUpAdapters_comes (t : Session) : ∃ u, Writes t u ∧
    (setUpAdapters s.token config).outcome t = match registered config s with
      | .error f => (.error f, u)
      | .ok registry => (.ok (), u.setWorld { u.world with adapters := registry }) := by
  obtain ⟨u, hu, hw⟩ := writeRecords_tells (t := t) (Registry.build s.token (.map config)).1
  have heq : setUpAdapters s.token config =
      writeRecords (Registry.build s.token (.map config)).1 >>= fun _ =>
        lift (registered config s) >>= fun registry =>
          modify fun s => s.setWorld { s.world with adapters := registry } := rfl
  refine ⟨u, hw, ?_⟩
  rw [heq, Act.outcome_bind_ok hu, lift, Act.outcome_ofOutcome_bind]
  cases registered config s <;> rfl

/-- What finding tasks leaves: the adapters of the configuration, if it finds any. -/
structure Finds (t u : Session) : Prop extends Prepares s.token config t u where
  files : u.world.site.files = t.world.site.files
  found : ∀ ts, found a config s t.world.site.files = .ok ts →
    registered config s = .ok u.world.adapters

variable (s) in
theorem findTasks_comes (t : Session) : ∃ u,
    (findTasks a config s).outcome t = (found a config s t.world.site.files, u) ∧
    Finds a config (s := s) t u := by
  have hfiles : files.outcome t = (.ok t.world.site.files, t) := rfl
  rw [findTasks_eq, Act.outcome_bind_ok hfiles, lift, Act.outcome_ofOutcome_bind]
  unfold found
  cases hc : itemOf a s t.world.site.files with
  | error f =>
    refine ⟨t, rfl, (Writes.refl t).prepares, rfl, fun ts h => ?_⟩
    simp only [found, hc] at h
    cases h
  | ok c =>
    obtain ⟨u, hw, hu⟩ := setUpAdapters_comes config (s := s) t
    cases hr : registered config s with
    | error f =>
      rw [hr] at hu
      refine ⟨u, Act.outcome_bind_error hu, hw.prepares, hw.files, fun ts h => ?_⟩
      simp only [found, hc, hr] at h
      cases h
    | ok registry =>
      rw [hr] at hu
      let v := u.setWorld { u.world with adapters := registry }
      obtain ⟨w, ho, hv⟩ := evaluate_tells config (s := s) (t := v) c
      have hset : Prepares s.token config u v := ⟨⟨_, rfl⟩, rfl, rfl, .inr hr⟩
      refine ⟨w, (Act.outcome_bind_ok hu).trans ho,
        hw.prepares.trans (hset.trans hv.prepares), hv.files.trans hw.files, fun _ _ => ?_⟩
      rw [hr, hv.adapters]
      rfl

/-! ### Before and after finding tasks -/

/-- The base of the log file's name. -/
def logBase : Outcome String := do
  let script ← sectionOf config "script" "get"
  ((Entries.get? script "log_file_name").getD (.text "sharebot")).shown

/-- The files once a log file is opened at a path. -/
def withLog (fs : Files) (path : String) : Outcome Files := do
  openLog (← makeLogDirectory fs) path

/-- The files once the log is opened, which are the same when it goes to the console. -/
def opened (s : Situation) : Outcome Files :=
  if a.console then .ok s.files
  else do
    let base ← logBase config
    withLog s.files (logPath base s.now)

/-- Opens the log file at a path. -/
def logTo (path : String) : Run Unit := do
  let fs ← lift (makeLogDirectory (← files))
  setFiles fs
  setFiles (← lift (openLog fs path))
  announce "Logging initialized."
  announce ("Logging to file: " ++ path)

theorem setUpLog_eq (now : Instant) : setUpLog config false now =
    lift (logBase config) >>= fun base => logTo (logPath base now) := by
  have hlift : ∀ {α β : Type} (x : Outcome α) (f : α → Outcome β),
      lift (x >>= f) = lift x >>= fun b => lift (f b) := by
    intro α β x f
    cases x <;> rfl
  rw [logBase, hlift, bind_assoc]
  rfl

theorem setFiles_comes (token : Option String) (t : Session) (fs : Files) : ∃ u,
    (setFiles fs).outcome t = (.ok (), u) ∧ Prepares token config t u ∧
    u.world.site.files = fs :=
  ⟨_, rfl, ⟨⟨_, rfl⟩, rfl, rfl, .inl rfl⟩, rfl⟩

theorem logTo_comes (token : Option String) (t : Session) (path : String) : ∃ u,
    (logTo path).outcome t = ((withLog t.world.site.files path).map fun _ => (), u) ∧
    Prepares token config t u ∧
    ∀ fs, withLog t.world.site.files path = .ok fs → u.world.site.files = fs := by
  have hfiles : files.outcome t = (.ok t.world.site.files, t) := rfl
  unfold logTo withLog
  rw [Act.outcome_bind_ok hfiles, lift, Act.outcome_ofOutcome_bind]
  cases makeLogDirectory t.world.site.files with
  | error f => exact ⟨t, rfl, (Writes.refl t).prepares, nofun⟩
  | ok fs =>
    obtain ⟨u, hu, hpu, -⟩ := setFiles_comes config token t fs
    show ∃ v, _ = ((openLog fs path).map fun _ => (), v) ∧ _ ∧ ∀ fs', openLog fs path = _ → _
    dsimp only
    rw [Act.outcome_bind_ok hu, lift, Act.outcome_ofOutcome_bind]
    cases openLog fs path with
    | error f => exact ⟨u, rfl, hpu, nofun⟩
    | ok fs' =>
      obtain ⟨v, hv, hpv, hfv⟩ := setFiles_comes config token u fs'
      obtain ⟨w, hw, hwrites⟩ : Tells (announce "Logging initialized." >>= fun _ =>
        announce ("Logging to file: " ++ path)) (.ok ()) v := .after fun _ => .write _
      refine ⟨w, (Act.outcome_bind_ok hv).trans hw, (hpu.trans hpv).trans hwrites.prepares, ?_⟩
      rintro fs'' ⟨⟩
      exact hwrites.files.trans hfv

theorem setUpLog_comes (ht : t.world.site.files = s.files) : ∃ u,
    (setUpLog config a.console s.now).outcome t = ((opened a config s).map fun _ => (), u) ∧
    Prepares s.token config t u ∧ ∀ fs, opened a config s = .ok fs → u.world.site.files = fs := by
  unfold opened
  cases a.console with
  | true =>
    obtain ⟨u, hu, hw⟩ : Tells (setUpLog config true s.now) (.ok ()) t := .after fun _ => .write _
    exact ⟨u, hu, hw.prepares, fun fs h => (hw.files.trans ht).trans (Except.ok.inj h)⟩
  | false =>
    rw [setUpLog_eq, lift, Act.outcome_ofOutcome_bind]
    cases logBase config with
    | error f => exact ⟨t, rfl, (Writes.refl t).prepares, nofun⟩
    | ok base =>
      obtain ⟨u, hu⟩ := logTo_comes config s.token t (logPath base s.now)
      rw [ht] at hu
      exact ⟨u, hu⟩

/-- What comes of the tasks that a run finds, or of its failure to find any. -/
def weighed (script : Entries) : Outcome (List Task) → Outcome (Nat ⊕ Launch)
  | .error f => match refusal? f with
    | some _ => .ok (.inl 1)
    | none => .error f
  | .ok ts =>
    if a.dryRun then pure (.inl 0)
    else do
      let maxDelay ← maxDelayOf (Entries.get script "max_delay")
      pure (.inr ⟨verifyOf a script, maxDelay, ts⟩)

/-- What a run comes to once its log has begun. -/
def chosen (s : Situation) (fs : Files) : Outcome (Nat ⊕ Launch) := do
  let script ← sectionOf config "script" "get"
  weighed a script (found a config s fs)

/-- What a run with a configuration comes to before it executes tasks. -/
def plan (s : Situation) : Outcome (Nat ⊕ Launch) := do
  let fs ← opened a config s
  started config
  chosen a config s fs

theorem found_ok {fs : Files} {ts : List Task} (h : found a config s fs = .ok ts) :
    ∃ c registry rules, itemOf a s fs = .ok c ∧ registered config s = .ok registry ∧
      rulesOf config s.now = .ok rules ∧ (evaluated s c registry rules).outcome = .ok ts := by
  obtain ⟨c, hc, h⟩ := ok_of_bind h
  obtain ⟨registry, hr, h⟩ := ok_of_bind h
  obtain ⟨rules, hrules, h⟩ := ok_of_bind h
  exact ⟨c, registry, rules, hc, hr, hrules, h⟩

/-- The tasks that were found can be told of: their adapters are there and have ids. -/
theorem sayTasks_of_finds {u v : Session} {ts : List Task} (h : Finds a config (s := s) t u)
    (hts : found a config s t.world.site.files = .ok ts) (hw : Writes u v) :
    Tells (sayTasks ts) (.ok ()) v := by
  obtain ⟨c, registry, rules, -, hr, -, htasks⟩ := found_ok a config hts
  have hreg : registry = v.world.adapters := by
    rw [hw.adapters]
    exact Except.ok.inj (hr.symm.trans (h.found ts hts))
  have hnamed := Registry.build_all Registry.adapterOf_named (Prod.ext rfl hr)
  rw [hreg] at hnamed htasks
  refine sayTasks_tells (fun task htask => ?_) fun name ad had => ?_
  · exact ((evaluated_plain s c v.world.adapters rules).2 ts htasks task htask).1
  · obtain ⟨id, hid⟩ :=
      Registry.all_of_lookup (P := fun a => ∃ id, a.id = .ok (.text id)) hnamed had
    exact ⟨_, hid⟩

theorem review_tells (script : Entries) {ts : List Task}
    (h : ∀ u, Writes t u → Tells (sayTasks ts) (.ok ()) u) :
    Tells (review a script ts) (weighed a script (.ok ts)) t := by
  have hline : Tells (say .info (toString ts.length ++ " task(s) matched.")) (.ok ()) t := .write _
  refine hline.bind (g := fun _ => weighed a script (.ok ts)) fun _ u _ hu => ?_
  refine (h u hu).bind (g := fun _ => weighed a script (.ok ts)) fun _ v _ _ => ?_
  unfold weighed
  cases a.dryRun with
  | true => exact .after fun _ => .pure _
  | false => exact (Tells.lift _).bind fun maxDelay _ _ _ => .pure _

/-- A run that failed has nothing to execute. -/
theorem error_ne_launch (f : Failure) (l : Launch) :
    (.error f : Outcome (Nat ⊕ Launch)) ≠ .ok (.inr l) := by simp

/-- Nor has one that is over with a code. -/
theorem code_ne_launch (n : Nat) (l : Launch) :
    (.ok (.inl n) : Outcome (Nat ⊕ Launch)) ≠ .ok (.inr l) := by simp

variable (s)

theorem choose_comes (t : Session) : ∃ u,
    (choose a config s).outcome t = (chosen a config s t.world.site.files, u) ∧
    Prepares s.token config t u ∧ ∀ l, chosen a config s t.world.site.files = .ok (.inr l) →
      registered config s = .ok u.world.adapters := by
  rw [choose, lift, Act.outcome_ofOutcome_bind]
  unfold chosen
  cases sectionOf config "script" "get" with
  | error f => exact ⟨t, rfl, (Writes.refl t).prepares, fun l h => absurd h (error_ne_launch f l)⟩
  | ok script =>
    obtain ⟨u, hu, hfinds⟩ := findTasks_comes a config s t
    show ∃ u, _ = (weighed a script (found a config s t.world.site.files), u) ∧ _ ∧
      ∀ l, weighed a script (found a config s t.world.site.files) = .ok (.inr l) → _
    dsimp only
    rw [Act.outcome_bind_ok (Act.outcome_get t), hu]
    cases hts : found a config s t.world.site.files with
    | error f =>
      dsimp only [weighed]
      rw [Act.outcome_bind_ok (Act.outcome_set t u)]
      cases refusal? f with
      | none => exact ⟨u, rfl, hfinds.toPrepares, fun l h => absurd h (error_ne_launch f l)⟩
      | some message =>
        obtain ⟨v, hv, hw⟩ : Tells (say .error message >>= fun _ => pure (.inl 1 : Nat ⊕ Launch))
          (.ok (.inl 1)) u := .after fun _ => .pure _
        exact ⟨v, hv, hfinds.toPrepares.trans hw.prepares, fun l h => absurd h (code_ne_launch 1 l)⟩
    | ok ts =>
      obtain ⟨v, hv, hw⟩ := review_tells a script fun v hv => sayTasks_of_finds a config hfinds hts hv
      dsimp only
      rw [Act.outcome_bind_ok (Act.outcome_set t u)]
      refine ⟨v, hv, hfinds.toPrepares.trans hw.prepares, fun _ _ => ?_⟩
      rw [hw.adapters]
      exact hfinds.found ts hts

/-- What a run with a configuration comes to, and the session that it leaves: one in which nothing
was sent or posted, with the adapters of the configuration if there is something to execute. -/
theorem prepare_comes : ∃ t, (prepare a config s).outcome (initial s) = (plan a config s, t) ∧
    Prepares s.token config (initial s) t ∧ ∀ l, plan a config s = .ok (.inr l) →
      registered config s = .ok t.world.adapters := by
  obtain ⟨t, ht, hpt, hfiles⟩ := setUpLog_comes a config (s := s) (t := initial s) rfl
  unfold prepare plan
  cases hfs : opened a config s with
  | error f =>
    rw [hfs] at ht
    exact ⟨t, Act.outcome_bind_error ht, hpt, fun l h => absurd h (error_ne_launch f l)⟩
  | ok fs =>
    rw [hfs] at ht
    rw [Act.outcome_bind_ok ht]
    obtain ⟨u, hu, hw⟩ := announceStart_tells (t := t) a config s.now
    cases hstart : started config with
    | error f =>
      rw [hstart] at hu
      exact ⟨u, Act.outcome_bind_error hu, hpt.trans hw.prepares, fun l h => absurd h (error_ne_launch f l)⟩
    | ok _ =>
      rw [hstart] at hu
      rw [Act.outcome_bind_ok hu]
      obtain ⟨v, hv, hpv, hreg⟩ := choose_comes a config s u
      rw [hw.files, hfiles fs hfs] at hv hreg
      exact ⟨v, hv, hpt.trans (hw.prepares.trans hpv), hreg⟩

end Command

end Syndicate
