import Syndicate.Command
import Syndicate.Proofs.Dispatch.World

/-! A run up to the point where it executes tasks. It reads files, builds adapters and writes its
log, and sends and posts nothing. -/

namespace Syndicate.Command

/-- What a run executes: whether adapters are verified first, the longest wait, and the tasks. -/
structure Launch where
  verify : Bool
  maxDelay : Option Int
  tasks : List Task

/-- What the arguments say on verification, or else the configuration. -/
def verifyOf (a : Arguments) (script : Entries) : Bool :=
  (match a.verify with
    | some b => Value.bool b
    | none => (Entries.get? script "verify").getD (.bool true)).truthy

/-- Shows the tasks that were found. There is nothing to execute if that is all that is asked for. -/
def review (a : Arguments) (script : Entries) (tasks : List Task) : Run (Nat ⊕ Launch) := do
  say .info (toString tasks.length ++ " task(s) matched.")
  sayTasks tasks
  if a.dryRun then
    say .info "[DRY-RUN] Not publishing."
    pure (.inl 0)
  else
    let maxDelay ← lift (maxDelayOf (Entries.get script "max_delay"))
    pure (.inr ⟨verifyOf a script, maxDelay, tasks⟩)

/-- The part of a run behind the start of the log, up to what it executes, or to the exit code that
it ends with before. -/
def choose (a : Arguments) (config : Entries) (s : Situation) : Run (Nat ⊕ Launch) := do
  let script ← lift (sectionOf config "script" "get")
  match Act.outcome (findTasks a config s) (← get) with
  | (.error f, after) =>
    set after
    match refusal? f with
    | some message =>
      say .error message
      pure (.inl 1)
    | none => throw f
  | (.ok tasks, after) =>
    set after
    review a script tasks

/-- A run that has read its configuration, up to what it executes. -/
def prepare (a : Arguments) (config : Entries) (s : Situation) : Run (Nat ⊕ Launch) := do
  setUpLog config a.console s.now
  announceStart a config s.now
  choose a config s

/-- A way to execute a batch of tasks. -/
abbrev Executor := Bool → List Task → Run (List Publishing)

/-- The end of a run that has executed some number of tasks. -/
def settle (count : Nat) : Outcome (List Publishing) → Run Nat
  | .ok results => do
    sayResults results
    say .info ("Published " ++ toString results.length ++ " of " ++ toString count ++ " task(s).")
    pure 0
  | .error (.error e) => do
    say .error ("Publishing aborted: " ++ e.message)
    pure 2
  | .error f => throw f

/-- Executes a launch in some way, and ends a run with what came of it. -/
def publishWith (exec : Executor) (l : Launch) : Run Nat := fun t =>
  let r := (withLongestWait l.maxDelay (exec l.verify l.tasks)).outcome t
  (settle l.tasks.length r.1).run r.2

theorem publish_eq (l : Launch) :
    publish l.verify l.maxDelay l.tasks = publishWith Session.execute l := by
  funext t
  simp only [publish, publishWith, Act.outcome, EStateM.run]
  cases withLongestWait l.maxDelay (Session.execute l.verify l.tasks) t with
  | ok results u => rfl
  | error f u => cases f <;> rfl

def conclude (exec : Executor) : Nat ⊕ Launch → Run Nat
  | .inl code => pure code
  | .inr l => publishWith exec l

/-- What the configuration file of a run holds. -/
def loaded (a : Arguments) (s : Situation) : Outcome Entries :=
  match a.config with
  | some path => Config.load s.files path s.readers
  | none => faulty .wrongType

/-- A run that executes its tasks in some way. -/
def runWith (exec : Executor) (a : Arguments) (s : Situation) : Aftermath :=
  match loaded a s with
  | .error (.error (.config p)) => ⟨.ok 1, "sharebot: " ++ p.message ++ "\n", initial s⟩
  | .error f => ⟨.error f, "", initial s⟩
  | .ok config =>
    let (outcome, session) := (prepare a config s >>= conclude exec).outcome (initial s)
    ⟨outcome, "", session⟩

theorem proceed_eq (a : Arguments) (config : Entries) (s : Situation) :
    proceed a config s = choose a config s >>= conclude Session.execute := by
  simp only [proceed, choose, review, bind_assoc]
  congr 1
  funext script
  congr 1
  funext t
  cases Act.outcome (findTasks a config s) t with
  | mk o after =>
    cases o with
    | error f =>
      simp only [bind_assoc]
      congr 1
      funext _
      cases refusal? f <;> rfl
    | ok tasks =>
      simp only [bind_assoc]
      congr 1
      funext _
      congr 1
      funext _
      congr 1
      funext _
      cases a.dryRun with
      | true => rfl
      | false =>
        simp only [Bool.false_eq_true, ↓reduceIte, bind_assoc, pure_bind]
        congr 1
        funext maxDelay
        exact publish_eq ⟨verifyOf a script, maxDelay, tasks⟩

theorem run_eq (a : Arguments) (s : Situation) : run a s = runWith Session.execute a s := by
  simp only [run, runWith, prepare, proceed_eq, bind_assoc]
  rfl

/-! ### What is left alone -/

/-- Only the log has changed. -/
def Writes (t u : Session) : Prop :=
  ∃ journal, u = t.setWorld { t.world with site.journal := journal }

/-- Nothing was sent and nothing posted, and no adapter was used: those there are now were there, or
are those that a configuration sets up. -/
structure Prepares (token : Option String) (config : Entries) (t u : Session) : Prop where
  world : ∃ w, u = t.setWorld w
  posts : u.world.posts = t.world.posts
  network : u.world.site.network = t.world.site.network
  adapters : u.world.adapters = t.world.adapters ∨
    (Registry.build token (.map config)).2 = .ok u.world.adapters

namespace Writes

theorem refl (t : Session) : Writes t t := ⟨t.world.site.journal, rfl⟩

variable {t u v : Session}

theorem trans (h : Writes t u) (h' : Writes u v) : Writes t v := by
  obtain ⟨journal, rfl⟩ := h
  obtain ⟨journal', rfl⟩ := h'
  exact ⟨journal', rfl⟩

theorem prepares {token : Option String} {config : Entries} (h : Writes t u) :
    Prepares token config t u := by
  obtain ⟨journal, rfl⟩ := h
  exact ⟨⟨_, rfl⟩, rfl, rfl, .inl rfl⟩

theorem files (h : Writes t u) : u.world.site.files = t.world.site.files := by
  obtain ⟨journal, rfl⟩ := h
  rfl

theorem posts (h : Writes t u) : u.world.posts = t.world.posts := by
  obtain ⟨journal, rfl⟩ := h
  rfl

theorem adapters (h : Writes t u) : u.world.adapters = t.world.adapters := by
  obtain ⟨journal, rfl⟩ := h
  rfl

end Writes

theorem Prepares.trans {token : Option String} {config : Entries} {t u v : Session}
    (h : Prepares token config t u) (h' : Prepares token config u v) :
    Prepares token config t v := by
  obtain ⟨w, hw⟩ := h.world
  obtain ⟨w', hw'⟩ := h'.world
  refine ⟨⟨w', ?_⟩, h'.posts.trans h.posts, h'.network.trans h.network, ?_⟩
  · rw [hw', hw]
    rfl
  · rcases h'.adapters with ha | ha
    · rw [ha]
      exact h.adapters
    · exact .inr ha

/-! ### Telling -/

/-- From a session an action comes to an outcome, and changes nothing but the log. -/
def Tells {α : Type} (x : Run α) (o : Outcome α) (t : Session) : Prop :=
  ∃ u, x.outcome t = (o, u) ∧ Writes t u

namespace Tells

variable {α β : Type} {t : Session}

theorem pure (x : α) : Tells (Pure.pure x) (.ok x) t := ⟨t, rfl, .refl t⟩

theorem lift (o : Outcome α) : Tells (Command.lift o) o t :=
  ⟨t, Act.outcome_ofOutcome t o, .refl t⟩

theorem write (r : Record) : Tells (Session.write r) (.ok ()) t := ⟨_, rfl, _, rfl⟩

theorem bind {x : Run α} {o : Outcome α} {f : α → Run β} {g : α → Outcome β} (hx : Tells x o t)
    (hf : ∀ a u, o = .ok a → Writes t u → Tells (f a) (g a) u) :
    Tells (x >>= f) (o >>= g) t := by
  obtain ⟨u, hu, hw⟩ := hx
  cases o with
  | error e => exact ⟨u, Act.outcome_bind_error hu, hw⟩
  | ok a =>
    obtain ⟨v, hv, hw'⟩ := hf a u rfl hw
    exact ⟨v, (Act.outcome_bind_ok hu).trans hv, hw.trans hw'⟩

/-- What was written before makes no difference to an outcome. -/
theorem after {x : Run α} {o : Outcome α} {r : Record} (h : ∀ u, Tells x o u) :
    Tells (Session.write r >>= fun _ => x) o t :=
  (write r).bind (g := fun _ => o) fun _ u _ _ => h u

end Tells

variable {t : Session}

theorem announceAll_tells (ms : List String) : Tells (announceAll ms) (.ok ()) t := by
  induction ms generalizing t with
  | nil => exact .pure ()
  | cons m ms ih => exact .after fun _ => ih

theorem writeRecords_tells (rs : List Record) : Tells (writeRecords rs) (.ok ()) t := by
  induction rs generalizing t with
  | nil => exact .pure ()
  | cons r rs ih => exact .after fun _ => ih

theorem sayResults_tells (ps : List Publishing) : Tells (sayResults ps) (.ok ()) t := by
  induction ps generalizing t with
  | nil => exact .pure ()
  | cons p ps ih => exact .after fun _ => ih

/-- The lines about adapters, as far as they can be shown. -/
def adapterLines : Entries → Outcome Unit
  | [] => .ok ()
  | (name, entry) :: es => do
    let _ ← adapterLine name entry
    adapterLines es

/-- What the start of the log needs of a configuration. -/
def started (config : Entries) : Outcome Unit := do
  adapterLines (← sectionOf config "adapters" "items")
  let _ ← ruleCount config
  pure ()

theorem announceAdapters_tells (es : Entries) :
    Tells (announceAdapters es) (adapterLines es) t := by
  induction es generalizing t with
  | nil => exact .pure ()
  | cons e es ih => exact (Tells.lift _).bind fun line _ _ _ => .after fun _ => ih

theorem announceStart_tells (a : Arguments) (config : Entries) (now : Instant) :
    Tells (announceStart a config now) (started config) t := by
  refine (announceAll_tells _).bind (g := fun _ => started config) fun _ _ _ _ => ?_
  refine (announceAll_tells _).bind (g := fun _ => started config) fun _ _ _ _ => ?_
  refine .after fun _ => ?_
  refine (Tells.lift _).bind fun adapters _ _ _ => ?_
  refine (announceAdapters_tells adapters).bind fun _ _ _ _ => ?_
  exact (Tells.lift _).bind fun count _ _ _ => .after fun _ => .write _

theorem emitAll_tells {es : List Event} (h : ∀ e ∈ es, e.isShowable = true) :
    Tells (emitAll es) (.ok ()) t := by
  induction es generalizing t with
  | nil => exact .pure ()
  | cons e es ih =>
    obtain ⟨he, h⟩ := List.forall_mem_cons.1 h
    have hemit : Tells (Session.emit e) (.ok ()) t := by
      rw [Session.emit, if_pos he]
      exact ⟨_, rfl, _, rfl⟩
    exact hemit.bind (g := fun _ => .ok ()) fun _ _ _ _ => ih h

/-- Tasks can be told of when their adapters are there and have ids. -/
theorem sayTasks_tells {ts : List Task}
    (h : ∀ task ∈ ts, (t.world.adapters.lookup task.adapter).isSome = true)
    (hid : ∀ name a, t.world.adapters.lookup name = some a → ∃ id, a.id = .ok id) :
    Tells (sayTasks ts) (.ok ()) t := by
  induction ts generalizing t with
  | nil => exact .pure ()
  | cons task ts ih =>
    obtain ⟨htask, h⟩ := List.forall_mem_cons.1 h
    obtain ⟨a, ha⟩ := Option.isSome_iff_exists.1 htask
    obtain ⟨id, hid'⟩ := hid _ a ha
    have hadapter : Tells (Session.adapterId task.adapter) (.ok id) t := by
      refine ⟨t, ?_, .refl t⟩
      rw [Session.adapterId, Act.outcome_bind_ok (Act.outcome_get t), Act.outcome_ofOutcome]
      simp only [World.adapterId, World.adapter, ha]
      exact congrArg (·, t) hid'
    refine hadapter.bind (g := fun _ => .ok ()) fun _ u _ hu => ?_
    refine (writeRecords_tells _).bind (g := fun _ => .ok ()) fun _ v _ hv => ?_
    have hall := (hu.trans hv).adapters
    exact ih (hall ▸ h) (hall ▸ hid)

end Syndicate.Command
