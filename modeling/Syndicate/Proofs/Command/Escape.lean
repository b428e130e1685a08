import Syndicate.Proofs.Command.Break
import Syndicate.Proofs.Command.Exit
import Syndicate.Proofs.Dispatch.Broken

/-! How a run ends, as a function of its arguments, its files and its network. It ends with code 1
if an input is refused and with code 2 if executing its tasks is given up; and it escapes, without a
code, on what nothing before has refused. -/

namespace Syndicate.Command

variable {a : Arguments} {config : Entries} {s : Situation} {fs : Files}

/-! ### The log -/

/-- The log of a run breaks: its settings are no mapping, the name in them cannot be shown, or the
log file cannot be opened. -/
inductive LogBreaks (config : Entries) (s : Situation) : Prop
  | settings (h : (Entries.get config "script").Misshapen)
  | name {script : Entries} (hscript : sectionOf config "script" "get" = .ok script)
    (h : ((Entries.get? script "log_file_name").getD (.text "sharebot")).isShowable = false)
  | file {base : String} (hbase : logBase config = .ok base)
    (h : Breaks (withLog s.files (logPath base s.now)))

theorem sectionOf_uses {name member : String} : Uses (sectionOf config name member) :=
  Value.section_uses

theorem breaks_sectionOf {name member : String} :
    Breaks (sectionOf config name member) ↔ (Entries.get config name).Misshapen :=
  Value.breaks_section

theorem logBase_uses : Uses (logBase config) := .bind sectionOf_uses fun _ => Value.shown_uses

theorem withLog_uses {path : String} : Uses (withLog fs path) := by
  refine .bind ?_ fun fs => ?_
  · unfold makeLogDirectory
    split
    · exact .faulty _
    · exact .ok _
  · unfold openLog
    split
    · exact .faulty _
    · dsimp only
      split
      · exact .pure _
      · split
        · exact .faulty _
        · exact .pure _
      · exact .faulty _

theorem opened_uses : Uses (opened a config s) := by
  unfold opened
  split
  · exact .ok _
  · exact .bind logBase_uses fun _ => withLog_uses

theorem breaks_opened : Breaks (opened a config s) ↔ a.console = false ∧ LogBreaks config s := by
  unfold opened
  cases a.console with
  | true => simp
  | false =>
    simp only [Bool.false_eq_true, ↓reduceIte, true_and]
    rw [breaks_bind]
    constructor
    · rintro (h | ⟨base, hbase, h⟩)
      · rcases breaks_bind.1 h with h | ⟨script, hscript, h⟩
        · exact .settings (breaks_sectionOf.1 h)
        · exact .name hscript (Value.breaks_shown.1 h)
      · exact .file hbase h
    · rintro (h | ⟨hscript, h⟩ | ⟨hbase, h⟩)
      · exact .inl (breaks_bind.2 (.inl (breaks_sectionOf.2 h)))
      · exact .inl (breaks_bind.2 (.inr ⟨_, hscript, Value.breaks_shown.2 h⟩))
      · exact .inr ⟨_, hbase, h⟩

/-! ### The start of the log -/

/-- The line about an adapter breaks: its entry is no mapping, or its name, its type or what it says
of being switched on cannot be shown. -/
inductive LineBreaks (name entry : Value) : Prop
  | misshapen (h : entry.Misshapen)
  | name (h : name.isShowable = false)
  | kind {es : Entries} (hes : Registry.fieldsOf entry = .ok es)
    (h : ((Entries.get? es "type").getD name).isShowable = false)
  | enabled {es : Entries} (hes : Registry.fieldsOf entry = .ok es)
    (h : ((Entries.get? es "enabled").getD (.bool true)).isShowable = false)

theorem adapterLine_eq (name entry : Value) : adapterLine name entry = (do
    let es ← Registry.fieldsOf entry
    let shown ← name.shown
    let kind ← ((Entries.get? es "type").getD name).shown
    let enabled ← ((Entries.get? es "enabled").getD (.bool true)).shown
    pure ("  ADAPTER - " ++ shown ++ ": type=" ++ kind ++ " enabled=" ++ enabled)) := by
  unfold adapterLine Registry.fieldsOf
  split <;> rfl

theorem adapterLine_uses {name entry : Value} : Uses (adapterLine name entry) := by
  rw [adapterLine_eq]
  exact .bind Value.section_uses fun _ => .bind Value.shown_uses fun _ =>
    .bind Value.shown_uses fun _ => .bind Value.shown_uses fun _ => .pure _

theorem breaks_adapterLine {name entry : Value} :
    Breaks (adapterLine name entry) ↔ LineBreaks name entry := by
  have hfields : ∀ es : Entries, Breaks (do
      let shown ← name.shown
      let kind ← ((Entries.get? es "type").getD name).shown
      let enabled ← ((Entries.get? es "enabled").getD (.bool true)).shown
      pure ("  ADAPTER - " ++ shown ++ ": type=" ++ kind ++ " enabled=" ++ enabled)) ↔
      name.isShowable = false ∨ ((Entries.get? es "type").getD name).isShowable = false ∨
        ((Entries.get? es "enabled").getD (.bool true)).isShowable = false := by
    intro es
    rw [← Value.breaks_shown]
    refine Value.shown_uses.breaks_bind fun shown => ?_
    rw [← Value.breaks_shown]
    refine Value.shown_uses.breaks_bind fun kind => ?_
    rw [bind_pure_comp, breaks_mapped, Value.breaks_shown]
  rw [adapterLine_eq, breaks_bind]
  constructor
  · rintro (h | ⟨es, hes, h⟩)
    · exact .misshapen (Value.breaks_section.1 h)
    · rcases (hfields es).1 h with h | h | h
      · exact .name h
      · exact .kind hes h
      · exact .enabled hes h
  · intro h
    by_cases hshape : Breaks (Registry.fieldsOf entry)
    · exact .inl hshape
    · obtain ⟨es, hes⟩ : ∃ es, Registry.fieldsOf entry = .ok es :=
        Value.section_uses.not_breaks hshape
      refine .inr ⟨es, hes, (hfields es).2 ?_⟩
      rcases h with h | h | ⟨hes', h⟩ | ⟨hes', h⟩
      · exact absurd (Value.breaks_section.2 h) hshape
      · exact .inl h
      · obtain rfl := Except.ok.inj (hes.symm.trans hes')
        exact .inr (.inl h)
      · obtain rfl := Except.ok.inj (hes.symm.trans hes')
        exact .inr (.inr h)

theorem adapterLines_uses (es : Entries) : Uses (adapterLines es) := by
  induction es with
  | nil => exact .ok ()
  | cons e es ih => exact .bind adapterLine_uses fun _ => ih

theorem breaks_adapterLines (es : Entries) :
    Breaks (adapterLines es) ↔ ∃ e ∈ es, LineBreaks e.1 e.2 := by
  induction es with
  | nil => simp [adapterLines]
  | cons e es ih =>
    have hrest : ∀ _line : String, Breaks (adapterLines es) ↔ ∃ e ∈ es, LineBreaks e.1 e.2 :=
      fun _ => ih
    rw [List.exists_mem_cons_iff, ← breaks_adapterLine]
    exact adapterLine_uses.breaks_bind hrest

/-- The start of the log breaks: the adapters are no mapping, the line about one breaks, or there are
rules that cannot be counted. -/
inductive StartBreaks (config : Entries) : Prop
  | adapters (h : (Entries.get config "adapters").Misshapen)
  | line {es : Entries} {name entry : Value} (hes : Entries.get config "adapters" = .map es)
    (hmem : (name, entry) ∈ es) (h : LineBreaks name entry)
  | rules (htruthy : (Entries.get config "rules").truthy = true)
    (h : (Entries.get config "rules").isRow = false)

theorem ruleCount_uses : Uses (ruleCount config) := by
  unfold ruleCount
  dsimp only
  split
  · exact Value.length_uses
  · exact .ok 0

theorem breaks_ruleCount : Breaks (ruleCount config) ↔
    (Entries.get config "rules").truthy = true ∧ (Entries.get config "rules").isRow = false := by
  rw [← Value.breaks_length, ruleCount]
  split
  · exact (and_iff_right ‹_›).symm
  · exact iff_of_false (not_breaks_ok 0) fun h => absurd h.1 ‹_›

theorem started_uses : Uses (started config) :=
  .bind sectionOf_uses fun es => .bind (adapterLines_uses es) fun _ =>
    .bind ruleCount_uses fun _ => .pure ()

theorem breaks_started_of {es : Entries} (h : sectionOf config "adapters" "items" = .ok es) :
    Breaks (started config) ↔ (∃ e ∈ es, LineBreaks e.1 e.2) ∨ Breaks (ruleCount config) := by
  have hcount : ∀ _u : Unit, Breaks (ruleCount config >>= fun _ => pure ()) ↔
      Breaks (ruleCount config) := fun _ => by simp
  unfold started
  rw [h, ← breaks_adapterLines]
  exact (adapterLines_uses es).breaks_bind hcount

theorem breaks_started : Breaks (started config) ↔ StartBreaks config := by
  by_cases hshape : Breaks (sectionOf config "adapters" "items")
  · exact iff_of_true (breaks_bind.2 (.inl hshape)) (.adapters (breaks_sectionOf.1 hshape))
  · obtain ⟨es, hes⟩ := sectionOf_uses.not_breaks hshape
    rw [breaks_started_of hes, breaks_ruleCount]
    constructor
    · rintro (⟨e, hmem, h⟩ | ⟨htruthy, h⟩)
      · have hmap := (Value.section_ok (List.ne_nil_of_mem hmem)).1 hes
        exact .line hmap hmem h
      · exact .rules htruthy h
    · rintro (h | ⟨hmap, hmem, h⟩ | ⟨htruthy, h⟩)
      · exact absurd (breaks_sectionOf.2 h) hshape
      · have hes' := (Value.section_ok (m := "items") (List.ne_nil_of_mem hmem)).2 hmap
        obtain rfl := Except.ok.inj (hes.symm.trans hes')
        exact .inl ⟨_, hmem, h⟩
      · exact .inr ⟨htruthy, h⟩

/-! ### The tasks that were found -/

theorem maxDelayOf_uses (v : Value) : Uses (maxDelayOf v) := by
  unfold maxDelayOf
  split
  · exact .ok none
  · exact .bind Value.toFloat_uses fun _ => .bind Value.toInt_uses fun _ => .pure _

/-- An error on which input cannot be used is told of, and no other one is. -/
theorem refusal?_isSome {f : Failure} :
    (refusal? f).isSome = true ↔ ∃ e, f = .error e ∧ e.IsInput := by
  rcases f with e | f
  · cases e <;> simp [refusal?, Error.IsInput]
  · simp [refusal?]

theorem breaks_weighed {script : Entries} {o : Outcome (List Task)}
    (h : FailsWith Error.IsInput o) : Breaks (weighed a script o) ↔ Breaks o ∨ ∃ ts, o = .ok ts ∧
      a.dryRun = false ∧ Breaks (maxDelayOf (Entries.get script "max_delay")) := by
  rcases o with (e | f) | ts
  · obtain ⟨message, hm⟩ := Option.isSome_iff_exists.1 (refusal?_isSome.2 ⟨e, rfl, h e rfl⟩)
    simp only [weighed, hm]
    simp [Breaks]
  · simp [weighed, refusal?, Breaks]
  · unfold weighed
    cases a.dryRun <;> simp

theorem weighed_uses {script : Entries} {o : Outcome (List Task)}
    (h : FailsWith Error.IsInput o) : Uses (weighed a script o) := by
  rcases o with (e | f) | ts
  · obtain ⟨message, hm⟩ := Option.isSome_iff_exists.1 (refusal?_isSome.2 ⟨e, rfl, h e rfl⟩)
    simp only [weighed, hm]
    exact .ok _
  · exact .faulty f
  · simp only [weighed]
    split
    · exact .pure _
    · exact .bind (maxDelayOf_uses _) fun _ => .pure _

theorem weighed_refused {script : Entries} {o : Outcome (List Task)}
    (h : FailsWith Error.IsInput o) :
    weighed a script o = .ok (.inl 1) ↔ ∃ e, o = .error (.error e) := by
  rcases o with (e | f) | ts
  · obtain ⟨message, hm⟩ := Option.isSome_iff_exists.1 (refusal?_isSome.2 ⟨e, rfl, h e rfl⟩)
    simp only [weighed, hm]
    simp
  · simp [weighed, refusal?]
  · refine iff_of_false (fun hw => ?_) (by simp)
    simp only [weighed] at hw
    split at hw
    · cases hw
    · obtain ⟨_, -, hw⟩ := ok_of_bind hw
      cases hw

theorem breaks_chosen : Breaks (chosen a config s fs) ↔ (Entries.get config "script").Misshapen ∨
    ∃ script, sectionOf config "script" "get" = .ok script ∧ (FindBreaks a config s fs ∨
      ∃ ts, found a config s fs = .ok ts ∧
        a.dryRun = false ∧ Breaks (maxDelayOf (Entries.get script "max_delay"))) := by
  unfold chosen
  rw [breaks_bind, breaks_sectionOf]
  refine or_congr_right (exists_congr fun script => and_congr_right fun _ => ?_)
  rw [breaks_weighed found_failsWith, breaks_found]

theorem breaks_plan : Breaks (plan a config s) ↔ (a.console = false ∧ LogBreaks config s) ∨
    ∃ fs, opened a config s = .ok fs ∧ (StartBreaks config ∨ Breaks (chosen a config s fs)) := by
  unfold plan
  rw [breaks_bind, breaks_opened]
  refine or_congr_right (exists_congr fun fs => and_congr_right fun _ => ?_)
  rw [← breaks_started]
  exact started_uses.breaks_bind fun _ => Iff.rfl

theorem plan_uses : Uses (plan a config s) :=
  .bind opened_uses fun _ => .bind started_uses fun _ => .bind sectionOf_uses fun _ =>
    weighed_uses found_failsWith

/-- Before anything is executed a run is refused when what it reads cannot be used. -/
theorem plan_refused : plan a config s = .ok (.inl 1) ↔ ∃ fs script e,
    opened a config s = .ok fs ∧ started config = .ok () ∧
    sectionOf config "script" "get" = .ok script ∧
    found a config s fs = .error (.error e) := by
  constructor
  · intro h
    obtain ⟨fs, hfs, h⟩ := ok_of_bind h
    obtain ⟨_, hstart, h⟩ := ok_of_bind h
    obtain ⟨script, hscript, h⟩ := ok_of_bind h
    obtain ⟨e, he⟩ := (weighed_refused found_failsWith).1 h
    exact ⟨fs, script, e, hfs, hstart, hscript, he⟩
  · rintro ⟨fs, script, e, hfs, hstart, hscript, he⟩
    have hweighed : weighed a script (found a config s fs) = .ok (.inl 1) :=
      (weighed_refused found_failsWith).2 ⟨e, he⟩
    unfold plan
    rw [hfs]
    show (started config >>= fun _ => chosen a config s fs) = _
    rw [hstart]
    show (sectionOf config "script" "get" >>= fun _ => _) = _
    rw [hscript]
    exact hweighed

/-! ### Ends -/

/-- The session in which a run with a configuration is ready to execute tasks. -/
def prepared (a : Arguments) (config : Entries) (s : Situation) : Session :=
  ((prepare a config s).outcome (initial s)).2

/-- What executing a launch ends with, and the session that it leaves. -/
def executed (a : Arguments) (config : Entries) (s : Situation) (l : Launch) :
    Outcome (List Publishing) × Session :=
  (Session.execute l.verify l.tasks).outcome (ready l.maxDelay (prepared a config s))

/-- The end of a run that has read its configuration. -/
def endOf (a : Arguments) (config : Entries) (s : Situation) : Outcome Nat :=
  match plan a config s with
  | .error f => .error f
  | .ok (.inl code) => .ok code
  | .ok (.inr l) => codeOf (executed a config s l).1

theorem outcome_refused {p : ConfigProblem} (h : loaded a s = .error (.error (.config p))) :
    (run a s).outcome = .ok 1 := by
  rw [run_eq, runWith, h]

theorem outcome_unloaded {f : Fault} (h : loaded a s = .error (.fault f)) :
    (run a s).outcome = .error (.fault f) := by
  rw [run_eq, runWith, h]

theorem outcome_loaded (h : loaded a s = .ok config) : (run a s).outcome = endOf a config s := by
  obtain ⟨t, ht, -, -⟩ := prepare_comes a config s
  have hprepared : prepared a config s = t := congrArg Prod.snd ht
  have hrun : (run a s).outcome =
      ((prepare a config s >>= conclude Session.execute).outcome (initial s)).1 := by
    rw [run_eq, runWith, h]
  rw [hrun]
  unfold endOf
  cases hp : plan a config s with
  | error f =>
    rw [hp] at ht
    rw [Act.outcome_bind_error ht]
  | ok end_ =>
    rw [hp] at ht
    rw [Act.outcome_bind_ok ht]
    cases end_ with
    | inl code => rfl
    | inr l =>
      obtain ⟨u, hu, -⟩ := publishWith_comes Session.execute l t
      show ((publishWith Session.execute l).outcome t).1 = codeOf (executed a config s l).1
      rw [hu, executed, hprepared]

/-- The configuration of a run breaks, or there is none. -/
def ConfigBreaks (a : Arguments) (s : Situation) : Prop :=
  a.config = none ∨ ∃ path, a.config = some path ∧ Config.LoadBreaks s.files path s.readers

theorem breaks_loaded : Breaks (loaded a s) ↔ ConfigBreaks a s := by
  unfold loaded ConfigBreaks
  cases a.config with
  | none => simp
  | some path => simp [Config.breaks_load]

theorem loaded_failsWith : FailsWith (∃ p, · = .config p) (loaded a s) := by
  unfold loaded
  split
  · exact Config.load_failsWith
  · exact .faulty _

/-- A run escapes. Something comes of its configuration before the log is opened, and of the log
before tasks are looked for; a refused input ends the run and lets nothing escape. -/
inductive Escapes (a : Arguments) (s : Situation) : Prop
  | config (h : ConfigBreaks a s)
  | log {config : Entries} (hc : loaded a s = .ok config) (hconsole : a.console = false)
    (h : LogBreaks config s)
  | start {config : Entries} (hc : loaded a s = .ok config) (h : StartBreaks config)
  | settings {config : Entries} (hc : loaded a s = .ok config)
    (h : (Entries.get config "script").Misshapen)
  | find {config : Entries} {fs : Files} (hc : loaded a s = .ok config)
    (hfs : opened a config s = .ok fs) (h : FindBreaks a config s fs)
  | wait {config : Entries} {fs : Files} {ts : List Task} {script : Entries}
    (hc : loaded a s = .ok config) (hfs : opened a config s = .ok fs)
    (hscript : sectionOf config "script" "get" = .ok script)
    (hts : found a config s fs = .ok ts) (hdry : a.dryRun = false)
    (h : Breaks (maxDelayOf (Entries.get script "max_delay")))
  | execution {config : Entries} {l : Launch} {f : Fault} (hc : loaded a s = .ok config)
    (hp : plan a config s = .ok (.inr l)) (h : (executed a config s l).1 = .error (.fault f))

/-- A run is refused: its configuration cannot be used, or what it reads after that. -/
inductive Refused (a : Arguments) (s : Situation) : Prop
  | config {p : ConfigProblem} (h : loaded a s = .error (.error (.config p)))
  | input {config script : Entries} {fs : Files} {e : Error} (hc : loaded a s = .ok config)
    (hfs : opened a config s = .ok fs) (hstart : started config = .ok ())
    (hscript : sectionOf config "script" "get" = .ok script)
    (h : found a config s fs = .error (.error e)) (he : e.IsInput)

/-- A run is given up: executing its tasks ends with an error of the domain. -/
def GivenUp (a : Arguments) (s : Situation) : Prop := ∃ config l e, loaded a s = .ok config ∧
  plan a config s = .ok (.inr l) ∧ (executed a config s l).1 = .error (.error e)

/-- How a run ends. -/
structure Exits (a : Arguments) (s : Situation) : Prop where
  code : ∀ n, (run a s).outcome = .ok n → n = 0 ∨ n = 1 ∨ n = 2
  refused : (run a s).outcome = .ok 1 ↔ Refused a s
  givenUp : (run a s).outcome = .ok 2 ↔ GivenUp a s
  /-- No error of the domain escapes. -/
  handled : ∀ e, (run a s).outcome ≠ .error (.error e)
  escapes : (∃ f, (run a s).outcome = .error f) ↔ Escapes a s
  /-- A fault in executing tasks is that of the post of one of them, or of a deferred one that cannot
  be submitted, or a failed verification cannot be told of. -/
  broken : ∀ {config l g}, loaded a s = .ok config → plan a config s = .ok (.inr l) →
    (executed a config s l).1 = .error (.fault g) →
    Session.BrokenBy (ready l.maxDelay (prepared a config s)) l.verify l.tasks g
      (executed a config s l).2
  /-- Readers that do what is documented of them break on no file that can be read as text. -/
  documented : s.readers.IsDocumented →
    (∀ path, Config.LoadBreaks s.files path s.readers ↔ s.files.Unread path) ∧
    ∀ path text, ¬Config.Misread s.readers path text

theorem error_endOf {f : Failure} : endOf a config s = .error f ↔ plan a config s = .error f ∨
    ∃ l g, plan a config s = .ok (.inr l) ∧ (executed a config s l).1 = .error (.fault g) ∧
      f = .fault g := by
  unfold endOf
  rcases plan a config s with f' | code | l
  · simp
  · simp
  · rcases h : (executed a config s l).1 with (e | g) | results <;> simp [codeOf, h, eq_comm]

theorem refused_endOf : endOf a config s = .ok 1 ↔ plan a config s = .ok (.inl 1) := by
  unfold endOf
  rcases plan a config s with f' | code | l
  · simp
  · simp
  · simp [codeOf_ne_one]

theorem givenUp_endOf : endOf a config s = .ok 2 ↔ ∃ l e, plan a config s = .ok (.inr l) ∧
    (executed a config s l).1 = .error (.error e) := by
  unfold endOf
  rcases hp : plan a config s with f | code | l
  · simp
  · have hcode : code ≠ 2 := by
      rcases plan_code hp with h | ⟨h, -⟩ <;> simp [h]
    simp [hcode]
  · constructor
    · intro h
      obtain ⟨e, he⟩ := error_of_codeOf h
      exact ⟨l, e, rfl, he⟩
    · rintro ⟨_, e, ⟨⟩, he⟩
      exact congrArg codeOf he

theorem code_of_codeOf {α : Type} {o : Outcome α} {n : Nat} (h : codeOf o = .ok n) :
    n = 0 ∨ n = 2 := by
  rcases o with (e | f) | x
  · exact .inr (Except.ok.inj h).symm
  · cases h
  · exact .inl (Except.ok.inj h).symm

theorem endOf_code {n : Nat} (h : endOf a config s = .ok n) : n = 0 ∨ n = 1 ∨ n = 2 := by
  unfold endOf at h
  rcases hp : plan a config s with f | code | l <;> rw [hp] at h
  · cases h
  · obtain rfl := Except.ok.inj h
    rcases plan_code hp with h | ⟨h, -⟩ <;> simp [h]
  · exact (code_of_codeOf h).imp_right .inr

/-! ### Escaping -/

theorem escapes_of_plan (hc : loaded a s = .ok config) (h : Breaks (plan a config s)) :
    Escapes a s := by
  rcases breaks_plan.1 h with ⟨hconsole, hlog⟩ | ⟨fs, hfs, hstart | hchosen⟩
  · exact .log hc hconsole hlog
  · exact .start hc hstart
  · rcases breaks_chosen.1 hchosen with h | ⟨script, hscript, h | ⟨ts, hts, hdry, h⟩⟩
    · exact .settings hc h
    · exact .find hc hfs h
    · exact .wait hc hfs hscript hts hdry h

/-- What comes after the log is opened breaks the plan, if opening it does not. -/
theorem breaks_plan_of_opened
    (h : ∀ fs, opened a config s = .ok fs → StartBreaks config ∨ Breaks (chosen a config s fs)) :
    Breaks (plan a config s) := by
  by_cases hopened : Breaks (opened a config s)
  · exact breaks_plan.2 (.inl (breaks_opened.1 hopened))
  · obtain ⟨fs, hfs⟩ := opened_uses.not_breaks hopened
    exact breaks_plan.2 (.inr ⟨fs, hfs, h fs hfs⟩)

/-- Finding tasks breaks the choice, if reading the settings does not. -/
theorem breaks_chosen_of_find (h : FindBreaks a config s fs) : Breaks (chosen a config s fs) := by
  by_cases hsettings : Breaks (sectionOf config "script" "get")
  · exact breaks_chosen.2 (.inl (breaks_sectionOf.1 hsettings))
  · obtain ⟨script, hscript⟩ := sectionOf_uses.not_breaks hsettings
    exact breaks_chosen.2 (.inr ⟨script, hscript, .inl h⟩)

/-- With a configuration, a run escapes before it executes anything or when it does. -/
theorem escapes_loaded (hc : loaded a s = .ok config) : Escapes a s ↔ Breaks (plan a config s) ∨
    ∃ l f, plan a config s = .ok (.inr l) ∧ (executed a config s l).1 = .error (.fault f) := by
  have hsame : ∀ {config'}, loaded a s = .ok config' → config' = config := fun h =>
    Except.ok.inj (h.symm.trans hc)
  constructor
  · rintro (h | ⟨hc', hconsole, h⟩ | ⟨hc', h⟩ | ⟨hc', h⟩ | ⟨hc', hfs, h⟩ |
      ⟨hc', hfs, hscript, hts, hdry, h⟩ | ⟨hc', hp, h⟩)
    · obtain ⟨f, hf⟩ := breaks_loaded.2 h
      cases hc.symm.trans hf
    · obtain rfl := hsame hc'
      exact .inl (breaks_plan.2 (.inl ⟨hconsole, h⟩))
    · obtain rfl := hsame hc'
      exact .inl (breaks_plan_of_opened fun fs _ => .inl h)
    · obtain rfl := hsame hc'
      exact .inl (breaks_plan_of_opened fun fs _ => .inr (breaks_chosen.2 (.inl h)))
    · obtain rfl := hsame hc'
      exact .inl (breaks_plan.2 (.inr ⟨_, hfs, .inr (breaks_chosen_of_find h)⟩))
    · obtain rfl := hsame hc'
      refine .inl (breaks_plan.2 (.inr ⟨_, hfs, .inr (breaks_chosen.2 (.inr ?_))⟩))
      exact ⟨_, hscript, .inr ⟨_, hts, hdry, h⟩⟩
    · obtain rfl := hsame hc'
      exact .inr ⟨_, _, hp, h⟩
  · rintro (h | ⟨l, f, hp, h⟩)
    · exact escapes_of_plan hc h
    · exact .execution hc hp h

theorem refused_loaded (hc : loaded a s = .ok config) :
    Refused a s ↔ plan a config s = .ok (.inl 1) := by
  rw [plan_refused]
  constructor
  · rintro (h | ⟨hc', hfs, hstart, hscript, he, -⟩)
    · cases hc.symm.trans h
    · obtain rfl := Except.ok.inj (hc'.symm.trans hc)
      exact ⟨_, _, _, hfs, hstart, hscript, he⟩
  · rintro ⟨fs, script, e, hfs, hstart, hscript, he⟩
    exact .input hc hfs hstart hscript he (found_failsWith e he)

theorem executed_brokenBy {l : Launch} {g : Fault} (hc : loaded a s = .ok config)
    (hp : plan a config s = .ok (.inr l)) (h : (executed a config s l).1 = .error (.fault g)) :
    Session.BrokenBy (ready l.maxDelay (prepared a config s)) l.verify l.tasks g
      (executed a config s l).2 := by
  obtain ⟨t, ht, hpt, hreg⟩ := prepare_comes a config s
  have hprepared : prepared a config s = t := congrArg Prod.snd ht
  have hl := launches_of_plan hc hp hpt (hreg l hp)
  rw [← hprepared] at hl
  refine Session.execute_brokenBy hl.lane hl.idle_ready ?_ (Prod.ext h rfl)
  rw [world_ready]
  exact hl.reportable

theorem documented_readers (h : s.readers.IsDocumented) :
    (∀ path, Config.LoadBreaks s.files path s.readers ↔ s.files.Unread path) ∧
    ∀ path text, ¬Config.Misread s.readers path text :=
  ⟨fun _ => Config.loadBreaks_iff h, fun _ _ => Config.not_misread h⟩

theorem exits_loaded (hc : loaded a s = .ok config) : Exits a s where
  code n h := endOf_code ((outcome_loaded hc).symm.trans h)
  refused := by rw [outcome_loaded hc, refused_endOf, refused_loaded hc]
  givenUp := by
    rw [outcome_loaded hc, givenUp_endOf]
    constructor
    · rintro ⟨l, e, hp, he⟩
      exact ⟨config, l, e, hc, hp, he⟩
    · rintro ⟨config', l, e, hc', hp, he⟩
      obtain rfl := Except.ok.inj (hc'.symm.trans hc)
      exact ⟨l, e, hp, he⟩
  handled e h := by
    rw [outcome_loaded hc, error_endOf] at h
    rcases h with h | ⟨l, g, -, -, h⟩
    · exact plan_uses e h
    · cases h
  escapes := by
    rw [outcome_loaded hc, escapes_loaded hc]
    constructor
    · rintro ⟨f, hf⟩
      rcases error_endOf.1 hf with hp | ⟨l, g, hp, he, -⟩
      · rcases f with e | f
        · exact (plan_uses e hp).elim
        · exact .inl ⟨f, hp⟩
      · exact .inr ⟨l, g, hp, he⟩
    · rintro (⟨f, hp⟩ | ⟨l, g, hp, he⟩)
      · exact ⟨.fault f, error_endOf.2 (.inl hp)⟩
      · exact ⟨.fault g, error_endOf.2 (.inr ⟨l, g, hp, he, rfl⟩)⟩
  broken hc' hp h := executed_brokenBy hc' hp h
  documented := documented_readers

/-- A run with no configuration to use ends with code 1 if that is a problem of the domain. -/
theorem exits_unloaded {f : Failure} (hc : loaded a s = .error f) : Exits a s := by
  have hnone : ∀ {config}, loaded a s ≠ .ok config := fun h => by cases hc.symm.trans h
  have hgiven : ¬ GivenUp a s := fun ⟨_, _, _, h, _⟩ => hnone h
  rcases f with e | f
  · obtain ⟨p, rfl⟩ := loaded_failsWith e hc
    have hone := outcome_refused hc
    have hunbroken : ¬ Breaks (loaded a s) := by
      rintro ⟨f, hf⟩
      cases hc.symm.trans hf
    refine ⟨fun n hn => ?_, ?_, ?_, fun e he => ?_, ?_, executed_brokenBy,
      documented_readers⟩
    · rw [hone] at hn
      exact .inr (.inl (Except.ok.inj hn).symm)
    · exact iff_of_true hone (.config hc)
    · exact iff_of_false (by simp [hone]) hgiven
    · cases hone.symm.trans he
    · refine iff_of_false (by simp [hone]) ?_
      rintro (h | ⟨h, -⟩ | ⟨h, -⟩ | ⟨h, -⟩ | ⟨h, -⟩ | ⟨h, -⟩ | ⟨h, -⟩)
      · exact hunbroken (breaks_loaded.2 h)
      all_goals exact hnone h
  · have herror := outcome_unloaded hc
    refine ⟨fun n hn => ?_, ?_, ?_, fun e he => ?_, ?_, executed_brokenBy,
      documented_readers⟩
    · cases herror.symm.trans hn
    · refine iff_of_false (by simp [herror]) ?_
      rintro (h | ⟨h, -⟩)
      · cases hc.symm.trans h
      · exact hnone h
    · exact iff_of_false (by simp [herror]) hgiven
    · cases herror.symm.trans he
    · exact iff_of_true ⟨_, herror⟩ (.config (breaks_loaded.1 ⟨f, hc⟩))

theorem run_exits (a : Arguments) (s : Situation) : Exits a s := by
  cases hc : loaded a s with
  | error f => exact exits_unloaded hc
  | ok config => exact exits_loaded hc

/-- A run for an item, with a configuration of one byte that is no text. -/
def garbled : Situation where
  now := default
  files := { files := [(["config.yaml"], [UInt8.ofNat 255]),
    (["post.yaml"], "text: hi\n".toUTF8.toList)] }

def garbledArguments : Arguments where
  config := some "config.yaml"
  content := some "post.yaml"
  console := true

theorem not_exits_garbled : ¬ ∃ n, (run garbledArguments garbled).outcome = .ok n := by
  have hloaded : loaded garbledArguments garbled = .error (.fault .undecodable) := by rfl
  rintro ⟨n, hn⟩
  rw [outcome_unloaded hloaded] at hn
  cases hn

end Syndicate.Command
