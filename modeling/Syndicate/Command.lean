import Syndicate.Arguments
import Syndicate.Config
import Syndicate.Dispatch

/-! A run of the command: it reads the configuration and the content, finds the tasks, and
publishes them unless it is only to show them. It ends with an exit code: 0 when all went well, 1
when an input cannot be used, 2 when publishing failed. -/

namespace Syndicate

/-- What a run starts from: the time, the files and what turns their texts into values, a token from
the surroundings, the network, how long posts take, and the longest time that a thread can wait out,
if there is one. -/
structure Situation where
  now : Instant
  files : Files := {}
  readers : Readers := .own
  token : Option String := none
  network : Network := {}
  pace : Nat → Nat := fun _ => 0
  longest : Option Nat := none

/-- What a run leaves: its exit code or the failure that ended it, what it wrote to the standard
error output, and the session with everything else. -/
structure Aftermath where
  outcome : Outcome Nat
  complaint : String := ""
  session : Session

namespace Command

abbrev Run (α : Type) := Act Session α

def commandSource : String := "sharebot"
def setupSource : String := "utils.others"

def say (level : Level) (message : String) : Run Unit :=
  Session.write ⟨commandSource, level, message⟩

def announce (message : String) : Run Unit := Session.write ⟨setupSource, .info, message⟩

def lift {α : Type} (x : Outcome α) : Run α := Act.ofOutcome x

/-- A section of the configuration, empty when it counts as false. -/
def sectionOf (config : Entries) (name member : String) : Outcome Entries :=
  let v := Entries.get config name
  if v.truthy then v.entries member else .ok []

/-! ### The log file -/

def logDirectory : List String := ["logs"]

/-- The path of the log file, below the directory for logs unless its base is absolute. -/
def logPath (base : String) (now : Instant) : String :=
  let name := base ++ "-" ++ now.stamp ++ ".log"
  if Files.isAbsolute name then name else "logs/" ++ name

/-- Makes the directory for logs. -/
def makeLogDirectory (fs : Files) : Outcome Files :=
  match fs.file? logDirectory with
  | some _ => faulty .fileExists
  | none => .ok { fs with directories := logDirectory :: fs.directories }

/-- Opens a log file, whose path is taken without its steps up. One out of the working directory
is not kept. -/
def openLog (fs : Files) (path : String) : Outcome Files := do
  if Files.hasNull path then faulty (.wrongValue "embedded null byte")
  else
    let place := Files.resolved path
    match fs.findPlace place with
    | .file _ => pure fs
    | .missing => do
      if let some f := (fs.walk [] place.dropLast).trouble? then faulty f
      pure (if Files.isInside place then { fs with files := fs.files ++ [(place, [])] } else fs)
    | found => faulty (found.trouble?.getD .isDirectory)

/-- The names in the directory for logs, in order. -/
def logFiles (fs : Files) : List String :=
  let below (path : List String) : Option String :=
    match path with
    | "logs" :: name :: _ => some name
    | _ => none
  let names := fs.files.filterMap (fun f => below f.1) ++ fs.directories.filterMap below
  names.eraseDups.mergeSort fun a b => !(b < a)

def setFiles (fs : Files) : Run Unit :=
  modify fun s => s.setWorld { s.world with site.files := fs }

def files : Run Files := do pure (← get).world.site.files

/-- Sets up the log, to a file unless it goes to the console. -/
def setUpLog (config : Entries) (console : Bool) (now : Instant) : Run Unit := do
  if console then
    announce "Logging initialized."
    announce "Logging to console."
  else
    let script ← lift (sectionOf config "script" "get")
    let base := (Entries.get? script "log_file_name").getD (.text "sharebot")
    let path := logPath (← lift base.shown) now
    let fs ← lift (makeLogDirectory (← files))
    setFiles fs
    setFiles (← lift (openLog fs path))
    announce "Logging initialized."
    announce ("Logging to file: " ++ path)

/-! ### The start of the log -/

def rule : String := String.ofList (List.replicate 80 '#')

def announceAll : List String → Run Unit
  | [] => pure ()
  | m :: ms => do
    announce m
    announceAll ms

/-- The line about an adapter's entry. -/
def adapterLine (name entry : Value) : Outcome String := do
  let es ← if entry.truthy then entry.entries "get" else .ok []
  let kind := (Entries.get? es "type").getD name
  let enabled := (Entries.get? es "enabled").getD (.bool true)
  pure ("  ADAPTER - " ++ (← name.shown) ++ ": type=" ++ (← kind.shown) ++ " enabled=" ++
    (← enabled.shown))

def announceAdapters : Entries → Run Unit
  | [] => pure ()
  | (name, entry) :: es => do
    announce (← lift (adapterLine name entry))
    announceAdapters es

/-- How many rules a configuration lists. -/
def ruleCount (config : Entries) : Outcome Nat :=
  let rules := Entries.get config "rules"
  if rules.truthy then rules.length else .ok 0

def announceStart (a : Arguments) (config : Entries) (now : Instant) : Run Unit := do
  announceAll [rule, "New instance of sharebot started.", "TIME: " ++ now.display,
    "Startup Parameters:"]
  announceAll (a.shown.map fun p => "  ARG - " ++ p.1 ++ ": " ++ p.2)
  announce "Adapter Configurations:"
  announceAdapters (← lift (sectionOf config "adapters" "items"))
  announce ("Rules loaded: " ++ toString (← lift (ruleCount config)))
  announce rule

/-! ### Tasks and results -/

def writeRecords : List Record → Run Unit
  | [] => pure ()
  | r :: rs => do
    Session.write r
    writeRecords rs

def emitAll : List Event → Run Unit
  | [] => pure ()
  | e :: es => do
    Session.emit e
    emitAll es

/-- Builds the adapters of the configuration. -/
def setUpAdapters (token : Option String) (config : Entries) : Run Unit := do
  let (lines, registry) := Registry.build token (.map config)
  writeRecords lines
  let registry ← lift registry
  modify fun s => s.setWorld { s.world with adapters := registry }

/-- The rules of a configuration, none when they count as false. -/
def rulesOf (config : Entries) (now : Instant) : Outcome (List Rule) :=
  let rules := Entries.get config "rules"
  Rule.loadAll now (if rules.truthy then rules else .list [])

/-- The tasks for a content file. -/
def findTasks (a : Arguments) (config : Entries) (s : Situation) : Run (List Task) := do
  let fs ← files
  let c ← lift (match a.content with
    | some path => Config.loadContent fs path s.readers
    | none => faulty .wrongType)
  setUpAdapters s.token config
  let rules ← lift (rulesOf config s.now)
  let adapters := (← get).world.adapters
  let found := Routing.tasks (fun name => (adapters.lookup name).isSome) s.now Validator.body
    (.item c) (.ok (rules.map .rule))
  emitAll found.events
  let tasks ← lift found.outcome
  writeRecords (Routing.evaluated tasks.length c).toList
  pure tasks

/-- What a failure to find tasks means: an exit code if the inputs are at fault. -/
def refusal? : Failure → Option String
  | .error (.contentRejected errors) => some ("Content rejected: " ++ "; ".intercalate errors)
  | .error (.config p) => some ("Invalid configuration: " ++ p.message)
  | .error (.invalidDelay l) =>
    some ("Invalid configuration: " ++ (Error.invalidDelay l).message)
  | _ => none

/-- The line about a task for the adapter with an id. It is left out if it cannot be shown. -/
def taskLine (t : Task) (id : Value) : Option Record :=
  if [t.rule, id, .int t.delay, t.channel].all Value.isShowable then
    some ⟨commandSource, .info, "  TASK - rule=" ++ t.rule.quoted ++ " adapter=" ++ id.display ++
      " delay_ms=" ++ toString t.delay ++ " channel=" ++ t.channel.display⟩
  else none

def sayTasks : List Task → Run Unit
  | [] => pure ()
  | t :: ts => do
    writeRecords (taskLine t (← Session.adapterId t.adapter)).toList
    sayTasks ts

def sayResults : List Publishing → Run Unit
  | [] => pure ()
  | p :: ps => do
    say .info ("  RESULT - rule=" ++ p.rule.quoted ++ " adapter=" ++ p.adapterId.display ++
      " id=" ++ p.id.display ++ " url=" ++ p.url.display)
    sayResults ps

/-- The longest wait in milliseconds, given in seconds. -/
def maxDelayOf (v : Value) : Outcome (Option Int) :=
  if v.isNull then .ok none
  else do
    let seconds ← v.toFloat
    pure (some (← (Value.float (seconds.mul (.finite false (1000 * Binary64.one)))).toInt))

/-- Runs an action with a scheduler for a longest wait, which is closed however the action ends. -/
def withLongestWait {α : Type} (maxDelay : Option Int) (x : Run α) : Run α :=
  match maxDelay with
  | none => x
  | some m => fun s =>
    let settings := { s.ownSettings with maxDelay := some m }
    let s := { s.setScheduler (s.scheduler.renew settings) with lane := .shared }
    match x.run s with
    | .ok a s => .ok a s.close
    | .error f s => .error f s.close

/-- Publishes tasks; an error of the domain ends the run with a code of its own. -/
def publish (verify : Bool) (maxDelay : Option Int) (tasks : List Task) : Run Nat := fun s =>
  match (withLongestWait maxDelay (Session.execute verify tasks)).run s with
  | .error (.error e) s => (do
      say .error ("Publishing aborted: " ++ e.message)
      pure 2 : Run Nat).run s
  | .error f s => .error f s
  | .ok results s => (do
      sayResults results
      say .info ("Published " ++ toString results.length ++ " of " ++ toString tasks.length ++
        " task(s).")
      pure 0 : Run Nat).run s

/-- The part of a run behind the start of the log. -/
def proceed (a : Arguments) (config : Entries) (s : Situation) : Run Nat := do
  let script ← lift (sectionOf config "script" "get")
  let verify : Value := match a.verify with
    | some b => .bool b
    | none => (Entries.get? script "verify").getD (.bool true)
  match Act.outcome (findTasks a config s) (← get) with
  | (.error f, after) =>
    set after
    match refusal? f with
    | some message =>
      say .error message
      pure 1
    | none => throw f
  | (.ok tasks, after) =>
    set after
    say .info (toString tasks.length ++ " task(s) matched.")
    sayTasks tasks
    if a.dryRun then
      say .info "[DRY-RUN] Not publishing."
      pure 0
    else
      let maxDelay ← lift (maxDelayOf (Entries.get script "max_delay"))
      publish verify.truthy maxDelay tasks

/-- The session that a run begins with. Events go to the log. -/
def initial (s : Situation) : Session where
  scheduler := {
    settings := { longest := s.longest }
    world := {
      site := { network := s.network, files := s.files, journal := { sink := .log } }
      pace := s.pace } }

/-- A run with arguments. A configuration that cannot be used is complained about, as there is no
log yet. -/
def run (a : Arguments) (s : Situation) : Aftermath :=
  let loaded := match a.config with
    | some path => Config.load s.files path s.readers
    | none => faulty .wrongType
  match loaded with
  | .error (.error (.config p)) => ⟨.ok 1, "sharebot: " ++ p.message ++ "\n", initial s⟩
  | .error f => ⟨.error f, "", initial s⟩
  | .ok config =>
    let (outcome, session) := Act.outcome (do
      setUpLog config a.console s.now
      announceStart a config s.now
      proceed a config s) (initial s)
    ⟨outcome, "", session⟩

/-- The level from which on a run keeps lines of the log. -/
def level (a : Arguments) : Level := if a.debug then .debug else .info

end Command

end Syndicate
