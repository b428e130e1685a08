import Syndicate.Failure

/-! What a run tells: the lines of its log, and events about what happened to rules, adapters and
tasks. -/

namespace Syndicate

inductive Level where
  | debug
  | info
  | warning
  | error
  deriving DecidableEq

def Level.name : Level → String
  | .debug => "DEBUG"
  | .info => "INFO"
  | .warning => "WARNING"
  | .error => "ERROR"

/-- Levels by weight. -/
def Level.rank : Level → Nat
  | .debug => 10
  | .info => 20
  | .warning => 30
  | .error => 40

/-- A line of the log. -/
structure Record where
  source : String
  level : Level
  message : String

/-- The records that weigh at least as much as a level. -/
def Record.atLeast (level : Level) (rs : List Record) : List Record :=
  rs.filter fun r => level.rank ≤ r.level.rank

inductive Event where
  | adapterMissing (adapter : String) (rule : Value)
  | verifyFailed (adapterId : Value) (cause : Option Failure)
  | taskDropped (rule adapterId : Value)
  | taskScheduled (rule adapterId : Value) (delay : Int)
  | taskPublished (rule adapterId post : Value)

namespace Event

def kind : Event → String
  | .adapterMissing .. => "adapter_missing"
  | .verifyFailed .. => "verify_failed"
  | .taskDropped .. => "task_dropped"
  | .taskScheduled .. => "task_scheduled"
  | .taskPublished .. => "task_published"

def message : Event → String
  | .adapterMissing a r => "Adapter '" ++ a ++ "' not found, skipping rule '" ++ r.display ++ "'"
  | .verifyFailed a cause =>
    "Adapter '" ++ a.display ++ "' failed verify(): " ++
      (cause.map Failure.reason).getD "verify() returned a falsy value" ++ ". Skipping."
  | .taskDropped r a =>
    "Dropping task from rule '" ++ r.display ++ "': adapter '" ++ a.display ++ "' is unverified."
  | .taskScheduled r a d =>
    "Scheduled '" ++ r.display ++ "' → " ++ a.display ++ " in " ++ toString d ++ "ms"
  | .taskPublished r a p => "Published '" ++ r.display ++ "' → " ++ a.display ++ ": " ++ p.display

def rule : Event → Value
  | .adapterMissing _ r | .taskDropped r _ | .taskScheduled r _ _ | .taskPublished r _ _ => r
  | .verifyFailed .. => .null

def adapterId : Event → Value
  | .adapterMissing a _ => .text a
  | .verifyFailed a _ | .taskDropped _ a | .taskScheduled _ a _ | .taskPublished _ a _ => a

def cause : Event → Option Failure
  | .verifyFailed _ cause => cause
  | _ => none

/-- Whether an event can be shown: its parts may hold an integer of too many digits. -/
def isShowable : Event → Bool
  | .adapterMissing _ r => r.isShowable
  | .verifyFailed a cause => a.isShowable && cause.all Failure.isShowable
  | .taskDropped r a => r.isShowable && a.isShowable
  | .taskScheduled r a d => r.isShowable && a.isShowable && (Value.int d).isShowable
  | .taskPublished r a p => r.isShowable && a.isShowable && p.isShowable

/-- Whether an event reports that something was left out. -/
def isWarning : Event → Bool
  | .adapterMissing .. | .verifyFailed .. | .taskDropped .. => true
  | _ => false

/-- The line that an event makes in the log. -/
def record (e : Event) : Record :=
  ⟨"core.diagnostics", if e.isWarning then .warning else .info,
    "[" ++ e.kind ++ "] " ++ e.message⟩

/-- The names of the kinds that report that something was left out. -/
def warningKinds : List String := ["adapter_missing", "task_dropped", "verify_failed"]

end Event

/-- Where events go. -/
inductive Sink where
  | collect
  | log
  deriving DecidableEq

/-- Records and collected events, the oldest first. -/
structure Journal where
  sink : Sink := .collect
  records : List Record := []
  events : List Event := []

namespace Journal

def write (j : Journal) (r : Record) : Journal := { j with records := j.records ++ [r] }

def writeAll (j : Journal) (rs : List Record) : Journal := { j with records := j.records ++ rs }

def emit (j : Journal) (e : Event) : Journal :=
  match j.sink with
  | .collect => { j with events := j.events ++ [e] }
  | .log => j.write e.record

def emitAll (j : Journal) (es : List Event) : Journal := es.foldl emit j

end Journal

end Syndicate
