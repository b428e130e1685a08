import Syndicate.Value.Display

/-! What can go wrong. An `Error` is one of the domain's own, named by its cause; a `Fault` is an
ill-typed or impossible operation on a value that nothing checked before. -/

namespace Syndicate

/-- Why a configuration, an adapter entry, a rule or a file cannot be used. -/
inductive ConfigProblem where
  | configMissing (path : String)
  /-- What the reader says of it, if it says anything. -/
  | configUnparsable (detail : Option String)
  | configNotMapping (path : String)
  | contentMissing (path : String)
  | contentUnparsable (path : String) (detail : Option String)
  | contentNotMapping (path : String)
  | ruleUnnamed (rule : Entries)
  | destinationUnnamed (destination : Entries)
  | adapterIncomplete (name reason : String)
  | adapterUnknown (name kind : String) (known : List String)
  | stated (notes : List Value)

/-- Why a platform refused. -/
inductive PublishProblem where
  | requestFailed (method reason : String)
  | replyUnreadable (method : String) (status : Int)
  | refused (description : Value)
  | unidentified
  | postMissing (id : Value)
  | feedbackMissing (id : Value)
  | stated (notes : List Value)

inductive Error where
  | general (notes : List Value)
  | config (problem : ConfigProblem)
  | contentRejected (errors : List String)
  | invalidDelay (literal : Value)
  | notImplemented (adapter member : Value)
  | unsupported (adapter capability : Value)
  | unverified (adapterId reason : Value)
  | publish (problem : PublishProblem)
  | tooLong (maxLength length : Value)
  | cancelled (notes : List Value)

inductive Fault where
  | noMember (kind member : String)
  | wrongType
  | wrongValue (text : String)
  | settingMissing (name : String)
  | overflow
  | undecodable
  | isDirectory
  | notDirectory
  | noSuchFile
  | fileExists
  | missingKey (notes : List Value)
  | outOfRange
  | broken (text : String)
  | system (text : String)
  /-- No failure: what is waited for never comes. -/
  | endless
  /-- A failure known by its name and its notes only. -/
  | raised (name : String) (notes : List Value)

inductive Failure where
  | error (e : Error)
  | fault (f : Fault)

/-- The families an error belongs to, for those who catch it. -/
inductive Family where
  | share
  | publish
  | value
  | notImplemented
  deriving DecidableEq

/-- Several notes are shown in round brackets, a single one in a form of its own. -/
def notesIn (single : Value → String) : List Value → String
  | [] => ""
  | [v] => single v
  | vs => "(" ++ ", ".intercalate (vs.map Value.quoted) ++ ")"

/-- A single note stands for itself. -/
def notesText : List Value → String := notesIn Value.display

def detailed (text : String) : Option String → String
  | none => text
  | some detail => text ++ ": " ++ detail

def ConfigProblem.message : ConfigProblem → String
  | .configMissing p => "Configuration file " ++ p ++ " not found."
  | .configUnparsable detail => detailed "Error parsing YAML file" detail
  | .configNotMapping p => "Configuration file " ++ p ++ " must contain a mapping at the top level."
  | .contentMissing p => "Content file " ++ p ++ " not found."
  | .contentUnparsable p detail => detailed ("Error parsing content file " ++ p) detail
  | .contentNotMapping p => "Content file " ++ p ++ " must contain a mapping."
  | .ruleUnnamed r => "Rule without a name: " ++ (Value.map r).quoted
  | .destinationUnnamed d => "Publish destination without an adapter: " ++ (Value.map d).quoted
  | .adapterIncomplete n r => "Adapter '" ++ n ++ "': " ++ r
  | .adapterUnknown n k known =>
    "Adapter '" ++ n ++ "' has unknown type '" ++ k ++ "' (known: " ++ ", ".intercalate known ++ ")"
  | .stated notes => notesText notes

def PublishProblem.message : PublishProblem → String
  | .requestFailed m r => "Telegram " ++ m ++ " request failed: " ++ r
  | .replyUnreadable m s =>
    "Telegram " ++ m ++ " returned non-JSON (status=" ++ toString s ++ ")"
  | .refused d =>
    "Telegram API error: " ++ (if d.truthy then d.display else "Unknown error")
  | .unidentified => "Telegram response did not include a message_id"
  | .postMissing id => "Post not found on Dummy platform: " ++ id.display
  | .feedbackMissing id => "Post not found for feedback sync: " ++ id.display
  | .stated notes => notesText notes

namespace Error

def message : Error → String
  | .general notes => notesText notes
  | .config p => p.message
  | .contentRejected es => "Content validation failed: " ++ "; ".intercalate es
  | .invalidDelay l => "Invalid delay format: '" ++ l.display ++ "'"
  | .notImplemented a m =>
    "Method '" ++ m.display ++ "' must be implemented by the adapter '" ++ a.display ++ "'"
  | .unsupported a c => "Adapter '" ++ a.display ++ "' does not support '" ++ c.display ++ "'"
  | .unverified a r => "Adapter '" ++ a.display ++ "' failed verification: " ++ r.display
  | .publish p => p.message
  | .tooLong m n => "Content exceeds max length of " ++ m.display ++ " (got " ++ n.display ++ ")"
  | .cancelled notes => notesText notes

def name : Error → String
  | .general _ => "ShareError"
  | .config _ => "ConfigError"
  | .contentRejected _ => "ContentValidationError"
  | .invalidDelay _ => "InvalidDelayFormat"
  | .notImplemented _ _ => "AdapterNotImplementedError"
  | .unsupported _ _ => "CapabilityError"
  | .unverified _ _ => "VerificationFailure"
  | .publish _ => "PublishFailure"
  | .tooLong _ _ => "LengthExceededError"
  | .cancelled _ => "TaskCancelled"

def families : Error → List Family
  | .contentRejected _ | .invalidDelay _ => [.share, .value]
  | .notImplemented _ _ => [.share, .notImplemented]
  | .tooLong _ _ => [.share, .publish]
  | .publish _ => [.share, .publish]
  | _ => [.share]

/-- What an error carries besides its message. -/
def attributes : Error → List (String × Value)
  | .contentRejected es => [("errors", .list (es.map .text))]
  | .invalidDelay l => [("literal", l)]
  | .notImplemented a m => [("adapter", a), ("member", m)]
  | .unsupported a c => [("adapter", a), ("capability", c)]
  | .unverified a r => [("adapter_id", a), ("reason", r)]
  | .tooLong m n => [("max_length", m), ("length", n)]
  | _ => []

/-- The error of a job that was called off before it began. -/
def calledOff : Error := .cancelled [.text "Deferred task cancelled before it fired"]

end Error

namespace Fault

def message : Fault → String
  | .noMember k m => "'" ++ k ++ "' object has no attribute '" ++ m ++ "'"
  | .wrongValue t => t
  | .settingMissing n => "TelegramAdapter requires config." ++ n
  | .missingKey notes => notesIn Value.quoted notes
  | .broken t => t
  | .system t => t
  | .raised _ notes => notesText notes
  | _ => ""

def name : Fault → String
  | .noMember _ _ => "AttributeError"
  | .wrongType => "TypeError"
  | .wrongValue _ | .settingMissing _ => "ValueError"
  | .overflow => "OverflowError"
  | .undecodable => "UnicodeDecodeError"
  | .isDirectory => "IsADirectoryError"
  | .notDirectory => "NotADirectoryError"
  | .noSuchFile => "FileNotFoundError"
  | .fileExists => "FileExistsError"
  | .missingKey _ => "KeyError"
  | .outOfRange => "IndexError"
  | .broken _ => "RuntimeError"
  | .system _ => "OSError"
  | .endless => "Endless"
  | .raised n _ => n

/-- An integer has too many digits to be read or shown. -/
def tooManyDigits : Fault :=
  .wrongValue ("Exceeds the limit (4300 digits) for integer string conversion; " ++
    "use sys.set_int_max_str_digits() to increase the limit")

/-- Whether a fault counts as a wrong value. -/
def isWrongValue (f : Fault) : Bool := ["ValueError", "UnicodeDecodeError"].contains f.name

/-- The notes of a fault that has any. -/
def notes : Fault → List Value
  | .missingKey notes | .raised _ notes => notes
  | _ => []

end Fault

/-- The notes of an error that has any. -/
def Error.notes : Error → List Value
  | .general notes | .cancelled notes | .config (.stated notes) | .publish (.stated notes) => notes
  | _ => []

namespace Failure

def message : Failure → String
  | .error e => e.message
  | .fault f => f.message

def name : Failure → String
  | .error e => e.name
  | .fault f => f.name

/-- Whether the message can be shown: notes may hold an integer of too many digits. -/
def isShowable : Failure → Bool
  | .error e => e.notes.all Value.isShowable
  | .fault f => f.notes.all Value.isShowable

/-- The message, or the name of the failure when the message is empty. -/
def reason (f : Failure) : String := if f.message = "" then f.name else f.message

def isNotImplemented : Failure → Bool
  | .error (.notImplemented _ _) => true
  | _ => false

end Failure

/-- A result or the failure that came instead. -/
abbrev Outcome (α : Type) := Except Failure α

def fail {α : Type} (e : Error) : Outcome α := .error (.error e)

def faulty {α : Type} (f : Fault) : Outcome α := .error (.fault f)

/-- Fails with an error that shows a value, if the value can be shown. -/
def failShowing {α : Type} (v : Value) (e : Error) : Outcome α :=
  if v.isShowable then fail e else faulty .tooManyDigits

end Syndicate
