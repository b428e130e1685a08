import Syndicate.Value.Coerce

/-! Failures by their names, from the notes that they are made of. Each kind of error takes notes
of its own, and the wrong number of them is a failure itself, as is a note that cannot be shown
where the message shows it. -/

namespace Syndicate

namespace Failure

/-- The texts of a list that must hold nothing else. -/
def texts : List Value → Outcome (List String)
  | [] => .ok []
  | .text s :: vs => do pure (s :: (← texts vs))
  | _ => faulty .wrongType

/-- The errors of a rejected item, from any value that yields texts. -/
def rejection (v : Value) : Outcome Error := do
  pure (.contentRejected (← texts (← if v.truthy then v.items else .ok [])))

def defaultReason : Value := .text "verify() rejected"

/-- An error of the domain by its name; nothing if there is none of that name. -/
def errorNamed? (name : String) (notes : List Value) : Option (Outcome Error) :=
  match name, notes with
  | "ShareError", _ => some (.ok (.general notes))
  | "ConfigError", _ => some (.ok (.config (.stated notes)))
  | "PublishFailure", _ => some (.ok (.publish (.stated notes)))
  | "TaskCancelled", _ => some (.ok (.cancelled notes))
  | "ContentValidationError", [] => some (.ok (.contentRejected []))
  | "ContentValidationError", [v] => some (rejection v)
  | "InvalidDelayFormat", [v] => some (made (.invalidDelay v))
  | "AdapterNotImplementedError", [a, m] => some (made (.notImplemented a m))
  | "CapabilityError", [a, c] => some (made (.unsupported a c))
  | "VerificationFailure", [a] => some (made (.unverified a defaultReason))
  | "VerificationFailure", [a, r] => some (made (.unverified a r))
  | "LengthExceededError", [m, n] => some (made (.tooLong m n))
  | "ContentValidationError", _ | "InvalidDelayFormat", _ | "AdapterNotImplementedError", _
  | "CapabilityError", _ | "VerificationFailure", _ | "LengthExceededError", _ =>
    some (faulty .wrongType)
  | _, _ => none
where
  /-- The error, if its notes can be shown. -/
  made (e : Error) : Outcome Error :=
    if notes.all Value.isShowable then .ok e else faulty .tooManyDigits

/-- The kinds of failure of the operating system that have names of their own, by number. -/
def systemKinds : List (Int × String) :=
  [(1, "PermissionError"), (2, "FileNotFoundError"), (3, "ProcessLookupError"),
   (4, "InterruptedError"), (10, "ChildProcessError"), (11, "BlockingIOError"),
   (13, "PermissionError"), (17, "FileExistsError"), (20, "NotADirectoryError"),
   (21, "IsADirectoryError"), (32, "BrokenPipeError"), (103, "ConnectionAbortedError"),
   (104, "ConnectionResetError"), (108, "BrokenPipeError"), (110, "TimeoutError"),
   (111, "ConnectionRefusedError"), (114, "BlockingIOError"), (115, "BlockingIOError")]

/-- A failure of the operating system from a number and a text, and the files it is about. -/
def systemFault (number text : Value) (files : List Value) : Fault :=
  let kind := systemKinds.find? fun k => (Value.int k.1).same number
  let file (i : Nat) (mark : String) : String :=
    match (files[i]?).getD .null with
    | .null => ""
    | v => mark ++ v.quoted
  let about := if file 0 "" = "" then "" else file 0 ": " ++ file 2 " -> "
  .raised ((kind.map (·.2)).getD "OSError")
    [.text ("[Errno " ++ number.display ++ "] " ++ text.display ++ about)]

/-- The failure with a name, or the one that making it ends in. -/
def named (name : String) (notes : List Value) : Failure :=
  match errorNamed? name notes with
  | some (.ok e) => .error e
  | some (.error f) => f
  | none => .fault (match name, notes with
    | "KeyError", _ => .missingKey notes
    | "OSError", number :: text :: files =>
      if files.length ≤ 3 then systemFault number text files else .raised name notes
    | _, _ => .raised name notes)

end Failure

end Syndicate
