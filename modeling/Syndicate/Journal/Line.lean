/-! A line of the log as it is written, with its level in a colour. -/

namespace Syndicate.Line

/-- The colour of a level, for the levels that have one. -/
def colour? : String → Option String
  | "DEBUG" => some "38;5;244"
  | "INFO" => some "38;5;120"
  | "WARNING" => some "38;5;221"
  | "ERROR" => some "38;5;196"
  | "CRITICAL" => some "1;38;5;196;48;5;232"
  | _ => none

def escape : String := String.singleton (Char.ofNat 0x1b)

/-- The name of a level in its colour. -/
def paint (level : String) : String :=
  match colour? level with
  | some c => escape ++ "[" ++ c ++ "m" ++ level ++ escape ++ "[0m"
  | none => level

/-- A line with its level in colour. -/
def coloured (source level message : String) : String :=
  "[" ++ source ++ "] " ++ paint level ++ " - " ++ message

end Syndicate.Line
