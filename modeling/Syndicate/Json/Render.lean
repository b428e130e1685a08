import Syndicate.Binary64.Display
import Syndicate.Text.Quoted
import Syndicate.Value.Display

/-! Writing values as JSON text, the keys of a mapping in order of their characters. -/

namespace Syndicate.Json

def renderChar (c : Char) : List Char :=
  if c = '"' || c = '\\' then ['\\', c]
  else if c = '\n' then ['\\', 'n']
  else if c = '\r' then ['\\', 'r']
  else if c = '\t' then ['\\', 't']
  else if c.toNat = 8 then ['\\', 'b']
  else if c.toNat = 12 then ['\\', 'f']
  else if c.toNat < 0x20 then '\\' :: 'u' :: Text.hex 4 c.toNat
  else [c]

def renderText (s : String) : String :=
  String.ofList ('"' :: s.toList.flatMap renderChar ++ ['"'])

def renderNumber : Binary64 → String
  | .nan _ => "NaN"
  | .infinite s => if s then "-Infinity" else "Infinity"
  | x => x.display

mutual

def render : Value → String
  | .null => "null"
  | .bool b => if b then "true" else "false"
  | .int i => Value.intText i
  | .float x => renderNumber x
  | .text s => renderText s
  | .date d => renderText d.display
  | .timestamp t => renderText t.display
  | .list xs => "[" ++ ", ".intercalate (renderItems xs) ++ "]"
  | .map es =>
    let sorted := (renderMembers es).mergeSort fun a b => !(b.1 < a.1)
    "\x7b" ++ ", ".intercalate (sorted.map fun m => renderText m.1 ++ ": " ++ m.2) ++ "\x7d"

def renderItems : List Value → List String
  | [] => []
  | x :: xs => render x :: renderItems xs

/-- Keys with their rendered values. -/
def renderMembers : Entries → List (String × String)
  | [] => []
  | (k, v) :: es => (k.display, render v) :: renderMembers es

end

end Syndicate.Json
