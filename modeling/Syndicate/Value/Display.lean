import Syndicate.Value.Basic
import Syndicate.Binary64.Display
import Syndicate.Text.Numeral
import Syndicate.Text.Quoted

/-! How messages show values. `quoted` is the form inside brackets, `display` the form outside
them, which differs for texts, dates and timestamps only. -/

namespace Syndicate.Value

def intText (i : Int) : String := toString i

mutual

def quoted : Value → String
  | .null => "None"
  | .bool b => if b then "True" else "False"
  | .int i => intText i
  | .float x => x.display
  | .text s => Text.quoted s
  | .date d => "datetime.date(" ++ toString d.year ++ ", " ++ toString d.month ++ ", " ++
      toString d.day ++ ")"
  | .timestamp t => t.quoted
  | .list xs => "[" ++ ", ".intercalate (quotedItems xs) ++ "]"
  | .map es => "\x7b" ++ ", ".intercalate (quotedEntries es) ++ "\x7d"

def quotedItems : List Value → List String
  | [] => []
  | x :: xs => x.quoted :: quotedItems xs

def quotedEntries : Entries → List String
  | [] => []
  | (k, v) :: es => (k.quoted ++ ": " ++ v.quoted) :: quotedEntries es

end

def display : Value → String
  | .text s => s
  | .date d => d.display
  | .timestamp t => t.display
  | v => v.quoted

mutual

/-- Whether a value can be shown: an integer of too many digits cannot. -/
def isShowable : Value → Bool
  | .int i => (toString i.natAbs).length ≤ Text.maxDigits
  | .list xs => itemsShowable xs
  | .map es => entriesShowable es
  | _ => true

def itemsShowable : List Value → Bool
  | [] => true
  | x :: xs => x.isShowable && itemsShowable xs

def entriesShowable : Entries → Bool
  | [] => true
  | (k, v) :: es => k.isShowable && v.isShowable && entriesShowable es

end

/-- The name of a value's kind, as messages about missing members give it. -/
def kindName : Value → String
  | .null => "NoneType"
  | .bool _ => "bool"
  | .int _ => "int"
  | .float _ => "float"
  | .text _ => "str"
  | .date _ => "datetime.date"
  | .timestamp _ => "datetime.datetime"
  | .list _ => "list"
  | .map _ => "dict"

end Syndicate.Value
