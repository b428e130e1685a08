import Syndicate.Failure
import Syndicate.Text.Numeral

/-! Using a loosely typed value as something in particular, and what fails when it is not that. -/

namespace Syndicate.Value

/-- The members that a value yields in turn: the items of a list, the characters of a text, the
keys of a mapping. -/
def items : Value → Outcome (List Value)
  | .list xs => .ok xs
  | .text s => .ok (s.toList.map fun c => .text (String.singleton c))
  | .map es => .ok (es.map (·.1))
  | _ => faulty .wrongType

/-- The entries of a value that must be a mapping because `member` is asked of it. -/
def entries (member : String) : Value → Outcome Entries
  | .map es => .ok es
  | v => faulty (.noMember v.kindName member)

/-- A pair given as any value with two members. -/
def pair (v : Value) : Outcome (Value × Value) := do
  match ← v.items with
  | [k, w] => if k.isScalar then .ok (k, w) else faulty .wrongType
  | _ => faulty (.wrongValue "")

/-- Binds pairs one after the other. -/
def putPairs (es : Entries) : List Value → Outcome Entries
  | [] => .ok es
  | p :: ps => do
    let (k, w) ← p.pair
    putPairs (Entries.put es k w) ps

/-- A new mapping from a mapping or from a row of pairs. -/
def toEntries : Value → Outcome Entries
  | .map es => .ok es
  | v => do putPairs [] (← v.items)

/-- The text that shows a value. -/
def shown (v : Value) : Outcome String :=
  if v.isShowable then .ok v.display else faulty .tooManyDigits

/-- The text that shows a value inside brackets. -/
def shownQuoted (v : Value) : Outcome String :=
  if v.isShowable then .ok v.quoted else faulty .tooManyDigits

/-- The length of a text in characters, or of a list or mapping. -/
def length : Value → Outcome Nat
  | .text s => .ok s.length
  | .list xs => .ok xs.length
  | .map es => .ok es.length
  | _ => faulty .wrongType

/-- The integer that a value denotes, the fraction of a number being dropped. -/
def toInt : Value → Outcome Int
  | .bool b => .ok (if b then 1 else 0)
  | .int i => .ok i
  | .float (.nan _) => faulty (.wrongValue "cannot convert float NaN to integer")
  | .float x => match x.trunc? with
    | some i => .ok i
    | none => faulty .overflow
  | .text s => match Text.integer? s with
    | some i => .ok i
    | none => faulty (.wrongValue ("invalid literal for int() with base 10: " ++ Text.quoted s))
  | _ => faulty .wrongType

def toFloat : Value → Outcome Binary64
  | .float x => .ok x
  | .text s => match Text.float? s with
    | some x => .ok x
    | none => faulty (.wrongValue ("could not convert string to float: " ++ Text.quoted s))
  | v => match v.asInt? with
    | none => faulty .wrongType
    | some i => match Binary64.ofInt? i with
      | some x => .ok x
      | none => faulty .overflow

/-- Whether a count is greater than a value that must be a number. -/
def exceededBy (limit : Value) (n : Nat) : Outcome Bool :=
  match limit, limit.asInt? with
  | .float x, _ => .ok (x.lessInt n)
  | _, some i => .ok (i < n)
  | _, none => faulty .wrongType

/-- Twice a number; a text or a list is repeated. -/
def twice : Value → Outcome Value
  | .float x => .ok (.float (x.add x))
  | .text s => .ok (.text (s ++ s))
  | .list xs => .ok (.list (xs ++ xs))
  | v => match v.asInt? with
    | some i => .ok (.int (2 * i))
    | none => faulty .wrongType

/-- The values of a list as members of a set, which must all be scalars. -/
def asSet (xs : List Value) : Outcome (List Value) :=
  if xs.all isScalar then .ok xs else faulty .wrongType

/-- The members of a row, of equal ones the first. -/
def distinct (xs : List Value) : List Value :=
  xs.foldl (fun done x => if done.any x.alike then done else done ++ [x]) []

/-- Whether a value goes before another one in a sorted row, which holds texts or numbers only. -/
def less : Value → Value → Outcome Bool
  | .text s, .text t => .ok (s < t)
  | .float x, .float y => .ok (x.less y)
  | .float x, w => match w.asInt? with
    | some j => .ok (x.lessInt j)
    | none => faulty .wrongType
  | v, .float y => match v.asInt? with
    | some i => .ok (Binary64.intLess i y)
    | none => faulty .wrongType
  | v, w => match v.asInt?, w.asInt? with
    | some i, some j => .ok (i < j)
    | _, _ => faulty .wrongType

/-- A value put into a sorted row at its place. -/
def insertSorted (x : Value) : List Value → Outcome (List Value)
  | [] => .ok [x]
  | y :: ys => do
    if ← x.less y then pure (x :: y :: ys)
    else pure (y :: (← insertSorted x ys))

/-- A row of comparable values in order. -/
def sorted : List Value → Outcome (List Value)
  | [] => .ok []
  | x :: xs => do insertSorted x (← sorted xs)

end Syndicate.Value
