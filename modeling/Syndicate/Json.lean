import Syndicate.Text.Numeral
import Syndicate.Value.Basic

/-! Reading values from JSON text. A mapping keeps the order of its keys, and of two equal keys
the last one's value. Besides the numbers of the standard, the names of the infinities and of nan
are accepted. -/

namespace Syndicate.Json

def isBlank (c : Char) : Bool := c = ' ' || c = '\t' || c = '\n' || c = '\r'

def skip (cs : List Char) : List Char := cs.dropWhile isBlank

def hexDigit? (c : Char) : Option Nat :=
  if c.isDigit then some (c.toNat - 0x30)
  else if 'a' ≤ c && c ≤ 'f' then some (c.toNat - 0x61 + 10)
  else if 'A' ≤ c && c ≤ 'F' then some (c.toNat - 0x41 + 10)
  else none

def hexValue? (cs : List Char) : Option Nat :=
  cs.foldlM (fun n c => (hexDigit? c).map (n * 16 + ·)) 0

/-- The character that a letter after a backslash stands for. -/
def escape? : Char → Option Nat
  | '"' => some 0x22
  | '\\' => some 0x5c
  | '/' => some 0x2f
  | 'b' => some 0x8
  | 'f' => some 0xc
  | 'n' => some 0xa
  | 'r' => some 0xd
  | 't' => some 0x9
  | _ => none

/-- The code units of a text after its opening quote, and what follows the closing one. Half of a
surrogate pair is a unit of its own here. -/
def units? : List Char → Option (List Nat × List Char)
  | '"' :: rest => some ([], rest)
  | '\\' :: 'u' :: a :: b :: c :: d :: rest => do
    let n ← hexValue? [a, b, c, d]
    let (us, rest) ← units? rest
    some (n :: us, rest)
  | '\\' :: c :: rest => do
    let n ← escape? c
    let (us, rest) ← units? rest
    some (n :: us, rest)
  | c :: rest =>
    if c.toNat < 0x20 then none else (units? rest).map fun (us, rest) => (c.toNat :: us, rest)
  | [] => none

def isHigh (n : Nat) : Bool := 0xd800 ≤ n && n < 0xdc00
def isLow (n : Nat) : Bool := 0xdc00 ≤ n && n < 0xe000

/-- The character of a code unit, a lone surrogate being replaced. -/
def unitChar (n : Nat) : Char := if isHigh n || isLow n then Char.ofNat 0xfffd else Char.ofNat n

/-- Characters from code units, two halves of a surrogate pair making one. -/
def joinUnits : List Nat → List Char
  | h :: l :: us =>
    if isHigh h && isLow l then
      Char.ofNat (0x10000 + (h - 0xd800) * 0x400 + (l - 0xdc00)) :: joinUnits us
    else unitChar h :: joinUnits (l :: us)
  | [u] => [unitChar u]
  | [] => []

def text? (cs : List Char) : Option (String × List Char) :=
  (units? cs).map fun (us, rest) => (String.ofList (joinUnits us), rest)

/-- The part of a number after its point, without it. -/
def splitFraction (cs : List Char) : List Char × List Char :=
  match cs with
  | '.' :: rest =>
    let ds := rest.takeWhile Char.isDigit
    if ds = [] then ([], cs) else (ds, rest.drop ds.length)
  | _ => ([], cs)

/-- The exponent of a number. -/
def splitExponent (cs : List Char) : Option Int × List Char :=
  match cs with
  | e :: rest =>
    if e = 'e' || e = 'E' then
      let (negative, tail) := Text.splitSign rest
      let ds := tail.takeWhile Char.isDigit
      if ds = [] then (none, cs)
      else (some (Text.withSign negative (Text.digitsValue ds)), tail.drop ds.length)
    else (none, cs)
  | [] => (none, [])

/-- A number: an integer when it has neither fraction nor exponent. An integer of more than `limit`
digits is refused. -/
def number? (limit : Nat) (cs : List Char) : Option (Value × List Char) := do
  let (negative, cs) := match cs with
    | '-' :: rest => (true, rest)
    | _ => (false, cs)
  let whole := match cs with
    | '0' :: _ => ['0']
    | _ => cs.takeWhile Char.isDigit
  if whole = [] then none else
  let (part, rest) := splitFraction (cs.drop whole.length)
  let (exponent, rest) := splitExponent rest
  if part = [] && exponent.isNone then
    if whole.length ≤ limit
    then some (.int (Text.withSign negative (Text.digitsValue whole)), rest) else none
  else
    some (.float (Binary64.ofDecimal negative (Text.digitsValue (whole ++ part))
      (exponent.getD 0 - part.length)), rest)

/-- The mark of what is no number in a text. -/
def nanMark : Nat := 2

/-- The words that stand for values. -/
def words : List (String × Value) :=
  [("null", .null), ("true", .bool true), ("false", .bool false), ("NaN", .float (.nan nanMark)),
   ("Infinity", .float (.infinite false)), ("-Infinity", .float (.infinite true))]

def word? (cs : List Char) : Option (Value × List Char) :=
  (words.find? fun w => w.1.toList.isPrefixOf cs).map fun w => (w.2, cs.drop w.1.length)

mutual

/-- A value at the front of a text, whose integers have at most `limit` digits. Every call takes one
unit of fuel. -/
def value? (limit : Nat) : (fuel : Nat) → List Char → Option (Value × List Char)
  | 0, _ => none
  | n + 1, cs => match cs with
    | '"' :: rest => (text? rest).map fun (s, rest) => (.text s, rest)
    | '[' :: rest => match skip rest with
      | ']' :: rest => some (.list [], rest)
      | rest => (items? limit n [] rest).map fun (xs, rest) => (.list xs, rest)
    | '{' :: rest => match skip rest with
      | '}' :: rest => some (.map [], rest)
      | rest => (members? limit n [] rest).map fun (es, rest) => (.map es, rest)
    | _ => (word? cs).or (number? limit cs)

/-- The items of a list up to its end; `done` holds those before, last first. -/
def items? (limit : Nat) :
    (fuel : Nat) → (done : List Value) → List Char → Option (List Value × List Char)
  | 0, _, _ => none
  | n + 1, done, cs => do
    let (v, rest) ← value? limit n cs
    match skip rest with
    | ',' :: rest => items? limit n (v :: done) (skip rest)
    | ']' :: rest => some ((v :: done).reverse, rest)
    | _ => none

/-- The members of a mapping up to its end. -/
def members? (limit : Nat) :
    (fuel : Nat) → (done : Entries) → List Char → Option (Entries × List Char)
  | 0, _, _ => none
  | n + 1, done, cs => match cs with
    | '"' :: rest => do
      let (key, rest) ← text? rest
      match skip rest with
      | ':' :: rest => do
        let (v, rest) ← value? limit n (skip rest)
        let done := Entries.put done (.text key) v
        match skip rest with
        | ',' :: rest => members? limit n done (skip rest)
        | '}' :: rest => some (done, rest)
        | _ => none
      | _ => none
    | _ => none

end

/-- The value that a whole text holds, with integers of at most `limit` digits. A step takes a
character or goes down one level, so twice the length is fuel enough. -/
def parseWithin? (limit : Nat) (s : String) : Option Value := do
  let cs := s.toList
  let (v, rest) ← value? limit (2 * cs.length + 2) (skip cs)
  if skip rest = [] then some v else none

def parse? (s : String) : Option Value := parseWithin? Text.maxDigits s

end Syndicate.Json
