import Syndicate.Text.Utf8
import Syndicate.Yaml.Cursor

/-! The tokens of a YAML document. Besides marks and scalars there are tokens for the beginnings
and ends of blocks, which the indentation shows, and for keys, which the colon behind them shows.
So a token that may turn out to begin a key is remembered until the colon comes or cannot come any
more: a key lies on one line and is at most 1024 characters long. -/

namespace Syndicate.Yaml

inductive Token where
  | documentStart
  | documentEnd
  | blockSequenceStart
  | blockMappingStart
  | blockEnd
  | blockEntry
  | key
  | value
  | flowSequenceStart
  | flowSequenceEnd
  | flowMappingStart
  | flowMappingEnd
  | flowEntry
  | scalar (text : String) (plain : Bool)
  /-- The end of the text. -/
  | streamEnd
  deriving DecidableEq

/-- Tokens in order, up to the end of the text or up to a problem, which is what is wrong when there
are too few of them. -/
structure Tokens where
  tokens : List Token
  problem : Problem

/-- A place where a key may have begun. It is required when nothing but a key can stand there. -/
structure KeyMark where
  /-- How deep in brackets it lies. -/
  level : Nat
  /-- The number of tokens before it. -/
  token : Nat
  required : Bool
  index : Nat
  line : Nat
  column : Nat

/-- The state of scanning. The tokens are kept last first, with their number. -/
structure Scanner where
  cursor : Cursor
  level : Nat := 0
  indent : Int := -1
  indents : List Int := []
  keyAllowed : Bool := true
  marks : List KeyMark := []
  tokens : List Token := []
  count : Nat := 0

namespace Scanner

def maxKeyLength : Nat := 1024

def push (s : Scanner) (t : Token) : Scanner :=
  { s with tokens := t :: s.tokens, count := s.count + 1 }

/-- Puts a token behind the first so many tokens. -/
def insertAt (s : Scanner) (place : Nat) (t : Token) : Scanner :=
  let later := s.count - place
  { s with tokens := s.tokens.take later ++ t :: s.tokens.drop later, count := s.count + 1 }

def skip (s : Scanner) (n : Nat) : Scanner := { s with cursor := s.cursor.skip n }

def column (s : Scanner) : Int := s.cursor.column

/-- Ends the blocks that are further in than a column. -/
def unwindFrom (column : Int) : (outer : List Int) → Scanner → Scanner
  | [], s => s
  | outer :: rest, s =>
    if column < s.indent then
      unwindFrom column rest { s.push .blockEnd with indent := outer, indents := rest }
    else s

def unwind (s : Scanner) (column : Int) : Scanner :=
  if s.level = 0 then unwindFrom column s.indents s else s

/-- Begins a block at a column if that is further in. -/
def indentTo (s : Scanner) (column : Int) : Option Scanner :=
  if s.indent < column then some { s with indents := s.indent :: s.indents, indent := column }
  else none

/-! ### Keys -/

/-- Gives up the place for a key on the present level. -/
def dropMark (s : Scanner) : Reading Scanner :=
  match s.marks.find? fun k => k.level = s.level with
  | none => .ok s
  | some k =>
    if k.required then malformed
    else .ok { s with marks := s.marks.filter fun k => k.level ≠ s.level }

def isStale (s : Scanner) (k : KeyMark) : Bool :=
  k.line ≠ s.cursor.line || maxKeyLength < s.cursor.index - k.index

/-- Gives up the places for keys that lie too far back. -/
def dropStale (s : Scanner) : Reading Scanner :=
  if s.marks.any fun k => s.isStale k && k.required then malformed
  else .ok { s with marks := s.marks.filter fun k => !s.isStale k }

/-- Remembers that a key may begin here. -/
def saveMark (s : Scanner) : Reading Scanner :=
  if s.keyAllowed then do
    let required := s.level = 0 && s.indent = s.column
    let s ← s.dropMark
    let c := s.cursor
    pure { s with marks := ⟨s.level, s.count, required, c.index, c.line, c.column⟩ :: s.marks }
  else .ok s

/-! ### Tokens -/

/-- Goes on over blanks, comments and line ends. Outside of brackets a key may begin on a new
line. -/
def skipGaps : (fuel : Nat) → Scanner → Scanner
  | 0, s => s
  | n + 1, s =>
    let (_, c) := s.cursor.span (· = ' ')
    let (_, c) := if c.peek? = some '#' then c.span (fun ch => !isBreak ch) else ([], c)
    if c.isAtBreak then
      skipGaps n { s with cursor := c.next, keyAllowed := s.keyAllowed || s.level = 0 }
    else { s with cursor := c }

/-- A byte order mark counts for nothing at the very beginning. -/
def skipByteOrderMark (s : Scanner) : Scanner :=
  if s.cursor.index = 0 && s.cursor.peek? = some byteOrderMark then s.skip 1 else s

def openFlow (s : Scanner) (t : Token) : Reading Scanner := do
  let s ← s.saveMark
  pure ({ s with level := s.level + 1, keyAllowed := true }.push t |>.skip 1)

def closeFlow (s : Scanner) (t : Token) : Reading Scanner := do
  let s ← s.dropMark
  if s.level = 0 then malformed
  else pure ({ s with level := s.level - 1, keyAllowed := false }.push t |>.skip 1)

def flowEntry (s : Scanner) : Reading Scanner := do
  let s ← { s with keyAllowed := true }.dropMark
  pure (s.push .flowEntry |>.skip 1)

/-- Begins a block outside of brackets, where one is allowed and further in. -/
def beginBlock (s : Scanner) (t : Token) : Reading Scanner :=
  if s.level ≠ 0 then .ok s
  else if !s.keyAllowed then malformed
  else .ok (match s.indentTo s.column with
    | some s => s.push t
    | none => s)

def blockEntry (s : Scanner) : Reading Scanner := do
  let s ← s.beginBlock .blockSequenceStart
  let s ← { s with keyAllowed := true }.dropMark
  pure (s.push .blockEntry |>.skip 1)

def explicitKey (s : Scanner) : Reading Scanner := do
  let s ← s.beginBlock .blockMappingStart
  let s ← { s with keyAllowed := s.level = 0 }.dropMark
  pure (s.push .key |>.skip 1)

/-- A colon: the key before it is found where it began, or there is none on this line. -/
def value (s : Scanner) : Reading Scanner :=
  match s.marks.find? fun k => k.level = s.level with
  | some k =>
    let s := { s with marks := s.marks.filter fun k => k.level ≠ s.level }
    let s := s.insertAt k.token .key
    let s := if s.level ≠ 0 then s else match s.indentTo k.column with
      | some s => s.insertAt k.token .blockMappingStart
      | none => s
    .ok ({ s with keyAllowed := false }.push .value |>.skip 1)
  | none => do
    let s ← s.beginBlock .blockMappingStart
    let s ← { s with keyAllowed := s.level = 0 }.dropMark
    pure (s.push .value |>.skip 1)

def documentMark (s : Scanner) (t : Token) : Reading Scanner := do
  let s ← (s.unwind (-1)).dropMark
  pure ({ s with keyAllowed := false }.push t |>.skip 3)

def block (s : Scanner) (folded : Bool) : Reading Scanner := do
  let s ← { s with keyAllowed := true }.dropMark
  let (text, c) ← s.cursor.block folded s.indent
  pure ({ s with cursor := c }.push (.scalar text false))

def quoted (s : Scanner) (double : Bool) : Reading Scanner := do
  let s ← s.saveMark
  let (text, c) ← s.cursor.quoted double
  pure ({ s with cursor := c, keyAllowed := false }.push (.scalar text false))

def plain (s : Scanner) : Reading Scanner := do
  let s ← s.saveMark
  let (text, c, broken) := s.cursor.plain (s.level ≠ 0) (s.indent + 1)
  pure ({ s with cursor := c, keyAllowed := broken }.push (.scalar text true))

/-- The characters that no plain scalar begins with, some of them only when a gap follows. -/
def startsPlain (flow : Bool) (c : Char) (rest : List Char) : Bool :=
  if c = '-' then !endsWord rest
  else if c = '?' || c = ':' then !flow && !endsWord rest
  else !isGap c && !Cursor.isOneOf ",[]\x7b\x7d#&*!|>'\"%@`" c

/-- Reads the token that begins with a character. -/
def token (s : Scanner) (c : Char) (rest : List Char) : Reading Scanner :=
  let flow := s.level ≠ 0
  if s.cursor.column = 0 && c = '%' then malformed
  else if s.cursor.column = 0 && isMarker (c :: rest) then
    s.documentMark (if c = '-' then .documentStart else .documentEnd)
  else if c = '[' then s.openFlow .flowSequenceStart
  else if c = '{' then s.openFlow .flowMappingStart
  else if c = ']' then s.closeFlow .flowSequenceEnd
  else if c = '}' then s.closeFlow .flowMappingEnd
  else if c = ',' then s.flowEntry
  else if c = '-' && endsWord rest then s.blockEntry
  else if c = '?' && (flow || endsWord rest) then s.explicitKey
  else if c = ':' && (flow || endsWord rest) then s.value
  else if c = '|' && !flow then s.block false
  else if c = '>' && !flow then s.block true
  else if c = '\'' then s.quoted false
  else if c = '"' then s.quoted true
  else if startsPlain flow c rest then s.plain
  else malformed

/-- The end of the text ends all blocks. -/
def finish (s : Scanner) : Reading Scanner := do
  pure ((← (s.unwind (-1)).dropMark).push .streamEnd)

/-- Reads the next token; nothing follows the one for the end of the text. -/
def step (s : Scanner) : Reading Scanner := do
  let s := skipGaps s.cursor.fuel s.skipByteOrderMark
  let s ← s.dropStale
  let s := s.unwind s.column
  match s.cursor.rest with
  | [] => s.finish
  | c :: rest => s.token c rest

def isFinished (s : Scanner) : Bool := s.tokens.head? = some .streamEnd

/-- The tokens that can be used before more is read: those before the first that may still turn out
to begin a key. -/
def usable (s : Scanner) : Reading (List Token) := do
  let s ← s.dropStale
  pure (s.tokens.reverse.take (s.marks.foldl (fun n k => min n k.token) s.count))

/-- What comes of a text whose next token cannot be read. -/
def stopped (s : Scanner) (p : Problem) : Tokens :=
  match s.usable with
  | .ok ts => ⟨ts, p⟩
  | .error p => ⟨[], p⟩

/-- Reads tokens up to the end of the text. Each takes a character at least. -/
def scanFrom : (fuel : Nat) → Scanner → Tokens
  | 0, s => s.stopped .malformed
  | n + 1, s => match s.step with
    | .error p => s.stopped p
    | .ok s => if s.isFinished then ⟨s.tokens.reverse, .malformed⟩ else scanFrom n s

end Scanner

/-- The characters that a document may hold. -/
def isAllowed (c : Char) : Bool :=
  let n := c.toNat
  c = '\t' || c = '\n' || c = '\r' || (0x20 ≤ n && n ≤ 0x7e) || n = 0x85 ||
    (0xa0 ≤ n && n ≤ 0xd7ff) || (0xe000 ≤ n && n ≤ 0xfffd) || 0x10000 ≤ n

/-- Makes a next-line control a line feed, as the other line ends are. -/
def unifyBreaks (cs : List Char) : List Char :=
  (Text.unifyLines cs).map fun c => if c.toNat = 0x85 then '\n' else c

def scan (s : String) : Tokens :=
  let c : Cursor := { rest := unifyBreaks s.toList }
  Scanner.scanFrom c.fuel { cursor := c }

end Syndicate.Yaml
