import Syndicate.Yaml.Scalar

/-! A place in the text of a YAML document, and the scalars that are read from there: plain ones,
quoted ones, and blocks. Line ends are line feeds here, besides the two separators of Unicode. -/

namespace Syndicate.Yaml

/-- What is left of the text, and how far into it and into its line that is. -/
structure Cursor where
  rest : List Char
  index : Nat := 0
  line : Nat := 0
  column : Nat := 0

def lineSeparator : Char := Char.ofNat 0x2028
def paragraphSeparator : Char := Char.ofNat 0x2029
def byteOrderMark : Char := Char.ofNat 0xfeff

def isBreak (c : Char) : Bool := c = '\n' || c = lineSeparator || c = paragraphSeparator

def isGap (c : Char) : Bool := c = ' ' || c = '\t' || isBreak c

/-- Whether a word ends here: at the end of the text, a blank or a line end. -/
def endsWord : List Char → Bool
  | [] => true
  | c :: _ => isGap c

/-- Whether a document ends or begins here, at the start of a line. -/
def isMarker (cs : List Char) : Bool :=
  match cs with
  | '-' :: '-' :: '-' :: rest | '.' :: '.' :: '.' :: rest => endsWord rest
  | _ => false

namespace Cursor

def peek? (c : Cursor) : Option Char := c.rest.head?

/-- One character further. -/
def next (c : Cursor) : Cursor :=
  match c.rest with
  | [] => c
  | ch :: rest =>
    if isBreak ch then ⟨rest, c.index + 1, c.line + 1, 0⟩
    else ⟨rest, c.index + 1, c.line, if ch = byteOrderMark then c.column else c.column + 1⟩

def skip (c : Cursor) : Nat → Cursor
  | 0 => c
  | n + 1 => c.next.skip n

/-- Goes on over characters of a kind; gives these, too. -/
def span (c : Cursor) (kind : Char → Bool) : List Char × Cursor :=
  let cs := c.rest.takeWhile kind
  (cs, c.skip cs.length)

def isAtBreak (c : Cursor) : Bool := c.peek?.any isBreak

/-- The steps that any loop over the rest of the text needs at most. -/
def fuel (c : Cursor) : Nat := c.rest.length + 1

/-! ### Plain scalars -/

def isOneOf (marks : String) (c : Char) : Bool := marks.toList.contains c

/-- The length of a plain scalar up to the next gap or mark. -/
def plainLength (flow : Bool) : List Char → Nat
  | [] => 0
  | c :: cs =>
    if isGap c then 0
    else if c = ':' && (endsWord cs || (flow && cs.head?.any (isOneOf ",[]\x7b\x7d"))) then 0
    else if flow && isOneOf ",?[]\x7b\x7d" c then 0
    else plainLength flow cs + 1

/-- The line ends after a first one, with the blanks between them left out; nothing if a marker
comes. -/
def plainBreaks : (fuel : Nat) → Cursor → Option (List Char) × Cursor
  | 0, c => (some [], c)
  | n + 1, c => match c.peek? with
    | some ' ' => plainBreaks n c.next
    | some ch =>
      if isBreak ch then
        if isMarker c.next.rest then (none, c.next)
        else
          let (more, d) := plainBreaks n c.next
          (more.map (ch :: ·), d)
      else (some [], c)
    | none => (some [], c)

/-- A first line end and those after it as text: one line feed is a space, more are one less. -/
def fold (first : Char) (more : List Char) : List Char :=
  if first ≠ '\n' then first :: more else if more = [] then [' '] else more

/-- What lies between two words of a plain scalar, which may not go on after it; and whether
there is a line end in it. -/
def plainGap (c : Cursor) : List Char × Cursor × Bool :=
  let (blanks, d) := c.span (· = ' ')
  match d.peek? with
  | some ch =>
    if isBreak ch then
      if isMarker d.next.rest then ([], d.next, true)
      else match plainBreaks d.fuel d.next with
        | (some more, e) => (fold ch more, e, true)
        | (none, e) => ([], e, true)
    else (blanks, d, false)
  | none => (blanks, d, false)

/-- The words of a plain scalar from here on; and whether the last gap has a line end in it. -/
def plainFrom (flow : Bool) (indent : Int) :
    (fuel : Nat) → Cursor → (words gap : List Char) → (broken : Bool) → List Char × Cursor × Bool
  | 0, c, words, _, broken => (words, c, broken)
  | n + 1, c, words, gap, broken =>
    let length := plainLength flow c.rest
    if c.peek? = some '#' || length = 0 then (words, c, broken)
    else
      let words := words ++ gap ++ c.rest.take length
      let (gap, d, broken) := plainGap (c.skip length)
      if gap = [] || d.peek? = some '#' || (!flow && d.column < indent) then (words, d, broken)
      else plainFrom flow indent n d words gap broken

def plain (c : Cursor) (flow : Bool) (indent : Int) : String × Cursor × Bool :=
  let (words, d, broken) := plainFrom flow indent c.fuel c [] [] false
  (String.ofList words, d, broken)

/-! ### Quoted scalars -/

/-- The line ends after a first one inside quotes, with the blanks around them left out. -/
def quotedBreaks : (fuel : Nat) → Cursor → Reading (List Char × Cursor)
  | 0, _ => malformed
  | n + 1, c =>
    if isMarker c.rest then malformed
    else
      let (_, d) := c.span fun ch => ch = ' ' || ch = '\t'
      match d.peek? with
      | some ch =>
        if isBreak ch then do
          let (more, e) ← quotedBreaks n d.next
          pure (ch :: more, e)
        else pure ([], d)
      | none => pure ([], d)

/-- What a letter after a backslash stands for. -/
def escape? : Char → Option Nat
  | '0' => some 0
  | 'a' => some 0x7
  | 'b' => some 0x8
  | 't' | '\t' => some 0x9
  | 'n' => some 0xa
  | 'v' => some 0xb
  | 'f' => some 0xc
  | 'r' => some 0xd
  | 'e' => some 0x1b
  | ' ' => some 0x20
  | '"' => some 0x22
  | '\\' => some 0x5c
  | '/' => some 0x2f
  | 'N' => some 0x85
  | '_' => some 0xa0
  | 'L' => some 0x2028
  | 'P' => some 0x2029
  | _ => none

/-- How many hexadecimal digits a letter after a backslash asks for. -/
def escapeWidth? : Char → Option Nat
  | 'x' => some 2
  | 'u' => some 4
  | 'U' => some 8
  | _ => none

/-- The character of a code that ends at a place in the text, a lone surrogate being replaced. -/
def codeChar (n : Nat) (place : Nat) : Reading Char :=
  if 0x7fffffff < n then .error (.impossible .overflow place)
  else if 0x10ffff < n then .error (.impossible (.wrongValue "no such character") place)
  else if 0xd800 ≤ n && n < 0xe000 then .ok (Char.ofNat 0xfffd)
  else .ok (Char.ofNat n)

/-- What stands after a backslash in double quotes. -/
def escape (c : Cursor) : Reading (List Char × Cursor) :=
  match c.peek? with
  | none => malformed
  | some ch => match escape? ch, escapeWidth? ch with
    | some n, _ => .ok ([Char.ofNat n], c.next)
    | none, some width =>
      let ds := c.next.rest.take width
      if ds.length = width && ds.all Scalar.isHexDigit then do
        let code := ds.foldl (fun n d => n * 16 + Scalar.digitValue d) 0
        let end_ := c.next.skip width
        pure ([← codeChar code end_.index], end_)
      else malformed
    | none, none => if isBreak ch then quotedBreaks c.fuel c.next else malformed

/-- The text of a quoted scalar after its opening quote, in pieces, last first. -/
def quotedFrom (double : Bool) :
    (fuel : Nat) → Cursor → (pieces : List (List Char)) → Reading (List (List Char) × Cursor)
  | 0, _, _ => malformed
  | n + 1, c, pieces => match c.rest with
    | [] => malformed
    | ch :: rest =>
      if ch = '\'' && !double then
        if rest.head? = some '\'' then quotedFrom double n (c.skip 2) (['\''] :: pieces)
        else .ok (pieces, c.next)
      else if ch = '"' && double then .ok (pieces, c.next)
      else if ch = '\\' && double then do
        let (cs, d) ← escape c.next
        quotedFrom double n d (cs :: pieces)
      else if isGap ch then
        let (blanks, d) := c.span fun ch => ch = ' ' || ch = '\t'
        match d.peek? with
        | none => malformed
        | some b =>
          if isBreak b then do
            let (more, e) ← quotedBreaks d.fuel d.next
            quotedFrom double n e (fold b more :: pieces)
          else quotedFrom double n d (blanks :: pieces)
      else quotedFrom double n c.next ([ch] :: pieces)

/-- A quoted scalar from its opening quote on. -/
def quoted (c : Cursor) (double : Bool) : Reading (String × Cursor) := do
  let (pieces, d) ← quotedFrom double c.fuel c.next []
  pure (String.ofList pieces.reverse.flatten, d)

/-! ### Blocks -/

/-- What becomes of the line ends at the end of a block. -/
inductive Chomping where
  | strip
  | clip
  | keep
  deriving DecidableEq

def chomping? : Char → Option Chomping
  | '+' => some .keep
  | '-' => some .strip
  | _ => none

/-- A digit from one to nine that tells how far a block is indented; a zero is refused. -/
def increment (c : Cursor) : Reading (Option Nat × Cursor) :=
  match c.peek? with
  | some ch =>
    if ch = '0' then malformed
    else if ch.isDigit then .ok (some (ch.toNat - 0x30), c.next)
    else .ok (none, c)
  | none => .ok (none, c)

/-- The marks behind the sign of a block, in either order, and the rest of their line. -/
def header (c : Cursor) : Reading (Chomping × Option Nat × Cursor) := do
  let (chomping, inc, d) ← match c.peek?.bind chomping? with
    | some k => do
      let (inc, d) ← increment c.next
      pure (k, inc, d)
    | none => do
      let (inc, d) ← increment c
      match inc, d.peek?.bind chomping? with
      | some _, some k => pure (k, inc, d.next)
      | _, _ => pure (.clip, inc, d)
  match d.peek? with
  | some ch => if ch = ' ' || isBreak ch then pure () else malformed
  | none => pure ()
  let (_, e) := d.span (· = ' ')
  let (_, e) := if e.peek? = some '#' then e.span (fun ch => !isBreak ch) else ([], e)
  match e.peek? with
  | some ch => if isBreak ch then pure (chomping, inc, e.next) else malformed
  | none => pure (chomping, inc, e)

/-- The empty lines before the first line of a block, and how far in they go. -/
def leadingBreaks : (fuel : Nat) → Cursor → (deepest : Nat) → List Char × Nat × Cursor
  | 0, c, deepest => ([], deepest, c)
  | n + 1, c, deepest => match c.peek? with
    | some ' ' => leadingBreaks n c.next (max deepest (c.column + 1))
    | some ch =>
      if isBreak ch then
        let (more, deepest, d) := leadingBreaks n c.next deepest
        (ch :: more, deepest, d)
      else ([], deepest, c)
    | none => ([], deepest, c)

/-- Goes on over spaces up to a column. -/
def indentTo (column : Nat) (c : Cursor) : Cursor :=
  c.skip (min (c.rest.takeWhile (· = ' ')).length (column - c.column))

/-- The empty lines between two lines of a block with an indentation. -/
def blockBreaks (indent : Nat) : (fuel : Nat) → Cursor → List Char × Cursor
  | 0, c => ([], c)
  | n + 1, c =>
    let d := indentTo indent c
    match d.peek? with
    | some ch =>
      if isBreak ch then
        let (more, e) := blockBreaks indent n d.next
        (ch :: more, e)
      else ([], d)
    | none => ([], d)

def isBlankAhead (c : Cursor) : Bool := c.peek?.any fun ch => ch = ' ' || ch = '\t'

/-- A block from one of its lines on: its text, its last line end, and the empty lines behind
it. -/
def blockFrom (folded : Bool) (indent : Nat) :
    (fuel : Nat) → Cursor → (breaks : List Char) → (last : List Char) → (text : List Char) →
      List Char × List Char × List Char × Cursor
  | 0, c, breaks, last, text => (text, last, breaks, c)
  | n + 1, c, breaks, last, text =>
    if c.column ≠ indent || c.rest = [] then (text, last, breaks, c)
    else
      let (line, d) := c.span fun ch => !isBreak ch
      let text := text ++ breaks ++ line
      let last := if d.rest = [] then [] else d.rest.take 1
      let (breaks, e) := blockBreaks indent d.fuel d.next
      if e.column ≠ indent || e.rest = [] then (text, last, breaks, e)
      else
        let joint :=
          if folded && last = ['\n'] && !c.isBlankAhead && !e.isBlankAhead then
            (if breaks = [] then [' '] else [])
          else last
        blockFrom folded indent n e breaks last (text ++ joint)

/-- A block from its sign on, inside a collection with an indentation. -/
def block (c : Cursor) (folded : Bool) (outer : Int) : Reading (String × Cursor) := do
  let (chomping, inc, d) ← header c.next
  let least := max (outer + 1).toNat 1
  let (indent, breaks, e) := match inc with
    | none =>
      let (breaks, deepest, e) := leadingBreaks d.fuel d 0
      (max least deepest, breaks, e)
    | some n =>
      let (breaks, e) := blockBreaks (least + n - 1) d.fuel d
      (least + n - 1, breaks, e)
  let (text, last, breaks, f) := blockFrom folded indent e.fuel e breaks [] []
  let tail := match chomping with
    | .strip => []
    | .clip => last
    | .keep => last ++ breaks
  pure (String.ofList (text ++ tail), f)

end Cursor

end Syndicate.Yaml
