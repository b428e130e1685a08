import Syndicate.Text.Digit

/-! The arguments of the command line. An option may be shortened as long as no other begins in
the same way, and its value may follow it after an equals sign or as the next word. -/

namespace Syndicate

structure Arguments where
  /-- The path of the configuration; nothing when the word that ends options stands for it. -/
  config : Option String := some "config/config.yaml"
  /-- The path of the content, nothing likewise. -/
  content : Option String
  dryRun : Bool := false
  /-- Whether adapters are verified first; the configuration says so when nothing is given. -/
  verify : Option Bool := none
  console : Bool := false
  debug : Bool := false
  deriving DecidableEq

namespace Arguments

/-- Why the arguments lead to no run. -/
inductive Stop where
  | help
  | usage
  deriving DecidableEq

/-- The exit code of a run that does not begin. -/
def Stop.code : Stop → Nat
  | .help => 0
  | .usage => 2

inductive Flag where
  | help
  | config
  | content
  | dryRun
  | noVerify
  | console
  | debug
  deriving DecidableEq

def flags : List (String × Flag) :=
  [("-h", .help), ("--help", .help), ("--config", .config), ("--content", .content),
   ("--dry-run", .dryRun), ("--no-verify", .noVerify), ("--console", .console),
   ("--debug", .debug)]

def Flag.takesValue : Flag → Bool
  | .config | .content => true
  | _ => false

/-- A word of the command line by its role. An option may come with a value of its own, and a
short one with more letters behind it. -/
inductive Word where
  | operand (text : String)
  | terminator
  | option (flag : Flag) (value : Option String)
  | letters (flag : Flag) (rest : String)
  | unknown

def startsWith (start text : String) : Bool := start.toList.isPrefixOf text.toList

/-- A word cut at its first equals sign. -/
def splitValue (word : String) : String × Option String :=
  let name := word.toList.takeWhile (· ≠ '=')
  match word.toList.drop name.length with
  | [] => (word, none)
  | _ :: value => (String.ofList name, some (String.ofList value))

/-- Whether a word is a negative number, which is no option. A line end may follow the number. -/
def isNegativeNumber (word : String) : Bool :=
  match word.toList with
  | '-' :: cs =>
    let cs := if cs.getLast? = some '\n' then cs.dropLast else cs
    match cs.dropWhile Text.isDigit with
    | [] => cs ≠ []
    | '.' :: ds => ds ≠ [] && ds.all Text.isDigit
    | _ => false
  | _ => false

/-- The options that a word may be short for. -/
def candidates (word : String) : List Word :=
  match word.toList with
  | '-' :: '-' :: _ =>
    let (name, value) := splitValue word
    (flags.filter fun f => startsWith name f.1).map fun f => .option f.2 value
  | _ =>
    flags.filterMap fun f =>
      if f.1.toList = word.toList.take 2 then
        some (.letters f.2 (String.ofList (word.toList.drop 2)))
      else if startsWith word f.1 then some (.option f.2 none)
      else none

/-- An option given by its full name, with or without a value. -/
def fullName? (word : String) : Option Word :=
  match flags.lookup word with
  | some f => some (.option f none)
  | none =>
    let (name, value) := splitValue word
    match value, flags.lookup name with
    | some v, some f => some (if name.length = 2 then .letters f v else .option f value)
    | _, _ => none

/-- The role of a word that is not behind a terminator; one that may be short for several options
is refused. -/
def classify (word : String) : Except Stop Word :=
  if !startsWith "-" word || word = "-" then .ok (.operand word)
  else match fullName? word with
    | some w => .ok w
    | none => match candidates word with
      | [w] => .ok w
      | _ :: _ :: _ => .error .usage
      | [] =>
        if isNegativeNumber word || word.toList.contains ' ' then .ok (.operand word)
        else .ok .unknown

/-- The roles of all words. Behind a terminator every word is an operand. -/
def classifyAll : List String → Except Stop (List Word)
  | [] => .ok []
  | "--" :: rest => .ok (.terminator :: rest.map .operand)
  | word :: rest => do
    let w ← classify word
    pure (w :: (← classifyAll rest))

/-- What was read so far. -/
structure Draft where
  arguments : Arguments := { content := none }
  hasContent : Bool := false
  leftOver : Bool := false

/-- The word that ends options. -/
def terminator : String := "--"

/-- The path that a value gives. -/
def pathOf (value : String) : Option String := if value = terminator then none else some value

def Draft.set (d : Draft) (f : Flag) (value : String) : Draft :=
  match f with
  | .config => { d with arguments.config := pathOf value }
  | .content => { d with arguments.content := pathOf value, hasContent := true }
  | .dryRun => { d with arguments.dryRun := true }
  | .noVerify => { d with arguments.verify := some false }
  | .console => { d with arguments.console := true }
  | .debug => { d with arguments.debug := true }
  | .help => d

/-- Takes words up to the end. Letters behind a short option must be that option again. -/
def take (d : Draft) : List Word → Except Stop Draft
  | [] => .ok d
  | .option f (some value) :: rest =>
    if f.takesValue then take (d.set f value) rest else .error .usage
  | .option f none :: rest =>
    if f = .help then .error .help
    else if f.takesValue then
      match rest with
      | .operand value :: rest => take (d.set f value) rest
      | _ => .error .usage
    else take (d.set f "") rest
  | .letters _ letters :: _ =>
    .error (if letters ≠ "" && letters.toList.all (· = 'h') then .help else .usage)
  | .operand _ :: rest | .terminator :: rest | .unknown :: rest =>
    take { d with leftOver := true } rest

/-- Reads the words of a command line. The content must be given, and no word may be left over. -/
def parse (words : List String) : Except Stop Arguments := do
  let d ← take {} (← classifyAll words)
  if d.hasContent && !d.leftOver then pure d.arguments else .error .usage

/-- The arguments by name as they are shown. -/
def shown (a : Arguments) : List (String × String) :=
  let flag (b : Bool) := if b then "True" else "False"
  [("config", a.config.getD "[]"), ("content", a.content.getD "[]"), ("dry_run", flag a.dryRun),
   ("verify", (a.verify.map flag).getD "None"), ("console", flag a.console),
   ("debug", flag a.debug)]

end Arguments

end Syndicate
