import Syndicate.Content
import Syndicate.Files
import Syndicate.Json
import Syndicate.Yaml

/-! Configuration and content files. Configuration is YAML; content is JSON when the file's name
says so, and YAML otherwise. Both must hold a mapping, though an empty configuration will do. What
turns their texts into values is given. -/

namespace Syndicate

/-- Why a reader makes no value of a text. -/
inductive Misreading where
  /-- The text is not in its format. What the reader says of it, if it says anything. -/
  | malformed (detail : Option String)
  /-- The reader itself fails. -/
  | fault (f : Fault)

abbrev Reader := String → Except Misreading Value

/-- What turns texts into values: those of configuration files, and those of content files in either
format. -/
structure Readers where
  config : Reader
  yaml : Reader
  json : Reader

namespace Readers

/-- A configuration is read part by part. A scalar that cannot be what it looks like is a failure of
the reader. -/
def ownConfig : Reader := fun text =>
  (Yaml.parseParts text).mapError fun
    | .malformed => .malformed none
    | .impossible f _ => .fault f

/-- Only a number out of range is a failure of the reader. -/
def ownYaml : Reader := fun text =>
  (Yaml.parse text).mapError fun
    | .impossible .overflow _ => .fault .overflow
    | _ => .malformed none

def ownJson : Reader := fun text =>
  match Json.parse? text with
  | some v => .ok v
  | none => .error (.malformed none)

/-- The readers of this library. -/
def own : Readers := ⟨ownConfig, ownYaml, ownJson⟩

end Readers

namespace Config

/-- The failure to read a file, a missing one being the given problem. -/
def orMissing (problem : ConfigProblem) : Failure → Failure
  | .fault .noSuchFile => .error (.config problem)
  | f => f

def withMissing {α : Type} (problem : ConfigProblem) (x : Outcome α) : Outcome α :=
  x.mapError (orMissing problem)

/-- The mapping of a configuration file. -/
def load (fs : Files) (path : String) (readers : Readers := .own) : Outcome Entries := do
  let text ← withMissing (.configMissing path) (fs.text path)
  match readers.config text with
  | .error (.malformed detail) => fail (.config (.configUnparsable detail))
  | .error (.fault f) => faulty f
  | .ok .null => pure []
  | .ok (.map es) => pure es
  | .ok _ => fail (.config (.configNotMapping path))

/-- The reader for a content file. -/
def contentReader (readers : Readers) (path : String) : Reader :=
  if (Files.suffix path).toLower = ".json" then readers.json else readers.yaml

/-- The value in the text of a content file. A wrong value in it is as bad as a wrong format. -/
def parseContent (readers : Readers) (path text : String) : Outcome Value :=
  match contentReader readers path text with
  | .ok v => .ok v
  | .error (.malformed detail) => fail (.config (.contentUnparsable path detail))
  | .error (.fault f) =>
    if f.isWrongValue then fail (.config (.contentUnparsable path (some f.message)))
    else faulty f

/-- The item of a content file. -/
def loadContent (fs : Files) (path : String) (readers : Readers := .own) : Outcome Content := do
  let text ← withMissing (.contentMissing path) (fs.text (Files.tidy path))
  match ← parseContent readers path text with
  | .map es => Content.ofValue (.map es)
  | _ => fail (.config (.contentNotMapping path))

end Config

end Syndicate
