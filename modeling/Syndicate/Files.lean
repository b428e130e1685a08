import Syndicate.Failure
import Syndicate.Text.Utf8

/-! The files in reach, given by the paths of files and of further directories. A path is a list of
names from the working directory on, or from the root, which then is its first name. What is not
given is not there, but for the directories above the working directory, whose paths are steps up
and nothing else. -/

namespace Syndicate

structure Files where
  files : List (List String × List UInt8) := []
  directories : List (List String) := []

namespace Files

/-- What a path leads to. -/
inductive Found where
  | file (bytes : List UInt8)
  | directory
  | missing
  | notDirectory
  | tooLong

/-- The names of a path, which slashes separate. -/
def names (path : String) : List String :=
  (path.toList.splitOn '/').map String.ofList

def file? (fs : Files) (path : List String) : Option (List UInt8) := fs.files.lookup path

/-- The root, as the first name of a path. -/
def root : String := "/"

/-- The name of the directory above another one. -/
def up : String := ".."

/-- Whether a path is that of a directory: one of its own right, or one with something in it. -/
def isDirectory (fs : Files) (path : List String) : Bool :=
  path.all (· = up) || path = [root] || fs.directories.any (path.isPrefixOf ·) ||
    fs.files.any fun f => path.isPrefixOf f.1 && path.length < f.1.length

/-- The longest name, and the first length of a path that is too long, in bytes. -/
def maxName : Nat := 255
def pathLimit : Nat := 4096

/-- What makes a path lead to nothing that is a file or a directory. -/
def Found.trouble? : Found → Option Fault
  | .file _ | .directory => none
  | .missing => some .noSuchFile
  | .notDirectory => some .notDirectory
  | .tooLong => some (.system "File name too long")

/-- The directory above another one. The root is above itself. -/
def parent (dir : List String) : List String :=
  if dir = [root] then dir
  else if dir.all (· = up) then dir ++ [up]
  else dir.dropLast

/-- Follows names from a directory on. -/
def walk (fs : Files) : (dir : List String) → List String → Found
  | _, [] => .directory
  | dir, name :: rest =>
    if name = "" || name = "." then walk fs dir rest
    else if name = up then walk fs (parent dir) rest
    else if maxName < name.utf8ByteSize then .tooLong
    else
      let path := if name = root then [root] else dir ++ [name]
      match fs.file? path with
      | some bytes => if rest = [] then .file bytes else .notDirectory
      | none => if fs.isDirectory path then walk fs path rest else .missing

/-- What a path leads to from the working directory. -/
def find (fs : Files) (path : String) : Found :=
  if path = "" then .missing
  else if pathLimit ≤ path.utf8ByteSize then .tooLong
  else match names path with
    | "" :: rest => walk fs [root] rest
    | ns => walk fs [] ns

/-- A path without its empty and its idle names. -/
def tidyNames (path : String) : List String := (names path).filter fun n => n ≠ "" && n ≠ "."

def isAbsolute (path : String) : Bool := path.toList.head? = some '/'

/-- The place of a path among the files. -/
def place (path : String) : List String :=
  if isAbsolute path then root :: tidyNames path else tidyNames path

/-- A path without its empty and its idle names and with its steps up taken. -/
def resolved (path : String) : List String :=
  (tidyNames path).foldl (fun done name => if name = up then parent done else done ++ [name])
    (if isAbsolute path then [root] else [])

/-- What is at a place. -/
def findPlace (fs : Files) (place : List String) : Found :=
  if pathLimit ≤ ("/".intercalate place).utf8ByteSize then .tooLong else walk fs [] place

/-- Whether a path leads to something in the working directory. -/
def isInside (path : List String) : Bool := path.head? ≠ some root && path.head? ≠ some up

/-- A path in its tidy form, a single point when nothing is left of it. -/
def tidy (path : String) : String :=
  let body := "/".intercalate (tidyNames path)
  match path.toList with
  | '/' :: '/' :: '/' :: _ => "/" ++ body
  | '/' :: '/' :: _ => "//" ++ body
  | '/' :: _ => "/" ++ body
  | _ => if body = "" then "." else body

/-- The last name of a path. -/
def lastName (path : String) : String := (tidyNames path).getLast?.getD ""

/-- The end of a name from its last point on, unless the point is at either end of it. -/
def suffix (path : String) : String :=
  let cs := (lastName path).toList.reverse
  let ending := cs.takeWhile (· ≠ '.')
  if ending ≠ [] && (cs.drop ending.length).length > 1 then
    String.ofList ('.' :: ending.reverse)
  else ""

def hasNull (path : String) : Bool := path.toList.contains (Char.ofNat 0)

/-- The bytes of a file at a path as it is written. -/
def bytes (fs : Files) (path : String) : Outcome (List UInt8) :=
  if hasNull path then faulty (.wrongValue "embedded null byte")
  else match fs.find path with
    | .file bs => .ok bs
    | found => faulty (found.trouble?.getD .isDirectory)

/-- The text of a file, with every line end as a line feed. -/
def text (fs : Files) (path : String) : Outcome String := do
  match Text.ofBytes? (← fs.bytes path) with
  | some s => .ok (String.ofList (Text.unifyLines s.toList))
  | none => faulty .undecodable

/-- The bytes of a plain file, or nothing when the path leads to something else. -/
def plain? (fs : Files) (path : String) : Outcome (Option (List UInt8)) :=
  if hasNull path then .ok none
  else match fs.find (tidy path) with
    | .file bs => .ok (some bs)
    | .tooLong => faulty (.system "File name too long")
    | _ => .ok none

end Files

end Syndicate
