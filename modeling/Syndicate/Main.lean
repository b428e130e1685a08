import Std.Time.Zoned
import Syndicate.Command
import Syndicate.Journal.Line

/-! The command line. A run sees the files that its arguments and its content name, the clock and
the token of its environment. It has no way to the network, so platforms behind it cannot be
reached. -/

namespace Syndicate.Program

/-- The days before the epoch of the system's clock. -/
def epochDays : Int := 719162

/-- The local time, the first instant of all if the system's clock is out of range. -/
def now : IO Instant := do
  let t ← Std.Time.PlainDateTime.now
  let day := t.date.toEpochDay.val + epochDays
  let micros := day.toNat * dayMicros + (t.time.toNanoseconds.val / 1000).toNat
  pure ((Instant.ofMicros? micros).getD default)

/-- Adds a file to those in reach, if it can be read. -/
def addFile (fs : Files) (path : String) : IO Files := do
  try
    let bytes ← IO.FS.readBinFile path
    pure { fs with files := fs.files ++ [(Files.place path, bytes.toList)] }
  catch _ => pure fs

/-- The media of a content file that may be files themselves. -/
def mediaPaths (fs : Files) (path : String) : List String :=
  match Config.loadContent fs path with
  | .ok c => c.media.filterMap fun m => match m.2 with
    | .text s => some s
    | _ => none
  | .error _ => []

def filesFor (a : Arguments) : IO Files := do
  let mut fs : Files := {}
  for path in a.config.toList ++ a.content.toList do
    fs ← addFile fs path
  for path in a.content.toList.flatMap (mediaPaths fs) do
    fs ← addFile fs path
  pure fs

/-- The log file that a run opened, if it did. -/
def logFile? (before after : Files) : Option String :=
  (after.files.find? fun f => (before.file? f.1).isNone).map fun f => "/".intercalate f.1

def line (r : Record) : String := Line.coloured r.source r.level.name r.message

def plainLine (r : Record) : String := "[" ++ r.source ++ "] " ++ r.level.name ++ " - " ++ r.message

/-- Writes the log of a run to its file, or to the standard error output if it has none. -/
def writeLog (a : Arguments) (before : Files) (after : Session) : IO Unit := do
  let records := Record.atLeast (Command.level a) after.world.site.journal.records
  match logFile? before after.world.site.files with
  | some path =>
    IO.FS.createDirAll "logs"
    IO.FS.writeFile path ("\n".intercalate (records.map plainLine) ++ "\n")
  | none =>
    for r in records do
      IO.eprintln (line r)

def usage : String :=
  "usage: sharebot [-h] [--config CONFIG] --content CONTENT [--dry-run] [--no-verify] " ++
    "[--console] [--debug]"

/-- Runs the command with the words of its command line; gives the exit code. -/
def run (words : List String) : IO UInt32 := do
  match Arguments.parse words with
  | .error stop =>
    if stop = .help then IO.println usage else IO.eprintln usage
    pure (UInt32.ofNat stop.code)
  | .ok a =>
    let files ← filesFor a
    let after := Command.run a
      { now := ← now, files := files, readers := .own,
        token := ← IO.getEnv "SHAREBOT_TELEGRAM_TOKEN" }
    IO.eprint after.complaint
    writeLog a files after.session
    match after.outcome with
    | .ok code => pure (UInt32.ofNat code)
    | .error f =>
      IO.eprintln (f.name ++ ": " ++ f.message)
      pure 1

end Syndicate.Program

def main (words : List String) : IO UInt32 := Syndicate.Program.run words
