import Syndicate.Adapter
import Syndicate.Rule
import Syndicate.Text.Lowercase

/-! The adapters that a configuration sets up, by name. An entry says what kind of adapter it is,
or its name does, and may be switched off. -/

namespace Syndicate

/-- Adapters by name, in the order of the configuration. -/
abbrev Registry := List (String × Adapter)

namespace Registry

/-- Puts an adapter under a name; one of the same name gives up its place to it. -/
def put : Registry → String → Adapter → Registry
  | [], name, a => [(name, a)]
  | (n, b) :: rest, name, a => if n = name then (n, a) :: rest else (n, b) :: put rest name a

def source : String := "socials.registry"

/-- The kinds of adapter that an entry can ask for. -/
def kinds : List String := ["dummy", "telegram"]

def dummyOf (name : String) (es : Entries) : Outcome Adapter := do
  let signIn := Entries.get es "credentials"
  let credentials ← if signIn.truthy then signIn.toEntries else .ok []
  pure (.dummy {
    config := ⟨.text name, Entries.get es "account", credentials⟩
    rejectVerify := (Entries.get es "reject_verify").truthy })

/-- A failed setting of an adapter as a problem of the configuration. -/
def incomplete (name : String) (f : Failure) : Failure :=
  if f.name = "ValueError" then .error (.config (.adapterIncomplete name f.message)) else f

/-- The text of a value, empty when it counts as false. -/
def textOf (v : Value) : Outcome String := if v.truthy then v.shown else .ok ""

/-- An adapter for a channel, whose token may come from the surroundings instead. -/
def telegramOf (token : Option String) (name : String) (es : Entries) : Outcome Adapter := do
  let given := Entries.get es "bot_token"
  let botToken := if given.truthy then given else .text (token.getD "")
  let chat ← (do
    let chat ← textOf (Entries.get es "chat_id")
    Telegram.checked botToken (.text chat)).mapError (incomplete name)
  let timeout ← ((Entries.get? es "timeout").getD (.int 10)).toFloat
  pure (.telegram (← Telegram.make ⟨.text name, Entries.get es "account", []⟩ botToken
    (.text chat) ((Entries.get? es "parse_mode").getD (.text "HTML"))
    (.bool (Entries.get es "disable_notification").truthy) (.float timeout)))

/-- The adapter of an entry, by its kind. -/
def adapterOf (token : Option String) (shown kind name : String) (es : Entries) :
    Outcome Adapter :=
  match kind with
  | "dummy" => dummyOf name es
  | "telegram" => telegramOf token name es
  | _ => fail (.config (.adapterUnknown shown kind kinds))

def kindOf (name : Value) (es : Entries) : Outcome String := do
  pure (Text.lower (← ((Entries.get? es "type").getD name).shown))

/-- The line about an entry that is switched off. It is left out if the name cannot be shown. -/
def skippedLine (name : Value) : Option Record :=
  if name.isShowable then
    some ⟨source, .info, "Adapter '" ++ name.display ++ "' disabled in config; not registering."⟩
  else none

/-- What an entry comes to: the registry with its adapter in it, and a line for the log. -/
def addEntry (token : Option String) (r : Registry) (name entry : Value) :
    Outcome (Registry × Option Record) := do
  let es ← if entry.truthy then entry.entries "get" else .ok []
  if !Rule.isEnabled es then pure (r, skippedLine name)
  else
    let shown ← name.shown
    let kind ← kindOf name es
    let a ← adapterOf token shown kind shown es
    pure (r.put shown a,
      some ⟨source, .info, "Registered adapter '" ++ shown ++ "' (" ++ kind ++ ")."⟩)

/-- Adds entries one after the other, up to the first that cannot be used. -/
def addEntries (token : Option String) (r : Registry) : Entries → List Record × Outcome Registry
  | [] => ([], .ok r)
  | (name, entry) :: es =>
    match addEntry token r name entry with
    | .error f => ([], .error f)
    | .ok (r, line) =>
      let (lines, result) := addEntries token r es
      (line.toList ++ lines, result)

/-- The entries of a configuration's section for adapters; one that counts as false is empty. -/
def adapterSection (config : Value) : Outcome Entries := do
  let es ← config.entries "get"
  let adapters := Entries.get es "adapters"
  if adapters.truthy then adapters.entries "items" else pure []

/-- The registry of a configuration, and the lines that building it writes to the log. -/
def build (token : Option String) (config : Value) : List Record × Outcome Registry :=
  match adapterSection config with
  | .error f => ([], .error f)
  | .ok es => addEntries token [] es

end Registry

end Syndicate
