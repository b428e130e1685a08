import Syndicate.Content
import Syndicate.Files
import Syndicate.Journal
import Syndicate.Network

/-! What all adapters have in common: how they are set up, what they can do, what they answer,
and what they act on. An adapter without an operation of its own refuses it, as unsupported when
it does not declare the capability and as missing when it does. -/

namespace Syndicate

/-- A post or a reply on a platform. Its link and the platform's own answer may be null. -/
structure PostRef where
  platform : Value
  id : Value
  url : Value := .null
  raw : Value := .null

/-- A comment or a reaction to a post. -/
structure Feedback where
  id : String := ""
  author : String := "Unknown"
  authorId : Value := .null
  authorAvatar : Value := .null
  text : String := ""
  type : String := "comment"
  network : Value := .text "unknown"

/-- The feedback that is replied to, and the network and account it belongs to. -/
structure FeedbackTarget where
  id : Value
  network : Value := .text "unknown"
  account : Value := .null
  postId : Value := .null

inductive Target where
  | feedback (t : FeedbackTarget)
  | other (v : Value)

/-- A target with the fields of a mapping: it must have an id and no field of another name. -/
def FeedbackTarget.ofEntries (es : Entries) : Outcome FeedbackTarget :=
  let known := ["id", "network", "account", "post_id"].map Value.text
  match Entries.get? es "id" with
  | none => faulty .wrongType
  | some id =>
    if es.all fun e => known.any fun k => k.same e.1 then
      .ok {
        id := id
        network := (Entries.get? es "network").getD (.text "unknown")
        account := Entries.get es "account"
        postId := Entries.get es "post_id" }
    else faulty .wrongType

def Target.ofValue : Value → Outcome Target
  | .map es => do pure (.feedback (← FeedbackTarget.ofEntries es))
  | v => .ok (.other v)

/-- The id that a reply goes to, a text being an id itself. -/
def Target.id : Target → Outcome Value
  | .feedback t => .ok t.id
  | .other (.text s) => .ok (.text s)
  | .other v => faulty (.noMember v.kindName "id")

/-- How an adapter is set up: an id of its own in place of the usual one, an account, and what it
signs in with. -/
structure AdapterConfig where
  id : Value := .null
  account : Value := .null
  credentials : Entries := []

/-- The words for what adapters can do, in alphabetical order. -/
def capabilityWords : List String :=
  ["audio", "delete", "document", "edit", "media", "photo", "reply", "threads", "video"]

/-- The longest text when nothing else is said. -/
def unlimited : Value := .float (.infinite false)

/-- Refuses a text that is longer than a limit; what counts as false is no text. -/
def checkLength (limit text : Value) : Outcome Unit := do
  if text.truthy then
    let n ← text.length
    if ← limit.exceededBy n then failShowing limit (.tooLong limit (.int n))

/-- What adapters act on besides themselves. -/
structure Site where
  network : Network := {}
  files : Files := {}
  journal : Journal := {}

/-- An action on a state, which keeps what it has done when it fails. -/
abbrev Act (σ α : Type) := EStateM Failure σ α

namespace Act

variable {σ τ α : Type}

def ofOutcome : Outcome α → Act σ α
  | .ok a => pure a
  | .error f => throw f

/-- Runs an action: what it came to and the state it leaves. -/
def outcome (x : Act σ α) (s : σ) : Outcome α × σ :=
  match x.run s with
  | .ok a s => (.ok a, s)
  | .error f s => (.error f, s)

/-- An action on a part of a state. -/
def within (get : τ → σ) (set : τ → σ → τ) (x : Act σ α) : Act τ α := fun t =>
  match x.run (get t) with
  | .ok a s => .ok a (set t s)
  | .error f s => .error f (set t s)

end Act

/-- Writes a line to the log. -/
def Site.log (source : String) (level : Level) (message : String) : Act Site Unit :=
  modify fun s => { s with journal := s.journal.write ⟨source, level, message⟩ }

/-- The lines that the library for requests writes of one, for debugging. -/
def Request.remarks (lines : Request → Reply → List String) (r : Request) (reply : Reply) :
    List Record :=
  (lines r reply).map fun message => ⟨"urllib3.connectionpool", .debug, message⟩

/-- Sends a request and takes the reply. -/
def Site.send (r : Request) : Act Site Reply := fun s =>
  let (reply, network) := s.network.post r
  .ok reply { s with
    network := network
    journal := s.journal.writeAll (r.remarks s.network.lines reply) }

/-- What stands for an operation that an adapter declares or not but does not have. -/
def missingOperation (adapter : String) (declared : Bool) (capability operation : String) :
    Failure :=
  .error (if declared then .notImplemented (.text adapter) (.text operation)
    else .unsupported (.text adapter) (.text capability))

end Syndicate
