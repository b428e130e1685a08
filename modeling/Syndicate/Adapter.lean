import Syndicate.Adapter.Bare
import Syndicate.Adapter.Dummy
import Syndicate.Adapter.Recorder
import Syndicate.Adapter.Telegram

/-! Adapters of every kind behind one set of operations. Each operation acts on the adapter and on
its surroundings. -/

namespace Syndicate

inductive Adapter where
  | dummy (d : Dummy)
  | telegram (t : Telegram)
  | bare (b : Bare)
  | recorder (r : Recorder)

namespace Adapter

def id : Adapter → Outcome Value
  | .dummy d => .ok d.id
  | .telegram t => .ok t.id
  | .bare b => b.id
  | .recorder r => .ok r.id

/-- The name of an adapter's kind. -/
def kindName : Adapter → String
  | .dummy _ => "DummyAdapter"
  | .telegram _ => "TelegramAdapter"
  | .bare _ => Bare.name
  | .recorder _ => Recorder.name

def capabilities : Adapter → Outcome (List Value)
  | .dummy _ => .ok (Dummy.capabilities.map .text)
  | .telegram _ => .ok (Telegram.capabilities.map .text)
  | .bare b => b.capabilities
  | .recorder _ => .ok []

def maxLength : Adapter → Value
  | .dummy _ => Dummy.maxLength
  | .telegram _ => Telegram.maxLength
  | .bare b => b.maxLength
  | .recorder _ => unlimited

/-- Whether an adapter declares a capability. -/
def can (a : Adapter) (capability : Value) : Outcome Bool := do
  let declared ← a.capabilities
  if capability.isScalar then pure (declared.any capability.alike) else faulty .wrongType

/-- Refuses a text that is longer than a limit, the adapter's own when none is given. -/
def check (a : Adapter) (text limit : Value) : Outcome Unit :=
  checkLength (if limit.isNull then a.maxLength else limit) text

/-- How long an adapter sleeps over a post, if it sleeps at all. -/
def rest? : Adapter → Option Nat
  | .recorder r => some r.duration
  | _ => none

/-- What happens when a post begins. -/
def enter : Adapter → Adapter
  | .recorder r => .recorder r.enter
  | a => a

end Adapter

/-- An adapter in its surroundings. -/
structure Station where
  adapter : Adapter
  site : Site

namespace Station

variable {α : Type}

def onDummy (d : Dummy) (x : Act Dummy α) : Act Station α := fun s =>
  match x.run d with
  | .ok a d => .ok a { s with adapter := .dummy d }
  | .error f d => .error f { s with adapter := .dummy d }

def onRecorder (r : Recorder) (x : Act Recorder α) : Act Station α := fun s =>
  match x.run r with
  | .ok a r => .ok a { s with adapter := .recorder r }
  | .error f r => .error f { s with adapter := .recorder r }

def onSite (x : Act Site α) : Act Station α :=
  x.within Station.site fun s site => { s with site := site }

/-- The failure of an operation that an adapter does not have. -/
def refuse {α : Type} (a : Adapter) (capability operation : String) : Act Station α := do
  let declared ← Act.ofOutcome (a.can (.text capability))
  throw (missingOperation a.kindName declared capability operation)

def missing (a : Adapter) (member : String) : Failure :=
  .error (.notImplemented (.text a.kindName) (.text member))

def verify : Act Station Value := do
  match (← get).adapter with
  | .dummy d => Act.ofOutcome d.verify
  | .telegram t => onSite t.verify
  | .recorder r => onRecorder r Recorder.verify
  | a => throw (missing a "verify")

/-- Ends a post at a time of the clock; for most adapters this is the whole of it. -/
def publish (clock : Nat) (c : Content) : Act Station PostRef := do
  match (← get).adapter with
  | .dummy d =>
    let ref ← onDummy d (Dummy.publish c)
    onSite (Site.log "socials.dummy" .debug ("DummyAdapter stored " ++ ref.id.display))
    pure ref
  | .telegram t => onSite (t.publish c)
  | .recorder r => onRecorder r (Recorder.leave clock c)
  | a => throw (missing a "publish")

def update (postId : Value) (c : Content) : Act Station PostRef := do
  match (← get).adapter with
  | .dummy d => onDummy d (Dummy.update postId c)
  | .telegram t => onSite (t.update postId c)
  | a => refuse a "edit" "update"

def delete (postId : Value) : Act Station Value := do
  match (← get).adapter with
  | .dummy d => onDummy d (Dummy.delete postId)
  | .telegram t => onSite (t.delete postId)
  | a => refuse a "delete" "delete"

/-- The feedback to a post; one platform lists none. -/
def feedback (postId : Value) : Act Station (List Feedback) := do
  match (← get).adapter with
  | .dummy d => Act.ofOutcome (d.feedback postId)
  | .telegram _ => pure []
  | a => throw (missing a "sync_feedback")

def reply (target : Target) (text : Value) : Act Station PostRef := do
  match (← get).adapter with
  | .dummy d => onDummy d (Dummy.reply target text)
  | .telegram t => onSite (t.reply target text)
  | a => refuse a "reply" "reply"

end Station

end Syndicate
