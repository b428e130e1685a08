import Syndicate.Adapter.Basic

/-! An adapter for rehearsals: it takes its time over a post, fails on the texts it is told to
fail on, and keeps what was published when, how many posts were under way at once, and how often
it was asked to verify. -/

namespace Syndicate

/-- How a rehearsed verification ends. -/
inductive Verification where
  | answer (v : Value)
  | raises (f : Failure)

/-- A published post: the clock, its text and the channel in its options. -/
structure Publication where
  clock : Nat
  text : Value
  channel : Value

structure Recorder where
  id : Value
  verification : Verification := .answer (.bool true)
  /-- How long a post takes, in milliseconds. -/
  duration : Nat := 0
  failOn : List Value := []
  linked : Bool := true
  verifyCalls : Nat := 0
  published : List Publication := []
  active : Nat := 0
  peak : Nat := 0

namespace Recorder

def name : String := "RecordingAdapter"

def verify : Act Recorder Value := fun r =>
  let r := { r with verifyCalls := r.verifyCalls + 1 }
  match r.verification with
  | .answer v => .ok v r
  | .raises f => .error f r

/-- A post begins. -/
def enter (r : Recorder) : Recorder :=
  { r with active := r.active + 1, peak := max r.peak (r.active + 1) }

def refOf (r : Recorder) (n : Nat) : Outcome PostRef := do
  let id := (← r.id.shown) ++ "-" ++ toString n
  let url : Value := if r.linked then .text ("http://" ++ id) else .null
  pure { platform := r.id, id := .text id, url := url }

/-- A post ends, at a time of the clock. -/
def leave (clock : Nat) (c : Content) : Act Recorder PostRef := do
  modify fun r => { r with active := r.active - 1 }
  let r ← get
  if r.failOn.any c.text.alike then
    throw (.error (.publish (.stated [.text ("boom: " ++ (← Act.ofOutcome c.text.shown))])))
  else
    let published := r.published ++ [⟨clock, c.text, c.option "channel"⟩]
    set { r with published := published }
    Act.ofOutcome (r.refOf published.length)

end Recorder

end Syndicate
