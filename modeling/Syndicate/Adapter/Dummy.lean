import Syndicate.Adapter.Basic

/-! The adapter that keeps its posts and comments in memory. One counter numbers both. -/

namespace Syndicate

structure Post where
  content : Content
  updated : Bool := false

structure Comment where
  text : Value
  replyTo : Value
  author : Value

structure Dummy where
  config : AdapterConfig := {}
  rejectVerify : Bool := false
  posts : List (Value × Post) := []
  comments : List (Value × Comment) := []
  next : Nat := 1

namespace Dummy

def id (d : Dummy) : Value := if d.config.id.truthy then d.config.id else .text "dummy"

def capabilities : List String := ["delete", "document", "edit", "media", "photo", "reply"]

def maxLength : Value := .int 280

def url (postId : Value) : Value :=
  .text ("https://dummy.sharebot.app/posts/" ++ postId.display)

def postId (d : Dummy) (n : Nat) : Value := .text (d.id.display ++ "-post-" ++ toString n)

def replyId (n : Nat) : Value := .text ("r-" ++ toString n)

/-- The post under an id, which must be a scalar. -/
def post? (d : Dummy) (id : Value) : Outcome (Option Post) :=
  if id.isScalar then .ok ((d.posts.find? fun p => p.1.alike id).map (·.2)) else faulty .wrongType

def erase (d : Dummy) (id : Value) : Dummy :=
  { d with posts := d.posts.filter fun p => !p.1.alike id }

def verify (d : Dummy) : Outcome Value :=
  if d.rejectVerify then failShowing d.id (.unverified d.id (.text "fake rejection triggered"))
  else .ok (.bool true)

/-- Takes the next number. -/
def takeNumber : Act Dummy Nat := fun d => .ok d.next { d with next := d.next + 1 }

def publish (c : Content) : Act Dummy PostRef := do
  Act.ofOutcome (checkLength maxLength c.text)
  let d ← get
  let _ ← Act.ofOutcome d.id.shown
  let n ← takeNumber
  let d ← get
  let id := d.postId n
  set { d with posts := Entries.put d.posts id ⟨c, false⟩ }
  pure { platform := d.id, id := id, url := url id }

def update (postId : Value) (c : Content) : Act Dummy PostRef := do
  Act.ofOutcome (checkLength maxLength c.text)
  let d ← get
  match ← Act.ofOutcome (d.post? postId) with
  | none => Act.ofOutcome (failShowing postId (.publish (.postMissing postId)))
  | some _ =>
    set { d with posts := Entries.put d.posts postId ⟨c, true⟩ }
    pure { platform := d.id, id := postId, url := url postId }

/-- Deletes a post. Where there are no posts at all, none has the id, whatever that is. -/
def delete (postId : Value) : Act Dummy Value := do
  let d ← get
  match ← Act.ofOutcome (if d.posts.isEmpty then .ok none else d.post? postId) with
  | none => Act.ofOutcome (failShowing postId (.publish (.postMissing postId)))
  | some _ =>
    set (d.erase postId)
    pure (.bool true)

/-- Two comments under every post. -/
def feedbackOn (d : Dummy) (postId : Value) : List Feedback :=
  [{ id := "c-1-" ++ postId.display, author := "Alice", text := "Great post!", network := d.id },
   { id := "c-2-" ++ postId.display, author := "Bob", text := "Where is the code?",
     network := d.id }]

def feedback (d : Dummy) (postId : Value) : Outcome (List Feedback) := do
  match ← d.post? postId with
  | none => failShowing postId (.publish (.feedbackMissing postId))
  | some _ => pure (d.feedbackOn postId)

def author (d : Dummy) : Value :=
  if d.config.account.truthy then d.config.account else .text "Publisher (Me)"

/-- Replies to a target. The number is taken before the target is looked at. -/
def reply (t : Target) (text : Value) : Act Dummy PostRef := do
  let n ← takeNumber
  let target ← Act.ofOutcome t.id
  let d ← get
  set { d with comments := Entries.put d.comments (replyId n) ⟨text, target, d.author⟩ }
  pure { platform := d.id, id := replyId n }

end Dummy

end Syndicate
