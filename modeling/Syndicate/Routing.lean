import Syndicate.Content.Desk
import Syndicate.Content.Validation
import Syndicate.Rule
import Syndicate.Traced

/-! From an item and rules to tasks. Rules are walked in order, and the destinations of each rule
that matches in order; a destination whose adapter is not known is reported and left out. -/

namespace Syndicate

/-- A rule, or a value that is read as one when its turn comes. -/
inductive RuleEntry where
  | rule (r : Rule)
  | raw (v : Value)

def RuleEntry.rule? : RuleEntry → Outcome Rule
  | .rule r => .ok r
  | .raw v => Rule.ofValue v

/-- Where an item goes and when: a task without its content. -/
structure Assignment where
  adapter : String
  delay : Nat
  rule : Value
  channel : Value

/-- An item to publish through an adapter after a delay in milliseconds. -/
structure Task where
  adapter : String
  content : Content
  delay : Int
  rule : Value := .null
  channel : Value := .null

def Task.isImmediate (t : Task) : Bool := t.delay = 0

/-- The content of a task: the item, with the destination's channel over its own if there is
one. -/
def Assignment.contentOf (a : Assignment) (c : Content) : Content :=
  if a.channel.truthy then c.setOption "channel" a.channel else c

def Assignment.task (c : Content) (a : Assignment) : Task :=
  ⟨a.adapter, a.contentOf c, a.delay, a.rule, a.channel⟩

namespace Routing

variable (known : String → Bool) (now : Instant)

/-- The assignment of a destination, if its adapter is known. -/
def assign (rule : Value) (d : Destination) : Traced (List Assignment) :=
  if known d.adapter then do
    let delay ← Traced.ofOutcome (Delay.parse now d.delay)
    pure [⟨d.adapter, delay, rule, d.channel⟩]
  else do
    Traced.report (.adapterMissing d.adapter rule)
    pure []

def assignEach (rule : Value) : List Destination → Traced (List Assignment)
  | [] => pure []
  | d :: ds => do
    let first ← assign known now rule d
    let rest ← assignEach rule ds
    pure (first ++ rest)

/-- The assignments of a rule, none if it does not match. -/
def assignRule (c : Content) (e : RuleEntry) : Traced (List Assignment) := do
  let r ← Traced.ofOutcome e.rule?
  if ← Traced.ofOutcome (r.conditions.accept (.item c)) then
    assignEach known now (Value.ofOption r.name) r.publish
  else pure []

def assignRules (c : Content) : List RuleEntry → Traced (List Assignment)
  | [] => pure []
  | e :: es => do
    let first ← assignRule known now c e
    let rest ← assignRules c es
    pure (first ++ rest)

/-- The item, if the validator accepts it. -/
def accepted (validator : Validator) (s : Source) : Outcome Content := do
  let c ← s.content
  let verdict ← validator c
  if verdict.valid then pure c else fail (.contentRejected verdict.errors)

/-- The item with its assignments. The rules are asked for once the item is accepted. -/
def assignments (validator : Validator) (s : Source) (rules : Outcome (List RuleEntry)) :
    Traced (Content × List Assignment) := do
  let c ← Traced.ofOutcome (accepted validator s)
  let es ← Traced.ofOutcome rules
  let as ← assignRules known now c es
  pure (c, as)

/-- The tasks for an item. -/
def tasks (validator : Validator) (s : Source) (rules : Outcome (List RuleEntry)) :
    Traced (List Task) := do
  let (c, as) ← assignments known now validator s rules
  pure (as.map (Assignment.task c))

/-- The line that ends an evaluation in the log. It is left out if the tags cannot be shown. -/
def evaluated (count : Nat) (c : Content) : Option Record :=
  let tags := Value.list c.tags
  if tags.isShowable then
    some ⟨"core.rules_engine", .debug,
      "Evaluated " ++ toString count ++ " task(s) for content tags=" ++ tags.display⟩
  else none

/-- Adds a task's content to a desk: the item in cells of its own, and the channel among its
options if the task has one. The channel that the task is known by is the same one. -/
def addTask (c : Content) (d : Desk × List Slot) (a : Assignment) : Desk × List Slot :=
  let (channel, s) := d.1.store.add a.channel
  let (item, s) := DeskItem.load s c
  let s := if a.channel.truthy then s.bind item.options (.text "channel") channel else s
  (d.1.push (item, s), d.2 ++ [channel])

/-- The desk with an item and, behind it, the contents of its tasks; and the channels of the
tasks. -/
def desk (c : Content) (as : List Assignment) : Desk × List Slot :=
  as.foldl (addTask c) (Desk.ofItem c, [])

/-- Marks the content of a task, which is named by its place among the tasks. -/
def markTask (d : Desk) (i : Value) : Outcome Desk := do
  let n ← Store.indexIn (d.items.length - 1) i
  d.markItem (.int (n + 1))

end Routing

end Syndicate
