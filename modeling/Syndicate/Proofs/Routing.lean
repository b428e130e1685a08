import Syndicate.Proofs.Content.Desk
import Syndicate.Routing

/-! Evaluating an item as one walk: over the rules in order, and over the destinations of each rule
that matches in order. The first step that fails ends the walk, and what the steps before it report
is reported. -/

namespace Syndicate

namespace Traced

variable {α β : Type}

theorem ofOutcome_ok_bind (a : α) (f : α → Traced β) : (ofOutcome (.ok a) >>= f) = f a := rfl

/-- One row after another. -/
def both (x y : Traced (List α)) : Traced (List α) := do
  let as ← x
  let bs ← y
  pure (as ++ bs)

theorem both_ok (es : List Event) (as : List α) (y : Traced (List α)) :
    both ⟨es, .ok as⟩ y = ⟨es ++ y.events, y.outcome.map (as ++ ·)⟩ := by
  obtain ⟨fs, o⟩ := y
  cases o with
  | error f => rfl
  | ok bs =>
    show (⟨es ++ (fs ++ []), .ok (as ++ bs)⟩ : Traced (List α)) = _
    rw [List.append_nil]
    rfl

theorem nil_both (x : Traced (List α)) : both ⟨[], .ok []⟩ x = x := by
  obtain ⟨es, o⟩ := x
  rw [both_ok]
  cases o <;> rfl

end Traced

namespace Routing

open Traced

/-- What a walk over rules meets. -/
inductive Step where
  /-- A destination whose adapter is not known. -/
  | missing (e : Event)
  | yields (t : Task)
  | fails (f : Failure)

namespace Step

def event? : Step → Option Event
  | .missing e => some e
  | _ => none

def task? : Step → Option Task
  | .yields t => some t
  | _ => none

def failure? : Step → Option Failure
  | .fails f => some f
  | _ => none

end Step

/-- What comes of a walk: what is reported before the first step that fails, and its failure, or
the tasks if none fails. -/
def walked (steps : List Step) : Traced (List Task) where
  events := (steps.takeWhile fun x => x.failure?.isNone).filterMap Step.event?
  outcome := match steps.findSome? Step.failure? with
    | some f => .error f
    | none => .ok (steps.filterMap Step.task?)

section

variable (known : String → Bool) (now : Instant) (c : Content)

/-- The step to a destination of a rule, whose delay is read only if its adapter is known. -/
def stepTo (rule : Value) (d : Destination) : Step :=
  if known d.adapter then
    match Delay.parse now d.delay with
    | .error f => .fails f
    | .ok delay => .yields {
        adapter := d.adapter
        content := if d.channel.truthy then c.setOption "channel" d.channel else c
        delay := delay
        rule := rule
        channel := d.channel }
  else .missing (.adapterMissing d.adapter rule)

/-- The steps of a rule, which fails if it cannot be read or matched. -/
def stepsOf (e : RuleEntry) : List Step :=
  match e.rule? with
  | .error f => [.fails f]
  | .ok r => match r.conditions.accept (.item c) with
    | .error f => [.fails f]
    | .ok false => []
    | .ok true => r.publish.map (stepTo known now c (Value.ofOption r.name))

/-- What evaluating an item comes to. The item is read and checked before the rules are asked for;
an accepted one is taken on a walk over them. -/
def evaluation (validator : Validator) (s : Source) (rules : Outcome (List RuleEntry)) :
    Traced (List Task) :=
  match s.content with
  | .error f => ⟨[], .error f⟩
  | .ok c => match validator c with
    | .error f => ⟨[], .error f⟩
    | .ok verdict =>
      if verdict.valid then
        match rules with
        | .error f => ⟨[], .error f⟩
        | .ok es => walked (es.flatMap (stepsOf known now c))
      else ⟨[], .error (.error (.contentRejected verdict.errors))⟩

end

/-! ### Rows of steps -/

theorem walked_missing (e : Event) (xs : List Step) :
    walked (.missing e :: xs) = ⟨e :: (walked xs).events, (walked xs).outcome⟩ := rfl

theorem walked_yields (t : Task) (xs : List Step) :
    walked (.yields t :: xs) = ⟨(walked xs).events, (walked xs).outcome.map (t :: ·)⟩ := by
  have houtcome : (walked (.yields t :: xs)).outcome = (walked xs).outcome.map (t :: ·) := by
    show (match xs.findSome? Step.failure? with
      | some f => .error f
      | none => .ok (t :: xs.filterMap Step.task?)) = Except.map (t :: ·) (walked xs).outcome
    rw [walked]
    cases xs.findSome? Step.failure? <;> rfl
  rw [← houtcome]
  rfl

/-- A walk goes on from where another one has ended without failing. -/
theorem walked_append (xs ys : List Step) :
    walked (xs ++ ys) = both (walked xs) (walked ys) := by
  induction xs with
  | nil => exact (nil_both (walked ys)).symm
  | cons x xs ih =>
    rw [List.cons_append]
    cases x with
    | missing e =>
      rw [walked_missing, ih, walked_missing]
      obtain ⟨es, o⟩ := walked xs
      cases o with
      | error f => rfl
      | ok ts => rw [both_ok, both_ok]; rfl
    | yields t =>
      rw [walked_yields, ih, walked_yields]
      obtain ⟨es, o⟩ := walked xs
      -- A failure further on takes the tasks before it with it, but not their events.
      cases o with
      | error f => rfl
      | ok ts =>
        show _ = both ⟨es, .ok (t :: ts)⟩ (walked ys)
        rw [both_ok, both_ok]
        cases (walked ys).outcome <;> rfl
    | fails f => rfl

/-- Assignments as the tasks for an item. -/
def tasked (c : Content) (x : Traced (List Assignment)) : Traced (List Task) := do
  let as ← x
  pure (as.map (Assignment.task c))

theorem tasked_eq (c : Content) (x : Traced (List Assignment)) :
    tasked c x = ⟨x.events, x.outcome.map fun as => as.map (Assignment.task c)⟩ := by
  obtain ⟨es, o⟩ := x
  cases o with
  | error f => rfl
  | ok as =>
    show (⟨es ++ [], .ok (as.map (Assignment.task c))⟩ : Traced (List Task)) = _
    rw [List.append_nil]
    rfl

theorem tasked_both (c : Content) (x y : Traced (List Assignment)) :
    tasked c (both x y) = both (tasked c x) (tasked c y) := by
  obtain ⟨es, o⟩ := x
  cases o with
  | error f => rfl
  | ok as =>
    obtain ⟨fs, o'⟩ := y
    rw [tasked_eq, tasked_eq, tasked_eq, both_ok]
    cases o' <;> simp [both_ok, Except.map]

/-! ### Rules and destinations -/

variable (known : String → Bool) (now : Instant) (c : Content)

theorem tasked_assign (rule : Value) (d : Destination) :
    tasked c (assign known now rule d) = walked [stepTo known now c rule d] := by
  unfold assign stepTo
  split
  · cases Delay.parse now d.delay <;> rfl
  · rfl

theorem tasked_assignEach (rule : Value) (ds : List Destination) :
    tasked c (assignEach known now rule ds) = walked (ds.map (stepTo known now c rule)) := by
  induction ds with
  | nil => rfl
  | cons d ds ih =>
    have hcons : assignEach known now rule (d :: ds) =
        both (assign known now rule d) (assignEach known now rule ds) := rfl
    rw [hcons, tasked_both, tasked_assign, ih, ← walked_append]
    rfl

theorem tasked_assignRule (e : RuleEntry) :
    tasked c (assignRule known now c e) = walked (stepsOf known now c e) := by
  unfold assignRule stepsOf
  cases e.rule? with
  | error f => rfl
  | ok r =>
    rw [ofOutcome_ok_bind]
    dsimp only
    cases r.conditions.accept (.item c) with
    | error f => rfl
    | ok met =>
      rw [ofOutcome_ok_bind]
      cases met with
      | false => rfl
      | true => exact tasked_assignEach known now c (Value.ofOption r.name) r.publish

theorem tasked_assignRules (es : List RuleEntry) :
    tasked c (assignRules known now c es) = walked (es.flatMap (stepsOf known now c)) := by
  induction es with
  | nil => rfl
  | cons e es ih =>
    have hcons : assignRules known now c (e :: es) =
        both (assignRule known now c e) (assignRules known now c es) := rfl
    rw [hcons, tasked_both, tasked_assignRule, ih, List.flatMap_cons, walked_append]

variable {known now c} {validator : Validator} {s : Source}

theorem tasks_refused {f : Failure} (h : accepted validator s = .error f)
    (rules : Outcome (List RuleEntry)) :
    tasks known now validator s rules = ⟨[], .error f⟩ := by
  unfold tasks assignments
  rw [h]
  rfl

theorem tasks_accepted (h : accepted validator s = .ok c) (rules : Outcome (List RuleEntry)) :
    tasks known now validator s rules = match rules with
      | .error f => ⟨[], .error f⟩
      | .ok es => tasked c (assignRules known now c es) := by
  unfold tasks assignments
  rw [h, ofOutcome_ok_bind]
  cases rules with
  | error f => rfl
  | ok es =>
    rw [ofOutcome_ok_bind]
    exact bind_assoc _ _ _

/-- The rules are walked for an accepted item only. -/
theorem evaluation_eq (known : String → Bool) (now : Instant) (validator : Validator)
    (s : Source) (rules : Outcome (List RuleEntry)) :
    evaluation known now validator s rules = match accepted validator s with
      | .error f => ⟨[], .error f⟩
      | .ok c => match rules with
        | .error f => ⟨[], .error f⟩
        | .ok es => walked (es.flatMap (stepsOf known now c)) := by
  unfold evaluation accepted
  cases s.content with
  | error f => rfl
  | ok c =>
    simp only [Bind.bind, Except.bind]
    cases validator c with
    | error f => rfl
    | ok verdict =>
      dsimp only
      cases verdict.valid <;> rfl

theorem tasks_eq_evaluation (known : String → Bool) (now : Instant) (validator : Validator)
    (s : Source) (rules : Outcome (List RuleEntry)) :
    tasks known now validator s rules = evaluation known now validator s rules := by
  rw [evaluation_eq]
  cases h : accepted validator s with
  | error f => exact tasks_refused h rules
  | ok c =>
    rw [tasks_accepted h]
    cases rules with
    | error f => rfl
    | ok es => exact tasked_assignRules known now c es

/-! ### Contents in cells

The item and the contents of its tasks lie in one store. What is bound in the options of a task's
content is bound in a cell behind all those of the item and of the tasks before. -/

open Store

/-- A desk holds some items, and slots hold some values in its store. -/
structure Lays (d : Desk × List Slot) (cs : List Content) (vs : List Value) : Prop where
  items : List.Forall₂ (DeskItem.Shows d.1.store d.1.store.length) d.1.items cs
  slots : List.Forall₂ (d.1.store.Reads d.1.store.length) d.2 vs

/-- An item in new cells, with one of its options bound to what is in the cells before if that is
truthy. -/
theorem load_bound (c : Content) (key : String) {s : Store} {slot : Slot} {v : Value}
    (h : s.Reads s.length slot v) :
    let item := (DeskItem.load s c).1
    let s' := if v.truthy then (DeskItem.load s c).2.bind item.options (.text key) slot
      else (DeskItem.load s c).2
    item.Shows s' s'.length (if v.truthy then c.setOption key v else c) ∧
      SameBelow s.length s s' ∧ s.length ≤ s'.length := by
  obtain ⟨hshows, hload, n, hoptions, hn, hend⟩ := DeskItem.load_shows s c
  have hlength : s.length ≤ (DeskItem.load s c).2.length := Nat.le_trans hn hend
  cases hv : v.truthy with
  | false => exact ⟨hshows, hload, hlength⟩
  | true =>
    have hbind := sameBelow_bind (DeskItem.load s c).2 n (.text key) slot
    rw [← hoptions] at hbind
    simp only [↓reduceIte, length_bind]
    exact ⟨hshows.bind hoptions (h.of_below hload hn) key, hload.trans (hbind.mono hn), hlength⟩

/-- The content of a task is put in new cells, behind those of the channel of the task. -/
theorem addTask_new (c : Content) (d : Desk) (slots : List Slot) (a : Assignment) :
    ∃ item slot s, addTask c (d, slots) a = (⟨s, d.items ++ [item]⟩, slots ++ [slot]) ∧
      SameBelow d.store.length d.store s ∧ d.store.length ≤ s.length ∧
      item.Shows s s.length (a.contentOf c) ∧ s.Reads s.length slot a.channel := by
  have hchannel := add_reads d.store a.channel
  have hlength := length_le_add d.store a.channel
  obtain ⟨hshows, hload, hend⟩ := load_bound c "channel" hchannel
  exact ⟨_, _, _, rfl, (sameBelow_add d.store a.channel).trans (hload.mono hlength),
    Nat.le_trans hlength hend, hshows, hchannel.of_below hload hend⟩

theorem Lays.addTask {c : Content} {d : Desk × List Slot} {cs : List Content} {vs : List Value}
    (h : Lays d cs vs) (a : Assignment) :
    Lays (Routing.addTask c d a) (cs ++ [a.contentOf c]) (vs ++ [a.channel]) := by
  obtain ⟨d, slots⟩ := d
  obtain ⟨item, slot, s, hnew, hsame, hlength, hshows, hreads⟩ := addTask_new c d slots a
  rw [hnew]
  have hitems := h.items.imp fun _ _ hitem => hitem.of_below hsame hlength
  have hslots := h.slots.imp fun _ _ hslot => hslot.of_below hsame hlength
  exact ⟨List.rel_append hitems (.cons hshows .nil), List.rel_append hslots (.cons hreads .nil)⟩

theorem Lays.addTasks {c : Content} {d : Desk × List Slot} {cs : List Content} {vs : List Value}
    (h : Lays d cs vs) (as : List Assignment) : Lays (as.foldl (Routing.addTask c) d)
      (cs ++ as.map fun a => a.contentOf c) (vs ++ as.map Assignment.channel) := by
  induction as generalizing d cs vs with
  | nil => simpa using h
  | cons a as ih => simpa using ih (h.addTask a)

theorem desk_lays (c : Content) (as : List Assignment) :
    Lays (desk c as) (c :: as.map fun a => a.contentOf c) (as.map Assignment.channel) := by
  obtain ⟨hshows, -⟩ := DeskItem.load_shows [] c
  have hfirst : Lays (Desk.ofItem c, []) [c] [] := ⟨.cons hshows .nil, .nil⟩
  exact hfirst.addTasks as

/-- Evaluating an item is a walk over its rules. It leaves the item as it is, and gives every task a
content and a channel of its own. -/
theorem tasks_evaluate (known : String → Bool) (now : Instant) (validator : Validator)
    (s : Source) (rules : Outcome (List RuleEntry)) :
    tasks known now validator s rules = evaluation known now validator s rules ∧
    ∀ c as, (desk c as).1.view = .ok (c :: (as.map (Assignment.task c)).map Task.content) ∧
      (desk c as).2.map (desk c as).1.store.read = (as.map (Assignment.task c)).map Task.channel := by
  refine ⟨tasks_eq_evaluation known now validator s rules, fun c as => ?_⟩
  have hlays := desk_lays c as
  rw [List.map_map, List.map_map]
  exact ⟨Desk.viewEach_shows hlays.items, map_read hlays.slots⟩

end Routing

end Syndicate
