import Syndicate.Registry
import Syndicate.Routing
import Syndicate.Scheduler

/-! Publishing tasks. Tasks without delay are published at once and in order, the others are given
to a scheduler. If asked to, every adapter is verified first, and the tasks of those that fail are
dropped. The first failing post ends the batch: deferred posts that have not fired are called
off. -/

namespace Syndicate

/-- What a published task came to. -/
structure Publishing where
  id : Value
  url : Value
  rule : Value
  adapterId : Value

/-- Where the post of a task has got to. -/
inductive Stage where
  | begun
  | ended (result : Outcome PostRef)

/-- A task whose post has got to a stage. -/
structure Posting where
  task : Task
  stage : Stage

/-- The adapters by name, which tells them apart, and their surroundings; and the posts of tasks,
as they began and ended, the oldest first. -/
structure World where
  adapters : Registry := []
  site : Site := {}
  posts : List Posting := []
  /-- How long a post takes besides what its adapter sleeps, by how many beginnings and ends of
  posts there are once it has begun. -/
  pace : Nat → Nat := fun _ => 0

namespace World

variable {α : Type}

def emit (w : World) (e : Event) : World :=
  { w with site.journal := w.site.journal.emit e }

def write (w : World) (r : Record) : World :=
  { w with site.journal := w.site.journal.write r }

/-- The adapter under a name. A name that is not there fails as a missing key. -/
def adapter (w : World) (name : String) : Outcome Adapter :=
  match w.adapters.lookup name with
  | some a => .ok a
  | none => faulty (.missingKey [.text name])

def adapterId (w : World) (name : String) : Outcome Value := do (← w.adapter name).id

/-- Runs an operation of the adapter under a name. -/
def at_ (name : String) (x : Act Station α) : Act World α := fun w =>
  match w.adapter name with
  | .error f => .error f w
  | .ok a =>
    let put (s : Station) : World :=
      { w with adapters := w.adapters.put name s.adapter, site := s.site }
    match x.run ⟨a, w.site⟩ with
    | .ok r s => .ok r (put s)
    | .error f s => .error f (put s)

/-- A post through the adapter under a name begins. -/
def enter (w : World) (name : String) : World :=
  match w.adapter name with
  | .error _ => w
  | .ok a => { w with adapters := w.adapters.put name a.enter }

/-- How long the adapter under a name sleeps over a post, if it sleeps at all. -/
def rest? (w : World) (name : String) : Option Nat :=
  match w.adapter name with
  | .error _ => none
  | .ok a => a.rest?

/-- How long a post that has just begun takes besides what its adapter sleeps. -/
def lag (w : World) : Nat := w.pace w.posts.length

/-- How long a post through the adapter under a name takes that has just begun, if it takes any
time. -/
def time? (w : World) (name : String) : Option Nat :=
  if w.lag = 0 then w.rest? name else some ((w.rest? name).getD 0 + w.lag)

def note (w : World) (t : Task) (stage : Stage) : World :=
  { w with posts := w.posts ++ [⟨t, stage⟩] }

/-- The post of a task begins. -/
def begin (w : World) (t : Task) : World := (w.note t .begun).enter t.adapter

/-- The post of a task ends, with the reference that the platform gives it. -/
def post (t : Task) (clock : Nat) : Act World PostRef := fun w =>
  match (at_ t.adapter (Station.publish clock t.content)).run w with
  | .ok ref w => .ok ref (w.note t (.ended (.ok ref)))
  | .error f w => .error f (w.note t (.ended (.error f)))

/-- Ends the post of a task. What is published is known by its rule and its adapter. -/
def publish (t : Task) (clock : Nat) : Act World Publishing := do
  let ref ← post t clock
  let id ← Act.ofOutcome ((← get).adapterId t.adapter)
  pure ⟨ref.id, ref.url, t.rule, id⟩

/-- The work of a task in a world. -/
def work (w : World) (t : Task) : Work World Publishing where
  enter _ w := w.begin t
  duration := (w.rest? t.adapter).getD 0
  lag := lag
  leave clock := Act.outcome (publish t clock)

end World

/-- A call of a scheduler that runs its jobs at once. -/
inductive Call where
  | submit (delay : Int)
  | cancel (count : Nat)
  | close

/-- Which scheduler the deferred tasks go to: one made for each batch, one for all batches, or one
that runs them at once and keeps its calls. -/
inductive Lane where
  | own
  | shared
  | inline
  deriving DecidableEq

structure Session where
  scheduler : Scheduler World Publishing
  lane : Lane := .own
  calls : List Call := []

namespace Session

variable {α : Type}

def world (s : Session) : World := s.scheduler.world

def setWorld (s : Session) (w : World) : Session := { s with scheduler.world := w }

def setScheduler (s : Session) (m : Scheduler World Publishing) : Session :=
  { s with scheduler := m }

def inWorld (x : Act World α) : Act Session α := x.within world setWorld

/-- Reports an event, unless it cannot be shown. -/
def emit (e : Event) : Act Session Unit :=
  if e.isShowable then modify fun s => s.setWorld (s.world.emit e)
  else throw (.fault .tooManyDigits)

def write (r : Record) : Act Session Unit := modify fun s => s.setWorld (s.world.write r)

def adapterId (name : String) : Act Session Value := do
  Act.ofOutcome ((← get).world.adapterId name)

/-! ### Verification -/

/-- The adapters that were verified so far, and whether they passed, the first first. -/
abbrev Checks := List (String × Bool)

/-- Verifies an adapter: nothing if it passed, else the cause, which a false answer has none of.
An adapter that lacks the operation is not a failed one. -/
def verdictOf (name : String) : Act Session (Option (Option Failure)) := fun s =>
  match (inWorld (World.at_ name Station.verify)).run s with
  | .ok v s => .ok (if v.truthy then none else some none) s
  | .error f s => if f.isNotImplemented then .error f s else .ok (some (some f)) s

/-- Whether an adapter passes, verifying it the first time it is asked for. -/
def check (checks : Checks) (name : String) : Act Session (Bool × Checks) := do
  match checks.lookup name with
  | some passed => pure (passed, checks)
  | none =>
    match ← verdictOf name with
    | none => pure (true, checks ++ [(name, true)])
    | some cause =>
      emit (.verifyFailed (← adapterId name) cause)
      pure (false, checks ++ [(name, false)])

def checkAll (checks : Checks) : List Task → Act Session Checks
  | [] => pure checks
  | t :: ts => do
    let (_, checks) ← check checks t.adapter
    checkAll checks ts

/-- The ids of the adapters that did not pass. -/
def failedIds : Checks → Act Session (List Value)
  | [] => pure []
  | (_, true) :: cs => failedIds cs
  | (name, false) :: cs => do
    let id ← adapterId name
    pure (id :: (← failedIds cs))

/-- The tasks whose adapters passed; the others are reported. -/
def survivors (checks : Checks) : List Task → Act Session (List Task)
  | [] => pure []
  | t :: ts => do
    let (passed, checks) ← check checks t.adapter
    if passed then
      pure (t :: (← survivors checks ts))
    else
      emit (.taskDropped t.rule (← adapterId t.adapter))
      survivors checks ts

/-- Verifies every adapter of a batch before dropping tasks. -/
def gate (ts : List Task) : Act Session (List Task) := do
  survivors (← checkAll [] ts) ts

/-! ### Publishing at once -/

/-- Publishes a task outside of any job, while what is due goes on. -/
def publishNow (t : Task) : Act Session Publishing := do
  modify fun s => s.setWorld (s.world.begin t)
  modify fun s => s.setScheduler (s.scheduler.sleep (s.world.time? t.adapter))
  inWorld (World.publish t (← get).scheduler.clock)

def report (p : Publishing) : Act Session Unit :=
  emit (.taskPublished p.rule p.adapterId (if p.url.truthy then p.url else p.id))

def reportAll : List Publishing → Act Session Unit
  | [] => pure ()
  | p :: ps => do
    report p
    reportAll ps

def publishEach : List Task → Act Session (List Publishing)
  | [] => pure []
  | t :: ts => do
    let p ← publishNow t
    report p
    pure (p :: (← publishEach ts))

/-! ### Publishing later -/

def schedulerSource : String := "core.scheduler"

/-- The line about a delay that is cut. -/
def cutLine (settings : Settings) (delay : Int) : Option Record :=
  let cap := settings.cap delay
  if cap = delay then none
  else some ⟨schedulerSource, .debug,
    "Capping deferred wait from " ++ toString delay ++ "ms to " ++ toString cap ++ "ms"⟩

def writeAll : List Record → Act Session Unit
  | [] => pure ()
  | r :: rs => do
    write r
    writeAll rs

/-- Gives a task to the scheduler. -/
def submitJob (t : Task) : Act Session Nat := do
  writeAll (cutLine (← get).scheduler.settings t.delay).toList
  let s ← get
  let (i, m) ← Act.ofOutcome (s.scheduler.submit (s.world.work t) t.delay)
  set (s.setScheduler m)
  pure i

/-- Runs a task at once in the place of a scheduler, and keeps what it came to. -/
def submitInline (t : Task) : Act Session Nat := do
  modify fun s => { s with calls := s.calls ++ [.submit t.delay] }
  let s ← get
  let (result, after) := Act.outcome (publishNow t) s
  let (i, m) := after.scheduler.submitEnded (s.world.work t) result
  set (after.setScheduler m)
  pure i

def submit (t : Task) : Act Session Nat := do
  if (← get).lane = .inline then submitInline t else submitJob t

/-- Says that a task is scheduled. -/
def announce (t : Task) : Act Session Unit := do
  emit (.taskScheduled t.rule (← adapterId t.adapter) t.delay)

def submitAll : List Task → Act Session (List Nat)
  | [] => pure []
  | t :: ts => do
    announce t
    let i ← submit t
    pure (i :: (← submitAll ts))

def cancelJobs (jobs : List Nat) : Act Session Unit :=
  modify fun s =>
    if s.lane = .inline then { s with calls := s.calls ++ [.cancel jobs.length] }
    else s.setScheduler (s.scheduler.cancel jobs)

/-- The first failure among jobs. -/
def firstFailure? (m : Scheduler World Publishing) (jobs : List Nat) : Option Failure :=
  jobs.findSome? m.failure?

/-- What jobs came to, in their order. -/
def results (m : Scheduler World Publishing) : List Nat → Outcome (List Publishing)
  | [] => .ok []
  | i :: is => match m.future i with
    | .done (.ok p) => do pure (p :: (← results m is))
    | .done (.error f) => .error f
    | _ => fail Error.calledOff

/-- What comes of waiting until jobs have settled: nothing ever, if one is lost. -/
def haveSettled (m : Scheduler World Publishing) (jobs : List Nat) : Outcome Unit :=
  if jobs.all m.hasSettled then .ok () else faulty .endless

/-- Waits for jobs. When one has failed, those that have not fired are called off, and the batch
ends once all have settled. The failure that counts is the first, in the order in which the jobs
were submitted, of those there were when the wait ended. -/
def settle (jobs : List Nat) : Act Session (List Publishing) := do
  modify fun s => s.setScheduler (s.scheduler.waitFirst jobs)
  match firstFailure? (← get).scheduler jobs with
  | none =>
    Act.ofOutcome (haveSettled (← get).scheduler jobs)
    Act.ofOutcome (results (← get).scheduler jobs)
  | some f =>
    cancelJobs jobs
    modify fun s => s.setScheduler (s.scheduler.waitAll jobs)
    Act.ofOutcome (haveSettled (← get).scheduler jobs)
    throw f

/-- Publishes tasks through the scheduler; the results are in the order of the tasks. -/
def publishDeferred (ts : List Task) : Act Session (List Publishing) := do
  settle (← submitAll ts)

/-- The settings of a scheduler that is made for one batch. -/
def ownSettings (s : Session) : Settings := { longest := s.scheduler.settings.longest }

/-- Runs an action with a scheduler of its own, which is closed however the action ends. -/
def withOwnScheduler (x : Act Session α) : Act Session α := fun s =>
  if s.lane = .own then
    let closed (s : Session) := s.setScheduler s.scheduler.close
    match x.run (s.setScheduler (s.scheduler.renew s.ownSettings)) with
    | .ok a s => .ok a (closed s)
    | .error f s => .error f (closed s)
  else x s

def dispatchSource : String := "core.dispatcher"

/-- The line that says how a batch is split. -/
def splitLine (immediate deferred : Nat) : Record :=
  ⟨dispatchSource, .debug, "Executing " ++ toString immediate ++ " immediate and " ++
    toString deferred ++ " deferred task(s)."⟩

/-- Publishes tasks, those without delay first. -/
def publishAll (ts : List Task) : Act Session (List Publishing) := do
  let immediate := ts.filter Task.isImmediate
  let deferred := ts.filter fun t => !t.isImmediate
  write (splitLine immediate.length deferred.length)
  let first ← publishEach immediate
  if deferred = [] then pure first
  else
    let later ← withOwnScheduler (publishDeferred deferred)
    reportAll later
    pure (first ++ later)

/-- Publishes a batch of tasks, behind the gate of verification if asked to. -/
def execute (verify : Bool) (ts : List Task) : Act Session (List Publishing) := do
  publishAll (← if verify then gate ts else pure ts)

/-- Closes the scheduler that all batches share. -/
def close (s : Session) : Session :=
  if s.lane = .inline then { s with calls := s.calls ++ [.close] }
  else s.setScheduler s.scheduler.close

end Session

end Syndicate
