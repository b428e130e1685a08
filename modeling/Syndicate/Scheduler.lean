import Syndicate.Failure

/-! A scheduler of deferred jobs on a virtual clock in milliseconds. A job waits out its delay,
takes a slot if their number is bounded, does its work and ends. What is due is kept in a queue of
entries; entries of one time are taken in the order in which they were added. The work of jobs
acts on a world, which may be anything. -/

namespace Syndicate

/-- What a job does once it fires: it begins, takes its time, and ends with a result or a
failure. Both ends see the clock. -/
structure Work (σ ρ : Type) where
  enter : (clock : Nat) → σ → σ
  duration : Nat
  /-- What it takes besides, in the world in which it has begun. -/
  lag : σ → Nat := fun _ => 0
  leave : (clock : Nat) → σ → Outcome ρ × σ

/-- How long work takes that has begun in a world. -/
def Work.span {σ ρ : Type} (work : Work σ ρ) (w : σ) : Nat := work.duration + work.lag w

/-- How a job ended. -/
inductive Ending (ρ : Type) where
  /-- It was taken back before it began. -/
  | revoked
  /-- It was told to stop and did none of its work. -/
  | calledOff
  /-- Its work was done, with what it came to. -/
  | finished (result : Outcome ρ)
  /-- Its delay could not be waited out: it did none of its work, and nobody learns of its end. -/
  | lost

inductive Phase (ρ : Type) where
  /-- Not begun, with an entry that starts it. -/
  | unstarted
  /-- Waiting out its delay. -/
  | waiting
  /-- In line for a slot, without an entry. -/
  | queued
  /-- Given a slot, with an entry due at once. -/
  | granted
  | running
  | ended (ending : Ending ρ)

/-- How many more entries a job can need. -/
def Phase.entries {ρ : Type} : Phase ρ → Nat
  | .unstarted => 3
  | .waiting | .queued => 2
  | .granted => 1
  | .running | .ended _ => 0

structure Job (σ ρ : Type) where
  work : Work σ ρ
  /-- The delay that is waited out, after capping. -/
  wait : Nat
  /-- Whether it has been told to stop. -/
  cancelled : Bool := false
  /-- Whether it was taken back before it began. -/
  revoked : Bool := false
  phase : Phase ρ := .unstarted
  /-- Whether the delay is longer than what can be waited out. -/
  overlong : Bool := false

/-- A job is to go on at a time; `seq` tells entries of one time apart. -/
structure Entry where
  due : Nat
  seq : Nat
  job : Nat
  deriving DecidableEq

/-- Whether the turn of an entry comes before that of another. -/
def Entry.before (a b : Entry) : Bool := a.due < b.due || (a.due = b.due && a.seq < b.seq)

/-- An entry of a job that waits, moved up to the present. -/
def Entry.hasten (clock i : Nat) (e : Entry) : Entry :=
  if e.job = i then { e with due := min e.due clock } else e

/-- Slots for jobs at work: how many are free, and which jobs are in line, the first first. -/
structure Slots where
  free : Nat
  line : List Nat := []
  deriving DecidableEq

/-- The longest wait, the number of slots, and whether a new job begins with an entry of its own
instead of at once. -/
structure Settings where
  maxDelay : Option Int := none
  maxConcurrency : Option Nat := none
  deferStart : Bool := false
  /-- The longest time that a thread can wait out, if there is one. -/
  longest : Option Nat := none

namespace Settings

/-- Settings with bounds as they are given; a negative number of slots is none at all. -/
def ofBounds (maxDelay maxConcurrency : Option Int) (deferStart : Bool) : Outcome Settings :=
  match maxConcurrency with
  | none => .ok { maxDelay := maxDelay, deferStart := deferStart }
  | some n =>
    if n < 0 then faulty (.wrongValue "semaphore initial value must be >= 0")
    else .ok { maxDelay := maxDelay, maxConcurrency := some n.toNat, deferStart := deferStart }

/-- A delay cut to the longest wait. -/
def cap (s : Settings) (delay : Int) : Int :=
  match s.maxDelay with
  | some m => if m < delay then m else delay
  | none => delay

/-- The time that a job with a delay waits, to the closest millisecond. It is a number of seconds,
which must be in range, and the last digits of a long one are lost. -/
def wait (s : Settings) (delay : Int) : Outcome Nat :=
  (Binary64.ofInt? (s.cap delay).toNat).elim (faulty .overflow) fun n => .ok n.thousandths

/-- Whether a time is longer than what can be waited out. -/
def isOverlong (s : Settings) (wait : Nat) : Bool := s.longest.any (· < wait)

/-- The slots to begin with; a bound of zero is none. -/
def slots (s : Settings) : Option Slots :=
  match s.maxConcurrency with
  | none | some 0 => none
  | some n => some { free := n }

end Settings

/-- A scheduler with its clock, its jobs and their world. Jobs are known by their places in the
list, `pending` holds those that have not ended, and `threads` those that closing waits for. -/
structure Scheduler (σ ρ : Type) where
  settings : Settings := {}
  clock : Nat := 0
  nextSeq : Nat := 1
  queue : List Entry := []
  jobs : List (Job σ ρ) := []
  slots : Option Slots := settings.slots
  pending : List Nat := []
  threads : List Nat := []
  world : σ

/-- What is known of a job from outside. -/
inductive Future (ρ : Type) where
  | pending
  | cancelled
  | done (result : Outcome ρ)

namespace Scheduler

variable {σ ρ : Type}

def setJob (m : Scheduler σ ρ) (i : Nat) (job : Job σ ρ) : Scheduler σ ρ :=
  { m with jobs := m.jobs.set i job }

/-- Adds an entry for a job. -/
def schedule (m : Scheduler σ ρ) (due job : Nat) : Scheduler σ ρ :=
  { m with queue := m.queue ++ [⟨due, m.nextSeq, job⟩], nextSeq := m.nextSeq + 1 }

/-- A job is over. -/
def finish (m : Scheduler σ ρ) (i : Nat) (job : Job σ ρ) (ending : Ending ρ) :
    Scheduler σ ρ :=
  { m.setJob i { job with phase := .ended ending } with pending := m.pending.filter (· ≠ i) }

/-- Gives a slot back: to the first job in line, which goes on at once, or to the free ones. -/
def release (m : Scheduler σ ρ) : Scheduler σ ρ :=
  match m.slots with
  | none => m
  | some ⟨free, []⟩ => { m with slots := some ⟨free + 1, []⟩ }
  | some ⟨free, first :: line⟩ =>
    let m := { m with slots := some ⟨free, line⟩ }
    match m.jobs[first]? with
    | none => m
    | some job => (m.setJob first { job with phase := .granted }).schedule m.clock first

/-- Ends the work of a job. -/
def complete (m : Scheduler σ ρ) (i : Nat) (job : Job σ ρ) : Scheduler σ ρ :=
  let (result, world) := job.work.leave m.clock m.world
  ({ m with world := world }.release).finish i job (.finished result)

/-- Begins the work of a job, and ends it at once when it takes no time. -/
def fire (m : Scheduler σ ρ) (i : Nat) (job : Job σ ρ) : Scheduler σ ρ :=
  let m := { m with world := job.work.enter m.clock m.world }
  if job.work.span m.world = 0 then m.complete i job
  else (m.setJob i { job with phase := .running }).schedule (m.clock + job.work.span m.world) i

/-- Fires a job if there is a slot for it, or puts it in line. -/
def acquire (m : Scheduler σ ρ) (i : Nat) (job : Job σ ρ) : Scheduler σ ρ :=
  match m.slots with
  | none => m.fire i job
  | some ⟨0, line⟩ =>
    { m.setJob i { job with phase := .queued } with slots := some ⟨0, line ++ [i]⟩ }
  | some ⟨free + 1, line⟩ => { m with slots := some ⟨free, line⟩ }.fire i job

/-- A job that was told to stop ends without doing its work. -/
def callOff (m : Scheduler σ ρ) (i : Nat) (job : Job σ ρ) : Scheduler σ ρ :=
  m.finish i job .calledOff

/-- Starts a job up to its wait, which fails when it is too long. -/
def start (m : Scheduler σ ρ) (i : Nat) (job : Job σ ρ) : Scheduler σ ρ :=
  if job.revoked then m.finish i job .revoked
  else if job.cancelled then m.callOff i job
  else if job.overlong then m.finish i job .lost
  else (m.setJob i { job with phase := .waiting }).schedule (m.clock + job.wait) i

/-- Lets a job go on from where it is, up to its next wait or to its end. -/
def resume (m : Scheduler σ ρ) (i : Nat) : Scheduler σ ρ :=
  match m.jobs[i]? with
  | none => m
  | some job => match job.phase with
    | .unstarted => m.start i job
    | .waiting => if job.cancelled then m.callOff i job else m.acquire i job
    | .granted => m.fire i job
    | .running => m.complete i job
    | .queued | .ended _ => m

/-! ### Steps -/

/-- The entry whose turn it is. -/
def first? : List Entry → Option Entry
  | [] => none
  | e :: es => match first? es with
    | none => some e
    | some f => some (if Entry.before f e then f else e)

def next? (m : Scheduler σ ρ) : Option Entry := first? m.queue

/-- Takes the next entry out of the queue, sets the clock to it and lets its job go on. -/
def step (m : Scheduler σ ρ) : Scheduler σ ρ :=
  match m.next? with
  | none => m
  | some e =>
    { m with queue := m.queue.erase e, clock := max m.clock e.due }.resume e.job

/-- A bound on the steps to come: entries there are, and entries that jobs can still need. -/
def bound (m : Scheduler σ ρ) : Nat :=
  m.jobs.foldr (fun job n => Phase.entries job.phase + n) m.queue.length

/-- Takes at most a number of steps while a condition holds and there is something to do. -/
def stepWhile (go : Scheduler σ ρ → Bool) : (steps : Nat) → Scheduler σ ρ → Scheduler σ ρ
  | 0, m => m
  | n + 1, m => if go m && m.queue ≠ [] then stepWhile go n m.step else m

/-- Takes steps while a condition holds and there is something to do. -/
def runWhile (m : Scheduler σ ρ) (go : Scheduler σ ρ → Bool) : Scheduler σ ρ :=
  stepWhile go m.bound m

/-! ### Use -/

/-- Takes on a job, which starts at once unless the settings defer it. -/
def submit (m : Scheduler σ ρ) (work : Work σ ρ) (delay : Int) :
    Outcome (Nat × Scheduler σ ρ) := do
  let wait ← m.settings.wait delay
  let i := m.jobs.length
  let job : Job σ ρ := { work := work, wait := wait, overlong := m.settings.isOverlong wait }
  let m := { m with
    jobs := m.jobs ++ [job], pending := m.pending ++ [i], threads := m.threads ++ [i] }
  pure (i, if m.settings.deferStart then m.schedule m.clock i else m.start i job)

/-- Adds a job that is over already. -/
def submitEnded (m : Scheduler σ ρ) (work : Work σ ρ) (result : Outcome ρ) :
    Nat × Scheduler σ ρ :=
  (m.jobs.length, { m with
    jobs := m.jobs ++ [{ work := work, wait := 0, phase := .ended (.finished result) }] })

def future (m : Scheduler σ ρ) (i : Nat) : Future ρ :=
  match m.jobs[i]? with
  | none => .pending
  | some job => match job.phase with
    | .ended (.finished result) => .done result
    | .ended .calledOff => .done (fail Error.calledOff)
    | .ended .revoked => .cancelled
    | _ => if job.revoked then .cancelled else .pending

/-- The failure that a job ended in. -/
def failure? (m : Scheduler σ ρ) (i : Nat) : Option Failure :=
  match m.future i with
  | .done (.error f) => some f
  | _ => none

/-- Whether a job is over. One that was taken back is over once its turn to begin has come. -/
def hasEnded (m : Scheduler σ ρ) (i : Nat) : Bool :=
  match m.jobs[i]? with
  | none => true
  | some job => match job.phase with
    | .ended _ => true
    | _ => false

/-- Whether a job is over and others know how it ended. -/
def hasSettled (m : Scheduler σ ρ) (i : Nat) : Bool :=
  match m.jobs[i]? with
  | none => true
  | some job => match job.phase with
    | .ended .lost => false
    | .ended _ => true
    | _ => false

/-- Tells a job to stop. One that waits out its delay goes on at once. -/
def cancelJob (m : Scheduler σ ρ) (i : Nat) : Scheduler σ ρ :=
  match m.jobs[i]? with
  | none => m
  | some job =>
    let told := m.setJob i { job with cancelled := true }
    match job.phase with
    | .waiting => { told with queue := m.queue.map (Entry.hasten m.clock i) }
    | _ => told

/-- Tells those of the named jobs to stop that have not ended. -/
def cancel (m : Scheduler σ ρ) (names : List Nat) : Scheduler σ ρ :=
  (names.filter m.pending.contains).foldl cancelJob m

/-- Tells every job to stop that has not ended. -/
def cancelAll (m : Scheduler σ ρ) : Scheduler σ ρ := m.pending.foldl cancelJob m

/-- Takes a job back, which works only before it has begun, or again. -/
def revoke (m : Scheduler σ ρ) (i : Nat) : Bool × Scheduler σ ρ :=
  match m.jobs[i]? with
  | none => (false, m)
  | some job =>
    if job.revoked then (true, m)
    else match job.phase with
      | .unstarted => (true, m.setJob i { job with revoked := true })
      | _ => (false, m)

/-- Whether something is due by a time. -/
def isDueBy (time : Nat) (m : Scheduler σ ρ) : Bool := m.next?.any (·.due ≤ time)

/-- Lets time pass, with all that is due in it. -/
def advance (m : Scheduler σ ρ) (n : Nat) : Scheduler σ ρ :=
  let time := m.clock + n
  { m.runWhile (isDueBy time) with clock := time }

/-- Sleeps for a time outside of any job, if there is one to sleep for. What is due at once goes
on even in a sleep of no length. -/
def sleep (m : Scheduler σ ρ) (time : Option Nat) : Scheduler σ ρ :=
  match time with
  | some n => m.advance n
  | none => m

/-- Goes on until all the named jobs have settled. For one that is lost there is no end to that:
all that is left to do is done. -/
def waitAll (m : Scheduler σ ρ) (names : List Nat) : Scheduler σ ρ :=
  m.runWhile fun m => !names.all m.hasSettled

/-- Goes on until all the named jobs have settled or one of them has failed. -/
def waitFirst (m : Scheduler σ ρ) (names : List Nat) : Scheduler σ ρ :=
  m.runWhile fun m => !(names.all m.hasSettled || names.any fun i => (m.failure? i).isSome)

/-- Goes on until a job has ended. -/
def join (m : Scheduler σ ρ) (i : Nat) : Scheduler σ ρ := m.runWhile fun m => !m.hasEnded i

/-- Goes on until every job taken on since the last closing has ended. -/
def close (m : Scheduler σ ρ) : Scheduler σ ρ :=
  m.threads.foldl join { m with threads := [] }

/-- A new scheduler in the place of a closed one, on the same clock. -/
def renew (m : Scheduler σ ρ) (settings : Settings) : Scheduler σ ρ :=
  { m with settings := settings, slots := settings.slots, pending := [], threads := [] }

end Scheduler

end Syndicate
