import Syndicate.Proofs.Dispatch.Gate
import Syndicate.Proofs.Dispatch.Twins

/-! The gate is a filter. A batch behind it verifies each of its adapters once, before anything is
published, and from there on does what it does without the gate on the tasks whose adapters have
passed. -/

namespace Syndicate

open Act (Agree)

/-- The tasks of a batch whose adapters have passed. -/
def passing (as : Answers) (ts : List Task) : List Task := ts.filter fun t => as.passes t.adapter

namespace World

variable {T : Task → Prop} {names : List String} {es : List Event} {w w' : World}

end World

namespace Session

open Scheduler

variable {s : Session} {ts : List Task}

section Gated

variable {as : Answers} {w : World} (hs : s.Steady)
  (hj : ∀ job ∈ s.scheduler.jobs, job.phase.isOver = false →
    ∃ (w : World) (t : Task), job.work = w.work t)
include hs hj

end Gated

end Session

end Syndicate
