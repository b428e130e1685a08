import Syndicate.Proofs.Command.Exit
import Syndicate.Proofs.Registry.Veiled

/-! Two runs with the same arguments whose configurations, or whose surroundings, differ in a token.
They end in the same way, and write, post and send the same, but for the token in the addresses of
requests and in what the library for requests writes of these, and for the configuration file itself
when it is uploaded. -/

namespace Syndicate

/-- Two runs have ended in the same way, and wrote, posted and sent the same but for tokens in the
addresses of requests and in what the library for requests wrote of these, and for some files that
were uploaded. -/
structure Aftermath.Veiled (p : Veil) (x y : Aftermath) : Prop where
  outcome : y.outcome = x.outcome
  complaint : y.complaint = x.complaint
  journal : x.session.world.site.journal.Veiled p y.session.world.site.journal
  /-- The lines that are not from that library are the same, -/
  own : y.session.world.site.journal.records.filter Record.isOwn =
    x.session.world.site.journal.records.filter Record.isOwn
  /-- and so are all lines but those for debugging. -/
  plain : Record.atLeast .info y.session.world.site.journal.records =
    Record.atLeast .info x.session.world.site.journal.records
  posts : y.session.world.posts = x.session.world.posts
  clock : y.session.scheduler.clock = x.session.scheduler.clock
  logFiles : Command.logFiles y.session.world.site.files =
    Command.logFiles x.session.world.site.files
  sent : List.Forall₂ (Request.Veiled p) x.session.world.site.network.sent
    y.session.world.site.network.sent

namespace Command

open Act (Agree Matches Mirrors)

variable {p : Veil} {fs gs : Files} {config config' : Entries}
  {token token' : Option String}

/-! ### The log file -/

section Config

variable (h : Config.Veiled config config')
include h

end Config

/-- The item that a run finds behind the start of its log. -/
def contentOf (a : Arguments) (s : Situation) : Outcome Content := do
  let config ← loaded a s
  itemOf a s (← opened a config s)

/-- What the configuration file holds in one situation and in another one. -/
def ConfigBytes (a : Arguments) (s t : Situation) (b c : List UInt8) : Prop :=
  ∃ path, a.config = some path ∧ s.files.bytes path = .ok b ∧ t.files.bytes path = .ok c

/-- Two situations for a run with the same content that differ in tokens only: in one from the
surroundings, and in those of adapters in the configuration file. -/
structure Veiled (a : Arguments) (s t : Situation) : Prop where
  now : t.now = s.now
  readers : t.readers = s.readers
  network : t.network = s.network
  pace : t.pace = s.pace
  longest : t.longest = s.longest
  token : Registry.TokenVeiled s.token t.token
  files : s.files.Veiled (ConfigBytes a s t) t.files
  config : Outcome.Rel Config.Veiled (loaded a s) (loaded a t)
  content : contentOf a t = contentOf a s

section Prepare

variable {a : Arguments} {s t : Situation} {u v : Session}

section Found

variable (hc : Config.Veiled config config') (hnow : t.now = s.now)
  (ht : Registry.TokenVeiled s.token t.token) (huv : u.Veiled p v)
  (hitem : itemOf a t v.world.site.files = itemOf a s u.world.site.files)
include hc hnow ht huv hitem

end Found

end Prepare

end Command

namespace Command

/-! ### A configuration that is uploaded -/

end Command

end Syndicate
