import Syndicate.Adapter
import Syndicate.Adapter.Bare
import Syndicate.Adapter.Basic
import Syndicate.Adapter.Dummy
import Syndicate.Adapter.Recorder
import Syndicate.Adapter.Telegram
import Syndicate.Arguments
import Syndicate.Binary64
import Syndicate.Binary64.Display
import Syndicate.Binary64.Fixed
import Syndicate.Binary64.Shortest
import Syndicate.Calendar.Date
import Syndicate.Calendar.Instant
import Syndicate.Calendar.Timestamp
import Syndicate.Command
import Syndicate.Conditions
import Syndicate.Config
import Syndicate.Content
import Syndicate.Content.Desk
import Syndicate.Content.Store
import Syndicate.Content.Validation
import Syndicate.Delay
import Syndicate.Dispatch
import Syndicate.Failure
import Syndicate.Failure.Named
import Syndicate.Files
import Syndicate.Journal
import Syndicate.Journal.Line
import Syndicate.Journal.Template
import Syndicate.Json
import Syndicate.Json.Render
import Syndicate.Main
import Syndicate.Network
import Syndicate.Proofs.Act
import Syndicate.Proofs.Adapter
import Syndicate.Proofs.Adapter.Address
import Syndicate.Proofs.Adapter.Alike
import Syndicate.Proofs.Adapter.Dummy
import Syndicate.Proofs.Adapter.Held
import Syndicate.Proofs.Adapter.Platform
import Syndicate.Proofs.Adapter.Requests
import Syndicate.Proofs.Adapter.Served
import Syndicate.Proofs.Adapter.Stall
import Syndicate.Proofs.Adapter.Telegram
import Syndicate.Proofs.Adapter.Veiled
import Syndicate.Proofs.Command.Break
import Syndicate.Proofs.Command.Escape
import Syndicate.Proofs.Command.Exit
import Syndicate.Proofs.Command.Plan
import Syndicate.Proofs.Command.Prepare
import Syndicate.Proofs.Command.Veiled
import Syndicate.Proofs.Conditions
import Syndicate.Proofs.Conditions.Fields
import Syndicate.Proofs.Config
import Syndicate.Proofs.Content.Apart
import Syndicate.Proofs.Content.Copied
import Syndicate.Proofs.Content.Desk
import Syndicate.Proofs.Content.Shared
import Syndicate.Proofs.Delay
import Syndicate.Proofs.Delay.Escape
import Syndicate.Proofs.Delay.Form
import Syndicate.Proofs.Delay.Padded
import Syndicate.Proofs.Delay.Phrase
import Syndicate.Proofs.Delay.Weekday
import Syndicate.Proofs.Dispatch.Broken
import Syndicate.Proofs.Dispatch.Deferred
import Syndicate.Proofs.Dispatch.Execute
import Syndicate.Proofs.Dispatch.Filter
import Syndicate.Proofs.Dispatch.Gate
import Syndicate.Proofs.Dispatch.Immediate
import Syndicate.Proofs.Dispatch.Links
import Syndicate.Proofs.Dispatch.Posts
import Syndicate.Proofs.Dispatch.Raises
import Syndicate.Proofs.Dispatch.Renewed
import Syndicate.Proofs.Dispatch.Returned
import Syndicate.Proofs.Dispatch.Session
import Syndicate.Proofs.Dispatch.Settle
import Syndicate.Proofs.Dispatch.Submit
import Syndicate.Proofs.Dispatch.Tally
import Syndicate.Proofs.Dispatch.Twins
import Syndicate.Proofs.Dispatch.Veiled
import Syndicate.Proofs.Dispatch.World
import Syndicate.Proofs.Entries
import Syndicate.Proofs.Evaluation
import Syndicate.Proofs.Failure
import Syndicate.Proofs.Files
import Syndicate.Proofs.Json
import Syndicate.Proofs.Posting
import Syndicate.Proofs.Registry
import Syndicate.Proofs.Registry.Veiled
import Syndicate.Proofs.Routing
import Syndicate.Proofs.Routing.Enabled
import Syndicate.Proofs.Routing.Isolated
import Syndicate.Proofs.Routing.Laid
import Syndicate.Proofs.Routing.Loaded
import Syndicate.Proofs.Routing.Pruned
import Syndicate.Proofs.Rule
import Syndicate.Proofs.Rule.Pruned
import Syndicate.Proofs.Scheduler.Calls
import Syndicate.Proofs.Scheduler.Cancel
import Syndicate.Proofs.Scheduler.Demand
import Syndicate.Proofs.Scheduler.Follow
import Syndicate.Proofs.Scheduler.Progress
import Syndicate.Proofs.Scheduler.Punctual
import Syndicate.Proofs.Scheduler.Raised
import Syndicate.Proofs.Scheduler.Run
import Syndicate.Proofs.Scheduler.Share
import Syndicate.Proofs.Scheduler.Slots
import Syndicate.Proofs.Scheduler.Sound
import Syndicate.Proofs.Scheduler.Turn
import Syndicate.Proofs.Scheduler.Twins
import Syndicate.Proofs.Text
import Syndicate.Registry
import Syndicate.Routing
import Syndicate.Rule
import Syndicate.Scheduler
import Syndicate.Text.Blank
import Syndicate.Text.Digit
import Syndicate.Text.Lowercase
import Syndicate.Text.Numeral
import Syndicate.Text.Printable
import Syndicate.Text.Quoted
import Syndicate.Text.Utf8
import Syndicate.Traced
import Syndicate.Value.Basic
import Syndicate.Value.Coerce
import Syndicate.Value.Display
import Syndicate.Yaml
import Syndicate.Yaml.Cursor
import Syndicate.Yaml.Scalar
import Syndicate.Yaml.Token
import Syndicate.Proofs.Content.Ranked
import Syndicate.Proofs.Content.Reached
import Syndicate.Proofs.Content.Lent
import Syndicate.Proofs.Content.Lineage
import Syndicate.Proofs.Content.Viewed
import Syndicate.Proofs.Registry.Faithful
import Syndicate.Proofs.Content.Shuffled
import Syndicate.Proofs.Dispatch.Abreast
import Syndicate.Proofs.Dispatch.Shuffled
