import EncounterTimeline.Decimal.Binary64
import EncounterTimeline.Decimal.Layout
import EncounterTimeline.Decimal.Numeral
import EncounterTimeline.Decimal.Scaled
import EncounterTimeline.Decimal.Shortest
import EncounterTimeline.Director.Basic
import EncounterTimeline.Director.Handle
import EncounterTimeline.Director.Task
import EncounterTimeline.Document.Basic
import EncounterTimeline.Document.File
import EncounterTimeline.Document.Printer
import EncounterTimeline.Document.Reader
import EncounterTimeline.Fault
import EncounterTimeline.Feed.Bus
import EncounterTimeline.Feed.Tail
import EncounterTimeline.Feed.Watch
import EncounterTimeline.Markup.Attribute
import EncounterTimeline.Markup.Entity
import EncounterTimeline.Markup.Event
import EncounterTimeline.Markup.Lexeme
import EncounterTimeline.Pattern.Extent
import EncounterTimeline.Pattern.Name
import EncounterTimeline.Pattern.Node
import EncounterTimeline.Pattern.Program
import EncounterTimeline.Pattern.Reader
import EncounterTimeline.Pattern.SyncPattern
import EncounterTimeline.Pattern.Tree
import EncounterTimeline.Playback.Clock
import EncounterTimeline.Playback.Cursor
import EncounterTimeline.Playback.Journal
import EncounterTimeline.Playback.Session
import EncounterTimeline.Playback.Window
import EncounterTimeline.Settings.Basic
import EncounterTimeline.Settings.File
import EncounterTimeline.Settings.Token
import EncounterTimeline.Settings.Tree
import EncounterTimeline.Storage
import EncounterTimeline.Text.Blank
import EncounterTimeline.Text.Category
import EncounterTimeline.Text.CharSet
import EncounterTimeline.Text.Fold
import EncounterTimeline.Text.Property
import EncounterTimeline.Text.Run
import EncounterTimeline.Text.Script
import EncounterTimeline.Text.Utf8
import EncounterTimeline.Timeline.Activity
import EncounterTimeline.Timeline.Definition
import EncounterTimeline.Timeline.Duration
import EncounterTimeline.Timeline.Element
import EncounterTimeline.Timeline.Locale
import EncounterTimeline.Timeline.Resolve
import EncounterTimeline.Timeline.TimeText
import EncounterTimeline.Timeline.Workbench
import EncounterTimeline.Proofs.Decimal.Arithmetic
import EncounterTimeline.Proofs.Decimal.Digits
import EncounterTimeline.Proofs.Decimal.FewDigits
import EncounterTimeline.Proofs.Decimal.Nearest
import EncounterTimeline.Proofs.Decimal.NegativeZero
import EncounterTimeline.Proofs.Decimal.Order
import EncounterTimeline.Proofs.Decimal.Packing
import EncounterTimeline.Proofs.Decimal.Plain
import EncounterTimeline.Proofs.Decimal.Reading
import EncounterTimeline.Proofs.Decimal.Rereading
import EncounterTimeline.Proofs.Decimal.Rescaled
import EncounterTimeline.Proofs.Decimal.Rounding
import EncounterTimeline.Proofs.Decimal.Scientific
import EncounterTimeline.Proofs.Decimal.Shortest
import EncounterTimeline.Proofs.Decimal.Sums
import EncounterTimeline.Proofs.Decimal.Value
import EncounterTimeline.Proofs.Director.Editors
import EncounterTimeline.Proofs.Director.Filing
import EncounterTimeline.Proofs.Director.Interleaving
import EncounterTimeline.Proofs.Director.Lifecycle
import EncounterTimeline.Proofs.Director.Outline
import EncounterTimeline.Proofs.Director.Reloading
import EncounterTimeline.Proofs.Director.Renewal
import EncounterTimeline.Proofs.Director.Seats
import EncounterTimeline.Proofs.Director.Tasks
import EncounterTimeline.Proofs.Document.Events
import EncounterTimeline.Proofs.Document.Header
import EncounterTimeline.Proofs.Document.Offsets
import EncounterTimeline.Proofs.Document.Origins
import EncounterTimeline.Proofs.Document.Page
import EncounterTimeline.Proofs.Document.Reading
import EncounterTimeline.Proofs.Document.Restored
import EncounterTimeline.Proofs.Document.RoundTrip
import EncounterTimeline.Proofs.Document.Spelling
import EncounterTimeline.Proofs.Document.Tree
import EncounterTimeline.Proofs.Feed.Delivery
import EncounterTimeline.Proofs.Feed.Rotation
import EncounterTimeline.Proofs.Feed.Tailing
import EncounterTimeline.Proofs.Markup.Cuts
import EncounterTimeline.Proofs.Markup.Escape
import EncounterTimeline.Proofs.Markup.Tags
import EncounterTimeline.Proofs.Playback.Account
import EncounterTimeline.Proofs.Playback.Calls
import EncounterTimeline.Proofs.Playback.Draining
import EncounterTimeline.Proofs.Playback.Entries
import EncounterTimeline.Proofs.Playback.Executions
import EncounterTimeline.Proofs.Playback.Following
import EncounterTimeline.Proofs.Playback.HostTime
import EncounterTimeline.Proofs.Playback.Interrupts
import EncounterTimeline.Proofs.Playback.Latches
import EncounterTimeline.Proofs.Playback.Linear
import EncounterTimeline.Proofs.Playback.Matching
import EncounterTimeline.Proofs.Playback.Moves
import EncounterTimeline.Proofs.Playback.Nesting
import EncounterTimeline.Proofs.Playback.Notices
import EncounterTimeline.Proofs.Playback.Numbering
import EncounterTimeline.Proofs.Playback.Offsets
import EncounterTimeline.Proofs.Playback.Placement
import EncounterTimeline.Proofs.Playback.Positions
import EncounterTimeline.Proofs.Playback.Progress
import EncounterTimeline.Proofs.Playback.Promptness
import EncounterTimeline.Proofs.Playback.Quiescence
import EncounterTimeline.Proofs.Playback.Rebasing
import EncounterTimeline.Proofs.Playback.Restart
import EncounterTimeline.Proofs.Playback.Retiming
import EncounterTimeline.Proofs.Playback.Rounds
import EncounterTimeline.Proofs.Playback.Run
import EncounterTimeline.Proofs.Playback.Settling
import EncounterTimeline.Proofs.Playback.Synchronisation
import EncounterTimeline.Proofs.Playback.Triggers
import EncounterTimeline.Proofs.Playback.Unresolved
import EncounterTimeline.Proofs.Playback.Visibility
import EncounterTimeline.Proofs.Playback.Window
import EncounterTimeline.Proofs.Settings.Numbers
import EncounterTimeline.Proofs.Settings.Objects
import EncounterTimeline.Proofs.Settings.Saved
import EncounterTimeline.Proofs.Storage
import EncounterTimeline.Proofs.Text.Cutting
import EncounterTimeline.Proofs.Text.Utf8
import EncounterTimeline.Proofs.Timeline.Editing
import EncounterTimeline.Proofs.Timeline.Face
import EncounterTimeline.Proofs.Timeline.Insertion
import EncounterTimeline.Proofs.Timeline.Landing
import EncounterTimeline.Proofs.Timeline.Naming
import EncounterTimeline.Proofs.Timeline.Ownership
import EncounterTimeline.Proofs.Timeline.Scope
import EncounterTimeline.Proofs.Timeline.Script
import EncounterTimeline.Proofs.Timeline.TimeParts
import EncounterTimeline.Proofs.Timeline.TimeText
import EncounterTimeline.Proofs.Timeline.Undo
