import Agenda.Time.Iso
import Agenda.Time.Relative
import Agenda.Book.File
import Agenda.Service.Keyword
import Agenda.Service.Choice
import Agenda.Service.Client
import Agenda.Alert.Notifier
import Agenda.Web.Endpoint
import Agenda.Web.Target
import Agenda.Proofs.Attempt
import Agenda.Proofs.Time.Moment
import Agenda.Proofs.Window.Overlap
import Agenda.Proofs.Window.FreeSlot
import Agenda.Proofs.Window.Suggestion
import Agenda.Proofs.Command.Matching
import Agenda.Proofs.Command.Frame
import Agenda.Proofs.Desk.Operation
import Agenda.Proofs.Command.Counter
import Agenda.Proofs.Desk.Ending
import Agenda.Proofs.Task.Renewed
import Agenda.Proofs.Desk.Renewal
import Agenda.Proofs.Desk.Settled
import Agenda.Proofs.Book.Legible
import Agenda.Proofs.Book.Loading
import Agenda.Proofs.Time.Calendar
import Agenda.Proofs.Task.Stored
import Agenda.Proofs.Book.Present
import Agenda.Proofs.Book.Saved
import Agenda.Proofs.Desk.Mutation
import Agenda.Proofs.Pattern
import Agenda.Proofs.Text.Letter
import Agenda.Proofs.Command.Pitfall
import Agenda.Proofs.Task.Valid
import Agenda.Proofs.Value.Braced
import Agenda.Proofs.Pattern.Search
import Agenda.Proofs.Value.Digits
import Agenda.Proofs.Service.Repaired
import Agenda.Proofs.Service.Crash
import Agenda.Proofs.Service.Remote
import Agenda.Proofs.Text.Blank
import Agenda.Proofs.Command.Line
import Agenda.Proofs.Command.Capture
import Agenda.Proofs.Command.Ready
import Agenda.Proofs.Command.Dispatch
import Agenda.Proofs.Text.Spaced
import Agenda.Proofs.Text.Spelt
import Agenda.Proofs.Command.Opening
import Agenda.Proofs.Command.Target
import Agenda.Proofs.Command.Form
import Agenda.Proofs.Command.Typed
import Agenda.Proofs.When.Reach
import Agenda.Proofs.When.Reading
import Agenda.Proofs.Extract.Generative
import Agenda.Proofs.Value.Entries
import Agenda.Proofs.Command.Alteration
import Agenda.Proofs.Task.Course
import Agenda.Proofs.Alert.Firing
import Agenda.Proofs.Desk.Course
import Agenda.Proofs.Desk.Project
import Agenda.Proofs.When.Zone
import Agenda.Proofs.Command.Zone
import Agenda.Proofs.Extract.Zone
import Agenda.Proofs.Grouping
import Agenda.Proofs.Desk.Zone
import Agenda.Proofs.Desk.Check
import Agenda.Proofs.Desk.Reminder
import Agenda.Proofs.Desk.Debounce
import Agenda.Proofs.Desk.Delivery
import Agenda.Proofs.Desk.Lead
import Agenda.Proofs.Window.Range
import Agenda.Proofs.Window.Proposed
import Agenda.Proofs.Extract.Tier
import Agenda.Proofs.Extract.Kept
import Agenda.Proofs.Pattern.Found
import Agenda.Proofs.Extract.Marked
import Agenda.Proofs.Desk.Submission
import Agenda.Proofs.Intent.Guess
import Agenda.Proofs.Desk.Guess
import Agenda.Proofs.Desk.View
import Agenda.Proofs.Desk.Independence
import Agenda.Proofs.Window.Earliest
import Agenda.Proofs.When.Written
import Agenda.Proofs.Book.File
import Agenda.Proofs.Desk.Tagged
import Agenda.Proofs.Window.Conflict
import Agenda.Proofs.Recurrence.Habit
import Agenda.Proofs.Recurrence.Next
import Agenda.Proofs.Recurrence.Occurrence
import Agenda.Proofs.Desk.Update
import Agenda.Proofs.Book.Spelling
import Agenda.Proofs.When.Span
import Agenda.Proofs.When.Onward
import Agenda.Proofs.When.Distance
import Agenda.Proofs.When.Yearless
import Agenda.Proofs.Command.Peeling
import Agenda.Proofs.Extract.Observance
import Agenda.Proofs.Summary
import Agenda.Proofs.Time.Grid
import Agenda.Proofs.Desk.MonthView
import Agenda.Proofs.Answer.Deadlines
import Agenda.Proofs.When.Choice
import Agenda.Proofs.Command.Weekday
import Agenda.Proofs.Service.Generated
import Agenda.Proofs.Desk.Labelled
