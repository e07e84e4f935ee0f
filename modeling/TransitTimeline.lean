import TransitTimeline.Calendar
import TransitTimeline.Column
import TransitTimeline.CommandLine.Arguments
import TransitTimeline.CommandLine.Log
import TransitTimeline.CommandLine.Run
import TransitTimeline.CommandLine.Variables
import TransitTimeline.Decimal
import TransitTimeline.Failure
import TransitTimeline.Files.Script
import TransitTimeline.Files.Tree
import TransitTimeline.Gzip.Bits
import TransitTimeline.Gzip.Checksum
import TransitTimeline.Gzip.Code
import TransitTimeline.Gzip.Inflate
import TransitTimeline.Gzip.Member
import TransitTimeline.Instant
import TransitTimeline.Journey.Event
import TransitTimeline.Json.Basic
import TransitTimeline.Json.Reader
import TransitTimeline.Json.Writer
import TransitTimeline.Main
import TransitTimeline.Observation.Gtfs
import TransitTimeline.Observation.Row
import TransitTimeline.Observation.Status
import TransitTimeline.Observation.Tm
import TransitTimeline.Order
import TransitTimeline.Proofs.Blocks
import TransitTimeline.Proofs.Calendar
import TransitTimeline.Proofs.Column
import TransitTimeline.Proofs.CommandLine.Backfill
import TransitTimeline.Proofs.Files.Beside
import TransitTimeline.Proofs.Files.Course
import TransitTimeline.Proofs.Files.Place
import TransitTimeline.Proofs.Files.Way
import TransitTimeline.Proofs.Firsts
import TransitTimeline.Proofs.Gathering
import TransitTimeline.Proofs.Instant
import TransitTimeline.Proofs.Journey.Attached
import TransitTimeline.Proofs.Journey.Choice
import TransitTimeline.Proofs.Journey.Exact
import TransitTimeline.Proofs.Journey.Fates
import TransitTimeline.Proofs.Journey.Join
import TransitTimeline.Proofs.Journey.Unmatched
import TransitTimeline.Proofs.Observation.Clocked
import TransitTimeline.Proofs.Observation.Crossings
import TransitTimeline.Proofs.Observation.Gathered
import TransitTimeline.Proofs.Order
import TransitTimeline.Proofs.Paired
import TransitTimeline.Proofs.PartitionFile
import TransitTimeline.Proofs.Publication.Calls
import TransitTimeline.Proofs.Publication.Moves
import TransitTimeline.Proofs.Publication.Slots
import TransitTimeline.Proofs.Publication.Swap
import TransitTimeline.Proofs.Record.Derived
import TransitTimeline.Proofs.Record.Headway
import TransitTimeline.Proofs.Record.Isolation
import TransitTimeline.Proofs.Record.LastKnown
import TransitTimeline.Proofs.Record.Raised
import TransitTimeline.Proofs.Record.Seen
import TransitTimeline.Proofs.Record.Settle
import TransitTimeline.Proofs.Record.Sound
import TransitTimeline.Proofs.Record.Spans
import TransitTimeline.Proofs.Record.Telescope
import TransitTimeline.Proofs.Record.Timed
import TransitTimeline.Proofs.Record.Verdicts
import TransitTimeline.Proofs.Record.Withholding
import TransitTimeline.Proofs.Repeats
import TransitTimeline.Proofs.Report.Reading
import TransitTimeline.Proofs.Reread
import TransitTimeline.Proofs.Schedule.Accounts
import TransitTimeline.Proofs.Schedule.Apart
import TransitTimeline.Proofs.Schedule.Behind
import TransitTimeline.Proofs.Schedule.Completed
import TransitTimeline.Proofs.Schedule.Continuation
import TransitTimeline.Proofs.Schedule.Finish
import TransitTimeline.Proofs.Schedule.Interleaving
import TransitTimeline.Proofs.Schedule.Joined
import TransitTimeline.Proofs.Schedule.Merged
import TransitTimeline.Proofs.Schedule.Pairing
import TransitTimeline.Proofs.Schedule.Passings
import TransitTimeline.Proofs.Schedule.Refusal
import TransitTimeline.Proofs.Schedule.Reordered
import TransitTimeline.Proofs.Schedule.Running
import TransitTimeline.Proofs.Schedule.Services
import TransitTimeline.Proofs.Schedule.Shifts
import TransitTimeline.Proofs.Schedule.Splitting
import TransitTimeline.Proofs.Schedule.Twins
import TransitTimeline.Proofs.Schedule.Windows
import TransitTimeline.Proofs.Sections
import TransitTimeline.Proofs.ServiceDate.Overlap
import TransitTimeline.Proofs.ServiceDate.Published
import TransitTimeline.Proofs.ServiceDate.Reading
import TransitTimeline.Proofs.ServiceDate.Reconciled
import TransitTimeline.Proofs.ServiceDate.Reordered
import TransitTimeline.Proofs.ServiceDate.Retried
import TransitTimeline.Proofs.ServiceDate.Withheld
import TransitTimeline.Proofs.ServiceTime
import TransitTimeline.Proofs.Source.InTurn
import TransitTimeline.Proofs.Source.Joined
import TransitTimeline.Proofs.Source.Plainly
import TransitTimeline.Proofs.Source.Retry
import TransitTimeline.Proofs.TripId
import TransitTimeline.Proofs.TripId.Parts
import TransitTimeline.Proofs.Zone.TwoClocks
import TransitTimeline.Proofs.Zone.WallClock
import TransitTimeline.Publication.Publish
import TransitTimeline.Record.Basic
import TransitTimeline.Record.Headway
import TransitTimeline.Record.Stay
import TransitTimeline.Record.Validation
import TransitTimeline.Report.Summary
import TransitTimeline.Report.Text
import TransitTimeline.Schedule.Pairing
import TransitTimeline.Schedule.Planned
import TransitTimeline.Schedule.Pullout
import TransitTimeline.Schedule.Row
import TransitTimeline.Schedule.Service
import TransitTimeline.Schedule.Skeleton
import TransitTimeline.ServiceDate.Load
import TransitTimeline.ServiceDate.Reconcile
import TransitTimeline.ServiceTime
import TransitTimeline.Settings
import TransitTimeline.Source.Manifest
import TransitTimeline.Source.Reads
import TransitTimeline.Source.Retry
import TransitTimeline.Table.Cell
import TransitTimeline.Table.Csv
import TransitTimeline.Table.Decode
import TransitTimeline.Table.Field
import TransitTimeline.Table.File
import TransitTimeline.Table.Gtfs
import TransitTimeline.Table.PartitionFile
import TransitTimeline.Table.Realtime
import TransitTimeline.Table.TransitMaster
import TransitTimeline.Text.Alphanumeric
import TransitTimeline.Text.Blank
import TransitTimeline.Text.Numeral
import TransitTimeline.Text.Piece
import TransitTimeline.TripId
import TransitTimeline.Zone
import TransitTimeline.Zone.Known
import TransitTimeline.Zone.Season
