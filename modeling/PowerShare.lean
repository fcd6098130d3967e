import PowerShare.Attribution
import PowerShare.Basis
import PowerShare.Charge
import PowerShare.Command
import PowerShare.Command.Arguments
import PowerShare.Command.Help
import PowerShare.Component
import PowerShare.Draw
import PowerShare.Duration
import PowerShare.Envelope
import PowerShare.Envelope.Codec
import PowerShare.Event
import PowerShare.Folder
import PowerShare.Json.Document
import PowerShare.Json.Error
import PowerShare.Json.Reader
import PowerShare.Json.Record
import PowerShare.Json.Scalar
import PowerShare.Json.Scaling
import PowerShare.Json.Skipping
import PowerShare.Listing
import PowerShare.LogFilter
import PowerShare.Main
import PowerShare.Number.Binary64
import PowerShare.Number.Decimal
import PowerShare.Number.Literal
import PowerShare.Number.Notation
import PowerShare.Number.Power
import PowerShare.Number.Rounding
import PowerShare.Order.SortedMap
import PowerShare.Profile
import PowerShare.Proofs.Attribution.Balance
import PowerShare.Proofs.Attribution.Breakdown
import PowerShare.Proofs.Attribution.Durations
import PowerShare.Proofs.Attribution.Finite
import PowerShare.Proofs.Attribution.Forcing
import PowerShare.Proofs.Attribution.Grounds
import PowerShare.Proofs.Attribution.Growth
import PowerShare.Proofs.Attribution.Independence
import PowerShare.Proofs.Attribution.Outcomes
import PowerShare.Proofs.Attribution.Reordering
import PowerShare.Proofs.Attribution.Sign
import PowerShare.Proofs.Attribution.StateCharges
import PowerShare.Proofs.Attribution.Walk
import PowerShare.Proofs.Charge
import PowerShare.Proofs.Command.Attribution
import PowerShare.Proofs.Command.Joined
import PowerShare.Proofs.Command.Loading
import PowerShare.Proofs.Command.Shell
import PowerShare.Proofs.Envelope.Acceptance
import PowerShare.Proofs.Envelope.Codec
import PowerShare.Proofs.Envelope.Follows
import PowerShare.Proofs.Envelope.Layout
import PowerShare.Proofs.Envelope.Stream
import PowerShare.Proofs.Folder
import PowerShare.Proofs.Json.Grammar
import PowerShare.Proofs.Json.Joined
import PowerShare.Proofs.Json.Key
import PowerShare.Proofs.Json.Line
import PowerShare.Proofs.Json.Local
import PowerShare.Proofs.Json.NumberText
import PowerShare.Proofs.Json.Numeral
import PowerShare.Proofs.Json.Record
import PowerShare.Proofs.Json.RecordSpelling
import PowerShare.Proofs.Json.Scalar
import PowerShare.Proofs.Json.ShortNumeral
import PowerShare.Proofs.Json.Skipping
import PowerShare.Proofs.Json.Spelling
import PowerShare.Proofs.Json.Start
import PowerShare.Proofs.Json.Text
import PowerShare.Proofs.Json.Tokens
import PowerShare.Proofs.Json.Writing
import PowerShare.Proofs.Json.Written
import PowerShare.Proofs.Listing
import PowerShare.Proofs.Number.Addition
import PowerShare.Proofs.Number.Bound
import PowerShare.Proofs.Number.Digits
import PowerShare.Proofs.Number.Exact
import PowerShare.Proofs.Number.Monotone
import PowerShare.Proofs.Number.Nearest
import PowerShare.Proofs.Number.Shortest
import PowerShare.Proofs.Number.Sum
import PowerShare.Proofs.Number.TotalOrder
import PowerShare.Proofs.Reader
import PowerShare.Proofs.Report.Ranking
import PowerShare.Proofs.Report.Texts
import PowerShare.Proofs.Sample.ConsumerKeys
import PowerShare.Proofs.Sample.Joined
import PowerShare.Proofs.Sample.RoundTrip
import PowerShare.Proofs.Sample.Spelling
import PowerShare.Proofs.Settings.Leaves
import PowerShare.Proofs.Settings.NumberText
import PowerShare.Proofs.Settings.ProfileText
import PowerShare.Proofs.Settings.Records
import PowerShare.Proofs.Settings.Tree
import PowerShare.Proofs.Settings.Variables
import PowerShare.Proofs.Sink
import PowerShare.Proofs.Sink.Lines
import PowerShare.Proofs.SortedMap
import PowerShare.Proofs.Tally
import PowerShare.Proofs.Toml.Lines
import PowerShare.Proofs.Toml.Numbers
import PowerShare.Proofs.Toml.Tables
import PowerShare.Proofs.Toml.Tokens
import PowerShare.Reader
import PowerShare.Report
import PowerShare.Report.Document
import PowerShare.Sample
import PowerShare.Sample.Document
import PowerShare.Sample.Reading
import PowerShare.Settings
import PowerShare.Settings.Conversion
import PowerShare.Settings.Path
import PowerShare.Settings.Tree
import PowerShare.Sink
import PowerShare.SystemUsage
import PowerShare.Tally
import PowerShare.Text.Case
import PowerShare.Text.Letters
import PowerShare.Text.Lowercase
import PowerShare.Text.Pattern
import PowerShare.Text.Pattern.Reading
import PowerShare.Text.Printable
import PowerShare.Text.Ranges
import PowerShare.Text.Shown
import PowerShare.Text.Split
import PowerShare.Text.Terminal
import PowerShare.Text.Utf8
import PowerShare.Toml.Moment
import PowerShare.Toml.Number
import PowerShare.Toml.Reading
import PowerShare.Toml.Token
import PowerShare.Toml.Value
