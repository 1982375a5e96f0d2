import Telemetry.Address
import Telemetry.Agent
import Telemetry.Agent.Sites
import Telemetry.Collector
import Telemetry.Command
import Telemetry.Conversion
import Telemetry.Dict
import Telemetry.Double
import Telemetry.Double.Decimal
import Telemetry.Duration
import Telemetry.Envelope
import Telemetry.Envelope.Decoding
import Telemetry.Exposition.Entry
import Telemetry.Exposition.Reading
import Telemetry.Exposition.SampleSyntax
import Telemetry.Exposition.Text
import Telemetry.Exposition.Transcript
import Telemetry.Family
import Telemetry.Family.Merge
import Telemetry.Files
import Telemetry.Gathering
import Telemetry.Histogram
import Telemetry.Http
import Telemetry.Http.Form
import Telemetry.Http.MetricsSite
import Telemetry.Http.Target
import Telemetry.Identity
import Telemetry.Intake
import Telemetry.Intake.Door
import Telemetry.Intake.SocketPath
import Telemetry.Json
import Telemetry.Json.Decoding
import Telemetry.Json.Reading
import Telemetry.Json.Token
import Telemetry.Log
import Telemetry.Main
import Telemetry.Pipeline
import Telemetry.Queue
import Telemetry.Registry
import Telemetry.Registry.Tally
import Telemetry.Run
import Telemetry.Scrape
import Telemetry.Scrape.Certificate
import Telemetry.Scrape.Credentials
import Telemetry.Scrape.Fetch
import Telemetry.Scrape.Header
import Telemetry.Scrape.Pem
import Telemetry.Settings
import Telemetry.Settings.Checking
import Telemetry.Settings.Loading
import Telemetry.Settings.Written
import Telemetry.Store
import Telemetry.Table
import Telemetry.Text.Base64
import Telemetry.Text.Blank
import Telemetry.Text.ByteOrder
import Telemetry.Text.Hex
import Telemetry.Text.Percent
import Telemetry.Text.Utf16
import Telemetry.Text.Utf8
import Telemetry.Text.Word
import Telemetry.Toml
import Telemetry.Toml.Document
import Telemetry.Toml.Scalar
import Telemetry.Version
import Telemetry.Proofs.Collector.Run
import Telemetry.Proofs.Queue
import Telemetry.Proofs.Queue.Waking
import Telemetry.Proofs.Lookup
import Telemetry.Proofs.Pipeline
import Telemetry.Proofs.Store.Flat
import Telemetry.Proofs.Store.Expiry
import Telemetry.Proofs.Conversion
import Telemetry.Proofs.Merging
import Telemetry.Proofs.Merging.Reordered
import Telemetry.Proofs.Gathering.Interleaving
import Telemetry.Proofs.Gathering.Plan
import Telemetry.Proofs.Gathering.Aggregate
import Telemetry.Proofs.Store.Series
import Telemetry.Proofs.Double.RoundTrip
import Telemetry.Proofs.Exposition.Spelling
import Telemetry.Proofs.Exposition.Plain
import Telemetry.Proofs.Exposition.Written
import Telemetry.Proofs.Exposition.Gathered
import Telemetry.Proofs.Exposition.Transcribed
import Telemetry.Proofs.Exposition.RoundTrip
import Telemetry.Proofs.Exposition.Represented
import Telemetry.Proofs.Agent.Balance
import Telemetry.Proofs.Histogram
import Telemetry.Proofs.Store.History
import Telemetry.Proofs.Conversion.Labels
import Telemetry.Proofs.Totals
import Telemetry.Proofs.Agent.Conservation
import Telemetry.Proofs.Scrape.Failures
import Telemetry.Proofs.Scrape.Isolation
import Telemetry.Proofs.Scrape.Views
import Telemetry.Proofs.Intake.Connection
import Telemetry.Proofs.Settings
import Telemetry.Proofs.Agent.Failures
import Telemetry.Proofs.Conversion.Defaults
import Telemetry.Proofs.Agent.Dispatch
import Telemetry.Proofs.Store.Named
import Telemetry.Proofs.Exposition.Reordered
import Telemetry.Proofs.Exposition.AnyOrder
import Telemetry.Proofs.Exposition.Regrouped
import Telemetry.Proofs.Conversion.Remarks
import Telemetry.Proofs.Conversion.Exact
import Telemetry.Proofs.Conversion.Reserved
import Telemetry.Proofs.Collector.AllOrNothing
import Telemetry.Proofs.Merging.Laws
import Telemetry.Proofs.Totals.History
import Telemetry.Proofs.Json
import Telemetry.Proofs.Totals.Carried
import Telemetry.Proofs.Identity
import Telemetry.Proofs.Identity.Faithful
import Telemetry.Proofs.Store.Collected
import Telemetry.Proofs.Double.Numerals
import Telemetry.Proofs.Exposition.Grammar
import Telemetry.Proofs.Exposition.Unforged
import Telemetry.Proofs.Exposition.Declared
import Telemetry.Proofs.Exposition.Outcome
import Telemetry.Proofs.Double.Order
import Telemetry.Proofs.Histogram.Cumulative
import Telemetry.Proofs.Text.Utf8
import Telemetry.Proofs.Scrape.Bodies
import Telemetry.Proofs.Timer
import Telemetry.Proofs.Store.Timers
import Telemetry.Proofs.Queue.Forgetting
import Telemetry.Proofs.Intake.Admission
import Telemetry.Proofs.Registry
import Telemetry.Proofs.Registry.Sharing
import Telemetry.Proofs.Settings.Accepted
import Telemetry.Proofs.Agent.Hiding
import Telemetry.Proofs.Exposition.Moved
