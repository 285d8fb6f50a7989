import TelemetryRelay.Archive.Memory
import TelemetryRelay.Catalog.Sharing
import TelemetryRelay.Clients.Listener
import TelemetryRelay.Clients.Session
import TelemetryRelay.Clients.Sharing
import TelemetryRelay.Configuration.FileTree
import TelemetryRelay.Dictionary.Registration
import TelemetryRelay.Http.Server
import TelemetryRelay.Main
import TelemetryRelay.Server.Background
import TelemetryRelay.Proofs.Configuration.Uniqueness
import TelemetryRelay.Proofs.Dictionary.Registered
import TelemetryRelay.Proofs.Dictionary.Registration
import TelemetryRelay.Proofs.Decimal.Order
import TelemetryRelay.Proofs.Relay.Trace
import TelemetryRelay.Proofs.Relay.Ledger
import TelemetryRelay.Proofs.Relay.Verdict
import TelemetryRelay.Proofs.Relay.Accounting
import TelemetryRelay.Proofs.Relay.Settling
import TelemetryRelay.Proofs.Relay.Archiving
import TelemetryRelay.Proofs.Catalog.ReadBack
import TelemetryRelay.Proofs.Clients.Broadcast
import TelemetryRelay.Proofs.Clients.View
import TelemetryRelay.Proofs.Clients.Delivery
import TelemetryRelay.Proofs.Clients.Feed
import TelemetryRelay.Proofs.Server.Startup
import TelemetryRelay.Proofs.Server.Shutdown
import TelemetryRelay.Proofs.Server.OwnStop
import TelemetryRelay.Proofs.Server.Lifetime
import TelemetryRelay.Proofs.Server.Completion
import TelemetryRelay.Proofs.Server.LiveFeed
import TelemetryRelay.Proofs.Server.Leftover
import TelemetryRelay.Proofs.Server.Subscriptions
import TelemetryRelay.Proofs.Clients.Closing
import TelemetryRelay.Proofs.Archive.Escaping
import TelemetryRelay.Proofs.Decimal.Digits
import TelemetryRelay.Proofs.Archive.Lines
import TelemetryRelay.Proofs.Dictionary.Document
import TelemetryRelay.Proofs.Http.Reachable
import TelemetryRelay.Proofs.Json.Grammar
import TelemetryRelay.Proofs.Decimal.Grid
import TelemetryRelay.Proofs.Decimal.Rounding
import TelemetryRelay.Proofs.Decimal.Arithmetic
import TelemetryRelay.Proofs.Json.Evaluation
import TelemetryRelay.Proofs.Frame.Decoding
import TelemetryRelay.Proofs.Decimal.Shortest
import TelemetryRelay.Proofs.Decimal.Error
import TelemetryRelay.Proofs.Json.Accuracy
import TelemetryRelay.Proofs.Json.Numerals
import TelemetryRelay.Proofs.Json.Doubles
import TelemetryRelay.Proofs.Json.Printing
import TelemetryRelay.Proofs.Frame.RoundTrip
import TelemetryRelay.Proofs.Clients.Sharing
import TelemetryRelay.Proofs.Clients.OwnQueue
import TelemetryRelay.Proofs.Clients.SessionTrace
import TelemetryRelay.Proofs.Clients.Serving
import TelemetryRelay.Proofs.Server.Validation
import TelemetryRelay.Proofs.Configuration.Settings
import TelemetryRelay.Proofs.Dictionary.Declarations
import TelemetryRelay.Proofs.Dictionary.Acceptance
import TelemetryRelay.Proofs.Archive.Buckets
import TelemetryRelay.Proofs.Catalog.Sharing
import TelemetryRelay.Proofs.Decimal.Addition
import TelemetryRelay.Proofs.Archive.Downsampling
import TelemetryRelay.Proofs.Archive.Averages
import TelemetryRelay.Proofs.Http.Query
import TelemetryRelay.Proofs.Http.History
import TelemetryRelay.Proofs.Url.Authority
import TelemetryRelay.Proofs.Url.Punycode
import TelemetryRelay.Proofs.Url.Reading
import TelemetryRelay.Proofs.Configuration.ArchivePort
import TelemetryRelay.Proofs.Archive.Queries
import TelemetryRelay.Proofs.Json.Readers
import TelemetryRelay.Proofs.Json.Skipping
import TelemetryRelay.Proofs.Json.Records
import TelemetryRelay.Proofs.Schema.Conversion
import TelemetryRelay.Proofs.Archive.Answers
import TelemetryRelay.Proofs.Archive.Responses
import TelemetryRelay.Proofs.Url.Domain
import TelemetryRelay.Proofs.Url.Ipv4
import TelemetryRelay.Proofs.Url.Ipv6
import TelemetryRelay.Proofs.Url.Host
import TelemetryRelay.Proofs.Url.Path
import TelemetryRelay.Proofs.Url.Canonical
import TelemetryRelay.Proofs.Url.Rereading
import TelemetryRelay.Proofs.Archive.Requests
