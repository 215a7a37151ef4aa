import Licensing.Bundle.Definition
import Licensing.Bundle.Load
import Licensing.Bundle.Registry
import Licensing.Cache.History
import Licensing.Cache.Machine
import Licensing.Cache.Restriction
import Licensing.Cache.Store
import Licensing.Cache.Timeline
import Licensing.Cli
import Licensing.Client.Access
import Licensing.Client.Accounts
import Licensing.Client.Build
import Licensing.Client.Directory
import Licensing.Client.Exchange
import Licensing.Client.Features
import Licensing.Client.Reading
import Licensing.Client.Screening
import Licensing.Decision
import Licensing.Envelope
import Licensing.Evaluations
import Licensing.Evaluator
import Licensing.FeatureSource
import Licensing.Features
import Licensing.Files
import Licensing.Form
import Licensing.Identity.Basic
import Licensing.Identity.Header
import Licensing.Identity.Variation
import Licensing.Json.Document
import Licensing.Json.Grammar
import Licensing.Json.Lookup
import Licensing.Json.Record
import Licensing.Json.Value
import Licensing.LogFilter
import Licensing.Main
import Licensing.Metrics
import Licensing.OrderedMap
import Licensing.Proofs.Bundle.Expansion
import Licensing.Proofs.Bundle.Registry
import Licensing.Proofs.Cache.Census
import Licensing.Proofs.Cache.Coalescing
import Licensing.Proofs.Cache.Forced
import Licensing.Proofs.Cache.Isolation
import Licensing.Proofs.Cache.Locks
import Licensing.Proofs.Cache.Recency
import Licensing.Proofs.Cache.Register
import Licensing.Proofs.Cache.Run
import Licensing.Proofs.Cache.SingleFlight
import Licensing.Proofs.Cache.Step
import Licensing.Proofs.Cache.Tickets
import Licensing.Proofs.Cache.Timeline
import Licensing.Proofs.Client.Access
import Licensing.Proofs.Client.Accounts
import Licensing.Proofs.Client.Failures
import Licensing.Proofs.Client.Features
import Licensing.Proofs.Client.Lifetimes
import Licensing.Proofs.Client.Reading
import Licensing.Proofs.Client.Refusals
import Licensing.Proofs.Client.Tokens
import Licensing.Proofs.Decision
import Licensing.Proofs.Evaluations
import Licensing.Proofs.Filter
import Licensing.Proofs.Form
import Licensing.Proofs.Identity.Header
import Licensing.Proofs.Identity.Variation
import Licensing.Proofs.Json.Grammar
import Licensing.Proofs.Json.Reading
import Licensing.Proofs.Json.Record
import Licensing.Proofs.Json.Token
import Licensing.Proofs.Metrics
import Licensing.Proofs.OrderedMap
import Licensing.Proofs.Ruling
import Licensing.Proofs.Seat.AllOrNothing
import Licensing.Proofs.Seat.Allocation
import Licensing.Proofs.Seat.Assignment
import Licensing.Proofs.Seat.Paging
import Licensing.Proofs.Seat.Passage
import Licensing.Proofs.Seat.Revocation
import Licensing.Proofs.Seat.Screening
import Licensing.Proofs.Seat.Search
import Licensing.Proofs.Seat.Subscriptions
import Licensing.Proofs.Seat.Tenancy
import Licensing.Proofs.Seat.Unaffiliated
import Licensing.Proofs.Service.Degradation
import Licensing.Proofs.Service.Following
import Licensing.Proofs.Service.Links
import Licensing.Proofs.Service.Metering
import Licensing.Proofs.Service.Rearranging
import Licensing.Proofs.Service.Reports
import Licensing.Proofs.Service.SeatErrors
import Licensing.Proofs.Service.Selection
import Licensing.Proofs.Service.Serving
import Licensing.Proofs.Service.Walk
import Licensing.Proofs.Settings.Acceptance
import Licensing.Proofs.Settings.Blanks
import Licensing.Proofs.Settings.Loading
import Licensing.Proofs.Settings.Variables
import Licensing.Proofs.Text.Blank
import Licensing.Proofs.Text.Decimal
import Licensing.Proofs.Text.Percent
import Licensing.Proofs.Text.Split
import Licensing.Proofs.Url.Path
import Licensing.Proofs.Url.Query
import Licensing.Remote
import Licensing.Seat.Dialogue
import Licensing.Seat.Manager
import Licensing.Seat.Memory
import Licensing.Seat.Paging
import Licensing.Seat.Search
import Licensing.Seat.Types
import Licensing.Seat.Visit
import Licensing.Service.Handlers
import Licensing.Service.Message
import Licensing.Service.Query
import Licensing.Service.Router
import Licensing.Service.Serving
import Licensing.Service.Start
import Licensing.Service.Traffic
import Licensing.Settings
import Licensing.Text.Base64
import Licensing.Text.Blank
import Licensing.Text.Decimal
import Licensing.Text.Percent
import Licensing.Text.Shortest
import Licensing.Text.Split
import Licensing.Text.Utf8
import Licensing.Tls.Material
import Licensing.Tls.Pem
import Licensing.Url.Basic
import Licensing.Url.Host
import Licensing.Url.Parse
import Licensing.Url.Punycode
import Licensing.Yaml.Cursor
import Licensing.Yaml.Node
import Licensing.Yaml.Property
import Licensing.Yaml.Scalar
import Licensing.Yaml.Scan
import Licensing.Yaml.Token
