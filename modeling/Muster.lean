import Muster.Capacity.Budget
import Muster.Capacity.Counts
import Muster.Capacity.Pending
import Muster.Config
import Muster.Config.ProviderSpec
import Muster.Count
import Muster.Event
import Muster.Event.Json
import Muster.Host.Assembly
import Muster.Host.Background
import Muster.Host.Basic
import Muster.Host.Clock
import Muster.Host.LoadGenerator
import Muster.Host.Signal
import Muster.Host.Worker
import Muster.Id
import Muster.Id.Text
import Muster.Instant
import Muster.Instant.Text
import Muster.Json
import Muster.Json.Text
import Muster.Limiter
import Muster.Main
import Muster.Model
import Muster.Model.Json
import Muster.Proofs.Allocation
import Muster.Proofs.Bare
import Muster.Proofs.Ceilings
import Muster.Proofs.Chronology
import Muster.Proofs.Confluence
import Muster.Proofs.Conservation
import Muster.Proofs.Coverage
import Muster.Proofs.Dates
import Muster.Proofs.Declarations
import Muster.Proofs.Deliveries
import Muster.Proofs.Docket
import Muster.Proofs.Exclusion
import Muster.Proofs.Facets
import Muster.Proofs.Failures
import Muster.Proofs.FastPath
import Muster.Proofs.FirstFit
import Muster.Proofs.Grants
import Muster.Proofs.Heirs
import Muster.Proofs.Identifiers
import Muster.Proofs.InFlight
import Muster.Proofs.Independence
import Muster.Proofs.Lines
import Muster.Proofs.Links
import Muster.Proofs.LiveLinks
import Muster.Proofs.Loads
import Muster.Proofs.Lockstep
import Muster.Proofs.Muted
import Muster.Proofs.Numerals
import Muster.Proofs.OldestFirst
import Muster.Proofs.Operations
import Muster.Proofs.Ordinals
import Muster.Proofs.Overflow
import Muster.Proofs.Passes
import Muster.Proofs.Precedence
import Muster.Proofs.Progress
import Muster.Proofs.ReadyWork
import Muster.Proofs.Records
import Muster.Proofs.Replanning
import Muster.Proofs.Reports
import Muster.Proofs.Requests
import Muster.Proofs.Rounds
import Muster.Proofs.Run
import Muster.Proofs.Settings
import Muster.Proofs.Shutdown
import Muster.Proofs.SideBySide
import Muster.Proofs.Snapshots
import Muster.Proofs.Stage
import Muster.Proofs.Stock
import Muster.Proofs.Stride
import Muster.Proofs.Submissions
import Muster.Proofs.Sums
import Muster.Proofs.Tables
import Muster.Proofs.Timestamps
import Muster.Proofs.Triggers
import Muster.Proofs.Usage
import Muster.Proofs.Visits
import Muster.Provider
import Muster.Queue
import Muster.Review.Chain
import Muster.Review.ClassLocks
import Muster.Review.Cycle
import Muster.Review.Engine
import Muster.Review.Requests
import Muster.Review.Scripted
import Muster.Review.Site
import Muster.Review.State
import Muster.Review.System
import Muster.Table
import Muster.Text.Decimal
import Muster.Text.Printable
import Muster.Text.Split
