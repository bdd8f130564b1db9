import BaptistApi.Lib.Program
import BaptistApi.Lib.FixedPoint
import BaptistApi.Lib.Transactions
import BaptistApi.Lib.Calendar
import BaptistApi.Lib.RowSecurity
import BaptistApi.Lib.Catalog
import BaptistApi.Lib.Pool
import BaptistApi.Json
import BaptistApi.Schema
import BaptistApi.Constraints
import BaptistApi.Session
import BaptistApi.Policies
import BaptistApi.Statement
import BaptistApi.Audit
import BaptistApi.Access
import BaptistApi.Ownership
import BaptistApi.AuditTrail
import BaptistApi.Migrations
import BaptistApi.MigrationPaths
import BaptistApi.UuidText
import BaptistApi.Binding
import BaptistApi.Problem
import BaptistApi.Http
import BaptistApi.Isolation
import BaptistApi.Writes
import BaptistApi.Answers
import BaptistApi.Cost
import BaptistApi.Ladder
import BaptistApi.LadderExec
import BaptistApi.LadderSpec
import BaptistApi.LadderStages
import BaptistApi.LadderInvariant
import BaptistApi.LadderAlone
import BaptistApi.Agreement
import BaptistApi.Dispatches
import BaptistApi.MonthlyCap
import BaptistApi.Commitments
import BaptistApi.Price
import BaptistApi.Gates
import BaptistApi.Drift
import BaptistApi.Replay
import BaptistApi.Records
import BaptistApi.Payload
import BaptistApi.RoundTrip
import BaptistApi.Original
import BaptistApi.References
import BaptistApi.Lib.Attempts
import BaptistApi.Attempts
import BaptistApi.Lib.History
import BaptistApi.GateReads
import BaptistApi.Leftovers
import BaptistApi.ErrorCodes
import BaptistApi.Patches
import BaptistApi.PatchStages
import BaptistApi.PatchOrder
import BaptistApi.Lib.Windows
import BaptistApi.Paging
import BaptistApi.Search
import BaptistApi.WriteAnswers
import BaptistApi.PyUuid
import BaptistApi.Claims
import BaptistApi.Tokens
import BaptistApi.Etags
import BaptistApi.Lib.Tiling
import BaptistApi.MonthSpend
import BaptistApi.Lib.SingleFlight
import BaptistApi.JwksRuns
import BaptistApi.Lib.Progress
import BaptistApi.Lib.Landing
import BaptistApi.Endings
import BaptistApi.Lib.Noninterference
import BaptistApi.Api
import BaptistApi.ApiIsolation
import BaptistApi.Lib.Registers
import BaptistApi.Registers
import BaptistApi.Lib.Separated
import BaptistApi.Config
import BaptistApi.Authority
import BaptistApi.Lib.Dialogue
import BaptistApi.Rungs
import BaptistApi.Walks
import BaptistApi.Lib.Journal
import BaptistApi.Books
import BaptistApi.Lib.Serial
import BaptistApi.Service
import BaptistApi.ServiceStages
import BaptistApi.ServiceRuns
import BaptistApi.ServiceTenants
import BaptistApi.Lib.Bystanders
import BaptistApi.TenantBooks
import BaptistApi.LadderTenants
import BaptistApi.RoutesAnyTime
import BaptistApi.RouteTenants
