import BookLibrary.Interleaving.Contract
import BookLibrary.Interleaving.Schedule
import BookLibrary.TokenSession.Service
import BookLibrary.TokenSession.Conduct
import BookLibrary.TokenSession.Effects
import BookLibrary.TokenSession.Lineage
import BookLibrary.TokenSession.Markers
import BookLibrary.TokenSession.Execution
import BookLibrary.TokenSession.Rotation
import BookLibrary.TokenSession.Replay
import BookLibrary.TokenSession.Lease
import BookLibrary.TokenSession.Reconciliation
import BookLibrary.AuthThrottle.Service
import BookLibrary.AuthThrottle.Consumption
import BookLibrary.Interleaving.Lifting
import BookLibrary.AuthIdentifiers.Documents
import BookLibrary.SignIn.Documents
import BookLibrary.SignIn.Guard
import BookLibrary.SignIn.SourceLimit
import BookLibrary.SignIn.Execution
import BookLibrary.SignIn.Lockout
import BookLibrary.Interleaving.Sequential
import BookLibrary.Transactions.Machine
import BookLibrary.Transactions.Contract
import BookLibrary.Circulation.Documents
import BookLibrary.Circulation.Service
import BookLibrary.Transactions.Schedule
import BookLibrary.Circulation.Effects
import BookLibrary.Circulation.Loans
import BookLibrary.Circulation.Execution
import BookLibrary.Circulation.Inventory
import BookLibrary.TokenSession.Lifecycle
import BookLibrary.TokenSession.SignOut
import BookLibrary.Accounts.Documents
import BookLibrary.Accounts.Service
import BookLibrary.Accounts.Members
import BookLibrary.Accounts.StaffUsers
import BookLibrary.Accounts.Effects
import BookLibrary.Accounts.Conduct
import BookLibrary.Accounts.Reservations
import BookLibrary.Accounts.AuthIdentifiers
import BookLibrary.Accounts.AuthVersions
import BookLibrary.Accounts.Attempts
import BookLibrary.Accounts.Compensation
import BookLibrary.Accounts.StaffCompensation
import BookLibrary.Accounts.FailedUpdates
import BookLibrary.Operations.Conduct
import BookLibrary.Operations.Execution
import BookLibrary.Operations.Growth
import BookLibrary.Operations.Lifecycle
import BookLibrary.Operations.Verdicts
import BookLibrary.Operations.Expiry
import BookLibrary.Operations.Replay
import BookLibrary.Accounts.MemberEdits
import BookLibrary.AuthThrottle.Generations
import BookLibrary.AuthThrottle.Rotation
import BookLibrary.Circulation.Catalogue
import BookLibrary.Circulation.Listing
import BookLibrary.Membership.Execution
import BookLibrary.Membership.Limits
import BookLibrary.Operations.Resumption
import BookLibrary.Operations.Mappings
import BookLibrary.SignIn.Resolution
import BookLibrary.SignIn.Stranding
import BookLibrary.TokenSession.Passes
import BookLibrary.TokenSession.Backlog
import BookLibrary.Migrations.Idempotence
import BookLibrary.Operations.Rounds
import BookLibrary.Operations.Recovery
import BookLibrary.Operations.Writers
import BookLibrary.Accounts.Agreement
import BookLibrary.BrowserSession.Generations
import BookLibrary.AuthThrottle.RetryAfter
import BookLibrary.AuthThrottle.SourceIdentity
import BookLibrary.BrowserOrigin.Warnings
import BookLibrary.SecurityActivity.Redaction
import BookLibrary.Search.Literal
import BookLibrary.Quality.DiffExactness
import BookLibrary.Migrations.Coverage
import BookLibrary.Operations.Canonicalization
import BookLibrary.Quality.MutationGate
import BookLibrary.Access.Retention
import BookLibrary.Quality.TestTotals
import BookLibrary.Operations.SagaWrites
import BookLibrary.Operations.Blocking
import BookLibrary.Accounts.Retries
import BookLibrary.Access.Guards
import BookLibrary.Circulation.SelfService
import BookLibrary.Documents.Paging
import BookLibrary.SecurityActivity.Trail
import BookLibrary.SecurityActivity.Listing
import BookLibrary.Quality.Lcov
import BookLibrary.Quality.CoverageGate
import BookLibrary.Quality.Ratchet
import BookLibrary.Text.Base64url
import BookLibrary.Configuration.AuthConfig
import BookLibrary.Configuration.KeyRing
import BookLibrary.Operations.RepairKeys
import BookLibrary.Configuration.KeyPolicy
import BookLibrary.Interleaving.Within
import BookLibrary.AuthThrottle.ReferencedKeys
import BookLibrary.Configuration.Rotation
import BookLibrary.Migrations.Runner
import BookLibrary.Migrations.Versions
import BookLibrary.Transactions.Settlement
import BookLibrary.Migrations.RunnerWalks
import BookLibrary.Migrations.Releases
import BookLibrary.Migrations.Ordering
import BookLibrary.Migrations.RequiredIndexes
import BookLibrary.Text.Edits
import BookLibrary.Quality.CandidateManifest
import BookLibrary.Quality.CandidateEdits
