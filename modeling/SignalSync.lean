import SignalSync.Auth.Barred
import SignalSync.Auth.Sessions
import SignalSync.Auth.Verification
import SignalSync.Auth.Parties
import SignalSync.Billing.Cancellation
import SignalSync.Billing.Paying
import SignalSync.Library.Ledger
import SignalSync.Affiliates.Commissions
import SignalSync.Copying.Closes
import SignalSync.Copying.Generations
import SignalSync.Execution.Accepted
import SignalSync.Execution.Exposure
import SignalSync.Execution.Once
import SignalSync.Execution.Outcome
import SignalSync.Execution.Protection
import SignalSync.Execution.Stranded
import SignalSync.Execution.Tracked
import SignalSync.Execution.Verdict
import SignalSync.Provisioning.Convergence
import SignalSync.Signal.Isolation
import SignalSync.Signal.Deadline
import SignalSync.Signal.Content
import SignalSync.Signal.Retry
import SignalSync.Library.Words
import SignalSync.Telegram.Updates
import SignalSync.Stream.Serial
import SignalSync.Execution.Pauses
import SignalSync.Execution.Emergency
import SignalSync.Routes.Suspensions
import SignalSync.Routes.Configuration
import SignalSync.Routes.Accounts
import SignalSync.Telegram.Cursor
import SignalSync.Stream.Attempts
import SignalSync.Signal.Parser
import SignalSync.Library.Transaction
import SignalSync.Billing.Webhook
import SignalSync.Provisioning.Capacity
import SignalSync.Library.Upsert
import SignalSync.Accounts.ManualSync
import SignalSync.Accounts.Bootstrap
import SignalSync.Accounts.Ingestion
import SignalSync.Ai.Cache
import SignalSync.Library.Scan
import SignalSync.Signal.Rendering
import SignalSync.Signal.Line
import SignalSync.Signal.RoundTrip
import SignalSync.Signal.Replies
import SignalSync.Library.Grouping
import SignalSync.Journal.Analytics
import SignalSync.Stream.Executor
import SignalSync.Execution.Targets
import SignalSync.Execution.Volumes
import SignalSync.Signal.Revisions
import SignalSync.Execution.Matching
import SignalSync.Signal.Preview
import SignalSync.Execution.Finished
import SignalSync.Affiliates.Dashboard
import SignalSync.Accounts.Bulk
import SignalSync.Library.Pages
import SignalSync.Activity.Pages
import SignalSync.Signal.Spellings
import SignalSync.Execution.EntryZones
import SignalSync.Execution.Sweep
import SignalSync.Provisioning.Recreation
import SignalSync.Provisioning.Cleanup
import SignalSync.Billing.PlanChange
import SignalSync.Affiliates.Refunds
import SignalSync.Signal.Choice
import SignalSync.Execution.Mappings
import SignalSync.Execution.Equity
import SignalSync.Journal.Zones
import SignalSync.Journal.Combined
import SignalSync.CsvImport.Positions
import SignalSync.CsvImport.Service
import SignalSync.CsvImport.Balances
import SignalSync.Accounts.Polling
import SignalSync.Library.Drawdown
import SignalSync.Journal.Evaluation
import SignalSync.Journal.Curves
import SignalSync.Library.Grid
import SignalSync.Library.Least
import SignalSync.Execution.Catalog
import SignalSync.Library.Stated
import SignalSync.Signal.Fragments
import SignalSync.Execution.Snapshot
import SignalSync.Execution.Drift
import SignalSync.Library.Captures
import SignalSync.Signal.Numerals
import SignalSync.Signal.Prices
import SignalSync.Signal.Blanks
import SignalSync.Signal.Openings
import SignalSync.Execution.Connections
import SignalSync.Copying.Numbering
import SignalSync.Ai.Quota
import SignalSync.Library.Lease
import SignalSync.Telegram.Ownership
import SignalSync.Provisioning.Lock
import SignalSync.Library.Owned
import SignalSync.Journal.Labels
import SignalSync.Telegram.SignIn
import SignalSync.Billing.Checkout
import SignalSync.Journal.Breakdowns
import SignalSync.Auth.Purge
