import ReviewFlow.Savepoint
import ReviewFlow.Rollback
import ReviewFlow.Succession
import ReviewFlow.Interleaving
import ReviewFlow.RowLocks
import ReviewFlow.Table
import ReviewFlow.RowSecurity
import ReviewFlow.Values
import ReviewFlow.Billing.Models
import ReviewFlow.Billing.Provider
import ReviewFlow.Billing.Entitlement
import ReviewFlow.Billing.RowTransitions
import ReviewFlow.Billing.Abandon
import ReviewFlow.Billing.Snapshot
import ReviewFlow.Billing.Replacement
import ReviewFlow.Billing.Commit
import ReviewFlow.Billing.Dunning
import ReviewFlow.Billing.Checkout
import ReviewFlow.Billing.Cancel
import ReviewFlow.Billing.Moves
import ReviewFlow.Billing.RequestMoves
import ReviewFlow.Billing.Tasks
import ReviewFlow.Billing.TaskSteps
import ReviewFlow.Billing.System
import ReviewFlow.Billing.Threads
import ReviewFlow.Billing.PaidEntitlement
import ReviewFlow.Billing.Reactivation
import ReviewFlow.Billing.References
import ReviewFlow.Billing.Commitment
import ReviewFlow.Billing.OwedCancel
import ReviewFlow.Billing.Usage
import ReviewFlow.Billing.Quota
import ReviewFlow.Billing.UsagePeriods
import ReviewFlow.Billing.FailedRequests
import ReviewFlow.Billing.Signals
import ReviewFlow.Billing.CheckoutCancels
import ReviewFlow.Billing.Saves
import ReviewFlow.Billing.RequestSaves
import ReviewFlow.Billing.TaskSaves
import ReviewFlow.Billing.CancelKept
import ReviewFlow.Billing.RetiredTrail
import ReviewFlow.Billing.SlotDiscipline
import ReviewFlow.Billing.ImmediateCancels
import ReviewFlow.Billing.ReadOrder
import ReviewFlow.Billing.DoubleSubmit
import ReviewFlow.Billing.Constraints
import ReviewFlow.Billing.Ledger
import ReviewFlow.Billing.Frames
import ReviewFlow.Billing.MappingTable
import ReviewFlow.Billing.Reapplied
import ReviewFlow.Billing.PaymentLedger
import ReviewFlow.Billing.StrandedPayments
import ReviewFlow.Accounts.Models
import ReviewFlow.Accounts.Services
import ReviewFlow.Accounts.Rules
import ReviewFlow.Accounts.Changes
import ReviewFlow.Accounts.Team
import ReviewFlow.Accounts.Authority
import ReviewFlow.Accounts.Assignments
import ReviewFlow.Tenancy.Context
import ReviewFlow.Tenancy.WhatsAppAccounts
import ReviewFlow.Sales.RecordSale
import ReviewFlow.Sales.Threads
import ReviewFlow.Sales.Counters
import ReviewFlow.WhatsApp.FanOut
import ReviewFlow.Python.Decimal
import ReviewFlow.Python.Text
import ReviewFlow.Integrations.Schemas
import ReviewFlow.Integrations.Adapters
import ReviewFlow.Integrations.Escapes
import ReviewFlow.Integrations.WellFormed
import ReviewFlow.Events.Services
import ReviewFlow.Events.Lifecycle
import ReviewFlow.GoogleReviews.Models
import ReviewFlow.GoogleReviews.Services
import ReviewFlow.GoogleReviews.Effects
import ReviewFlow.GoogleReviews.OAuth
import ReviewFlow.GoogleReviews.TokenRefresh
import ReviewFlow.GoogleReviews.Reviews
import ReviewFlow.GoogleReviews.Provenance
import ReviewFlow.TwoFactor.Services
import ReviewFlow.TwoFactor.SingleUse
import ReviewFlow.Accounts.Platform
import ReviewFlow.Accounts.Invitations
import ReviewFlow.Accounts.InviteTokens
import ReviewFlow.WhatsApp.Senders
import ReviewFlow.WhatsApp.MappedSenders
import ReviewFlow.WhatsApp.Templates
import ReviewFlow.WhatsApp.Submissions
import ReviewFlow.Integrations.Mappings
import ReviewFlow.Integrations.MappingSets
import ReviewFlow.Integrations.Shopify
import ReviewFlow.Integrations.Compensation
import ReviewFlow.Billing.Deadlines
import ReviewFlow.Billing.GraceClock
import ReviewFlow.Billing.QuotaShown
import ReviewFlow.Events.Receipts
import ReviewFlow.Separators
import ReviewFlow.Integrations.Receipts
import ReviewFlow.Integrations.Callback
import ReviewFlow.Billing.Restored
import ReviewFlow.Integrations.JsonTree
import ReviewFlow.WhatsApp.Webhooks
import ReviewFlow.FirstWins
import ReviewFlow.Integrations.CsvRuns
import ReviewFlow.Exceptions
import ReviewFlow.GoogleReviews.BusinessProfile
import ReviewFlow.GoogleReviews.Answers
import ReviewFlow.WhatsApp.HeldMappings
import ReviewFlow.WhatsApp.SenderProgress
import ReviewFlow.WhatsApp.SenderRaces
import ReviewFlow.Loops
import ReviewFlow.GoogleReviews.Paging
import ReviewFlow.ApiKeys.Trail
import ReviewFlow.Sessions.Logins
import ReviewFlow.Tenancy.Lookups
import ReviewFlow.Integrations.ProcessingTraced
import ReviewFlow.WhatsApp.OptOutsTraced
import ReviewFlow.Events.Sweeps
import ReviewFlow.WhatsApp.SignupStates
import ReviewFlow.WhatsApp.TemplateBodies
import ReviewFlow.Locations.Visits
import ReviewFlow.Billing.Deliveries
import ReviewFlow.Billing.Inboxes
import ReviewFlow.Billing.Delivered
