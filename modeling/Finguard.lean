import Finguard.Lib.Decimal
import Finguard.Lib.Transaction
import Finguard.Lib.Runs
import Finguard.Lib.Table
import Finguard.Lib.Text
import Finguard.Lib.Counted
import Finguard.Lib.RunningBalance
import Finguard.Types
import Finguard.InvoiceFold
import Finguard.Model
import Finguard.Invoicing
import Finguard.InvoiceMoves
import Finguard.InvoiceRuns
import Finguard.InvoiceLog
import Finguard.InvoiceReadModel
import Finguard.PaymentBacking
import Finguard.StatusAgreement
import Finguard.Inventory
import Finguard.Treasury
import Finguard.VaultConservation
import Finguard.StockReplay
import Finguard.Lib.Sessions
import Finguard.StockConcurrency
import Finguard.PayableReview
import Finguard.BankReview
import Finguard.Lib.Keyed
import Finguard.Outbox
import Finguard.DeadLetterSweep
import Finguard.Lib.RoseTree
import Finguard.SqlGuard
import Finguard.Permissions
import Finguard.Proposals
import Finguard.StockSteward
import Finguard.StockAuthority
import Finguard.AppendOnly
import Finguard.ProposalReview
import Finguard.SeparationOfDuties
import Finguard.Identity
import Finguard.RefreshRotation
import Finguard.PasswordReset
import Finguard.SessionEviction
import Finguard.BootstrapOwner
import Finguard.LoginLockout
import Finguard.Conversation
import Finguard.ConversationOwnership
import Finguard.ConversationResume
import Finguard.IdempotentExecution
import Finguard.EmailPipeline
import Finguard.Migrations
import Finguard.Alerts
import Finguard.AgentRegistry
import Finguard.Planner
import Finguard.AgentPlans
import Finguard.PlannerRuns
import Finguard.ReplanRequests
import Finguard.SummaryLast
import Finguard.Lib.Lru
import Finguard.Supervisor
import Finguard.FastPath
import Finguard.BatchClassification
import Finguard.MpesaCallback
import Finguard.ApprovalOnce
import Finguard.FailedApproval
import Finguard.Settlement
import Finguard.Lib.Buckets
import Finguard.Reconciler
import Finguard.Reconciliation
import Finguard.BlankReference
import Finguard.MatchStatus
import Finguard.SettlementRuns
import Finguard.Lib.Distinct
import Finguard.BankImport
import Finguard.Lib.Dict
import Finguard.ReconciliationFlow
import Finguard.StockCosts
import Finguard.StockRelease
import Finguard.StockPreview
import Finguard.AlertCalls
import Finguard.LowStock
import Finguard.LowStockRuns
import Finguard.DocumentSplitter
import Finguard.EmailKeys
import Finguard.Lib.Numeral
import Finguard.RowLimit
import Finguard.PythonValues
import Finguard.WatchdogConsumer
import Finguard.Lib.Base64
import Finguard.VcIssuer
import Finguard.Lib.Binary64
import Finguard.Lib.JsonText
import Finguard.Lib.Jsonb
import Finguard.Lib.Sha256
import Finguard.ProposalHash
import Finguard.PythonOperators
import Finguard.Tuning
import Finguard.TuningRefresh
import Finguard.Bankability
import Finguard.HiddenMarkov
import Finguard.TunedModels
import Finguard.Compaction
import Finguard.TaxRates
import Finguard.VcCodec
import Finguard.VcMigration
import Finguard.GenUiCollection
import Finguard.Lib.Attempts
import Finguard.LlmCalls
import Finguard.Lib.Networks
import Finguard.HttpCaller
import Finguard.IntegratorFeeds
import Finguard.RequestGate
import Finguard.FinancialReports
import Finguard.AuditTrail
import Finguard.CallbackGate
import Finguard.TaskCredentials
