import ZedBot.ReadCommitted.Program
import ZedBot.ReadCommitted.Machine
import ZedBot.ReadCommitted.RelyGuarantee
import ZedBot.Schema
import ZedBot.Payments.ProviderEvents
import ZedBot.Payments.Settlement
import ZedBot.Payments.Receipts
import ZedBot.Payments.WalletOrders
import ZedBot.Payments.Adjustments
import ZedBot.RunningBalance
import ZedBot.Payments.Discipline
import ZedBot.Payments.Steps
import ZedBot.Payments.Rules
import ZedBot.Payments.Accepted
import ZedBot.Payments.GatewayProcesses
import ZedBot.Payments.CheckoutProcesses
import ZedBot.Payments.Calls
import ZedBot.Payments.Ledger
import ZedBot.Payments.LedgerSoundness
import ZedBot.Payments.Exclusive
import ZedBot.Payments.ProviderTruth
import ZedBot.Referrals.PayoutHistory
import ZedBot.MiniApp.Checkouts
import ZedBot.MiniApp.DraftRequests
import ZedBot.Payments.SettlementTx
import ZedBot.MiniApp.PayReplays
import ZedBot.Bot.Checkouts
import ZedBot.Bot.Superseding
import ZedBot.Stars.Recovery
import ZedBot.Operations.Agreement
import ZedBot.Stars.RefundRules
import ZedBot.Stars.RefundTruth
import ZedBot.Discounts.Codes
import ZedBot.Discounts.Limits
import ZedBot.JsNumber
import ZedBot.LowBalance.Settings
import ZedBot.Referrals.CommissionBooks
import ZedBot.Referrals.Commissions
import ZedBot.Hysteresis
import ZedBot.LowBalance.AlertRules
import ZedBot.LowBalance.Backfill
import ZedBot.LowBalance.BackfillRules
import ZedBot.LowBalance.BackfillTruth
import ZedBot.LowBalance.CrossingRules
import ZedBot.LowBalance.Crossings
import ZedBot.LowBalance.Delivery
import ZedBot.LowBalance.DeliveryRules
import ZedBot.LowBalance.DeliveryTruth
import ZedBot.Reservations.UsernameProcesses
import ZedBot.Reservations.UsernameSafety
import ZedBot.Payments.PaymentLinks
import ZedBot.Payments.LinkTruth
import ZedBot.Stock.Items
import ZedBot.Stock.SoldOnce
import ZedBot.Notifications.AtMostOnce
import ZedBot.Operations.Reconciliation
import ZedBot.Trials.Accepted
import ZedBot.Trials.AccountPaths
import ZedBot.Trials.AccountTruth
import ZedBot.Json
import ZedBot.Operations.Attribution
import ZedBot.Panels.Calls
import ZedBot.Panels.CreateSafety
import ZedBot.Panels.ReadAgreement
import ZedBot.Payments.GatewayRetry
import ZedBot.ReadCommitted.Answers
import ZedBot.Referrals.PayoutText
import ZedBot.Referrals.PayoutUnion
import ZedBot.Reservations.ClaimTruth
import ZedBot.LowBalance.AlertTexts
import ZedBot.LowBalance.Estimate
import ZedBot.LowBalance.EstimateRules
import ZedBot.LowBalance.EstimateTruth
import ZedBot.Referrals.CreditScan
import ZedBot.Referrals.ScanConvergence
import ZedBot.KeysetSweep
import ZedBot.LowBalance.Reconcile
import ZedBot.LowBalance.ReconcileRules
import ZedBot.LowBalance.ReconcileTruth
import ZedBot.GrowingHistory
import ZedBot.JsText
import ZedBot.LeaseHistory
import ZedBot.Naming.Normalize
import ZedBot.Naming.SnapshotTruth
import ZedBot.Notifications.DailyCap
import ZedBot.Notifications.PlanTruth
import ZedBot.ServiceLock.Exclusion
import ZedBot.Stars.RecoveryScan
import ZedBot.Stars.ScanCoverage
import ZedBot.Stock.Inventory
import ZedBot.Stock.InventoryTruth
import ZedBot.Stock.SeparatedTruth
import ZedBot.Trials.Eligibility
import ZedBot.Trials.EligibilityTruth
import ZedBot.Trials.Remaining
import ZedBot.AutoRenewal.Schedule
import ZedBot.AutoRenewal.ChargeWindow
import ZedBot.KeysetWalk
import ZedBot.Support.TicketPages
import ZedBot.Conversions.Evaluator
import ZedBot.Conversions.Winner
import ZedBot.LowBalance.TypedAmounts
import ZedBot.Services.Note
import ZedBot.Services.NoteTruth
import ZedBot.Winback.Config
import ZedBot.Winback.Eligibility
import ZedBot.Winback.Staging
import ZedBot.Backup.Envelope
import ZedBot.Backup.RoundTrip
import ZedBot.Backup.Cleanup
import ZedBot.Backup.Retention
import ZedBot.ForceJoin.Channels
import ZedBot.ForceJoin.Configuration
import ZedBot.ForceJoin.ConfigurationRuns
import ZedBot.ForceJoin.Membership
import ZedBot.ForceJoin.Retirement
import ZedBot.ForceJoin.RetirementRuns
import ZedBot.JsNumberText
import ZedBot.JsonMembers
import ZedBot.JsonValue
import ZedBot.MiniApp.Authentication
import ZedBot.Payments.Nowpayments
import ZedBot.Payments.NowpaymentsTruth
import ZedBot.Rows
import ZedBot.Runs
import ZedBot.Support.Outbox
import ZedBot.Support.OutboxProgress
import ZedBot.Support.OutboxRecipients
import ZedBot.Support.OutboxSends
import ZedBot.Base64
import ZedBot.MiniApp.Cursor
import ZedBot.Terms.Acceptance
import ZedBot.Terms.AcceptanceTruth
import ZedBot.Terms.Runs
import ZedBot.Terms.Truth
