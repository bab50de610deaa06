import NocAgent.Library.HalfEven
import NocAgent.Library.PyFloat
import NocAgent.Library.Double
import NocAgent.Library.ListHeap
import NocAgent.Library.Dict
import NocAgent.Library.Grouping
import NocAgent.Library.Json
import NocAgent.Library.Dumps
import NocAgent.Library.Base64
import NocAgent.Library.Coroutine
import NocAgent.Library.Fallible
import NocAgent.Library.KeyValue
import NocAgent.Library.SharedCache
import NocAgent.Library.Keyspace
import NocAgent.Library.TextSearch
import NocAgent.Library.Trace
import NocAgent.Library.Gather
import NocAgent.Library.Text
import NocAgent.Library.BreadthFirst
import NocAgent.Library.Comprehension
import NocAgent.Library.StringLiteral
import NocAgent.Library.Lines
import NocAgent.Library.Digits
import NocAgent.Library.Calendar
import NocAgent.Library.DateTime
import NocAgent.Library.IsoText
import NocAgent.Library.UtcText
import NocAgent.Library.Markup
import NocAgent.RunLedger.Decide
import NocAgent.RunLedger.Redis
import NocAgent.RunLedger.Service
import NocAgent.RunLedger.OutputCap
import NocAgent.RunLedger.Floating
import NocAgent.RunLedger.Effects
import NocAgent.RunLedger.Ledger
import NocAgent.RunLedger.Accounting
import NocAgent.RunLedger.Expiry
import NocAgent.RunLedger.Settlement
import NocAgent.RunLedger.Ceiling
import NocAgent.RunLedger.ConcurrencyCap
import NocAgent.RunLedger.Steering
import NocAgent.RunLedger.StepCap
import NocAgent.RunLedger.Isolation
import NocAgent.RunLedger.Lifetime
import NocAgent.RunLedger.Clients
import NocAgent.RunLedger.Linearization
import NocAgent.RunLedger.DoubleSettlement
import NocAgent.RunLedger.StaysStopped
import NocAgent.RunLedger.Joining
import NocAgent.IncidentMonitor.State
import NocAgent.IncidentMonitor.Subscribing
import NocAgent.IncidentMonitor.RunOnce
import NocAgent.IncidentMonitor.Protocol
import NocAgent.IncidentMonitor.AgentsStorage
import NocAgent.IncidentMonitor.AtLeastOnce
import NocAgent.IncidentMonitor.InOrder
import NocAgent.IncidentMonitor.Overlap
import NocAgent.IncidentMonitor.LeaseLoss
import NocAgent.IncidentMonitor.KqlString
import NocAgent.IncidentMonitor.CursorOrder
import NocAgent.BudgetLease.Ledger
import NocAgent.BudgetLease.Fencing
import NocAgent.BudgetLease.Latch
import NocAgent.BudgetLease.Lease
import NocAgent.BudgetLease.Overshoot
import NocAgent.BudgetLease.Conservation
import NocAgent.Gateway.AllowedModels
import NocAgent.Gateway.Mutate
import NocAgent.Gateway.Probe
import NocAgent.Agent.RunLedgerClient
import NocAgent.Agent.RunTokens
import NocAgent.Agent.UserTokens
import NocAgent.Agent.Specialist
import NocAgent.Agent.Turn
import NocAgent.Agent.McpServer
import NocAgent.Agent.Conversations
import NocAgent.Agent.History
import NocAgent.Agent.Overlap
import NocAgent.Agent.Consent
import NocAgent.Agent.Investigation
import NocAgent.Agent.FanOut
import NocAgent.Agent.RunHalt
import NocAgent.Agent.ExceptionWalk
import NocAgent.Agent.Authentication
import NocAgent.Agent.Notifications
import NocAgent.Agent.IncidentEmail
import NocAgent.Pricing.ModelsPricing
import NocAgent.ConsumerConfig.Store
import NocAgent.Pricing.Effective
import NocAgent.Pricing.WorkerSync
import NocAgent.Pricing.StoredOverrides
import NocAgent.Pricing.RetailPrices
import NocAgent.ConsumerConfig.Budget
import NocAgent.ConsumerConfig.Evaluation
import NocAgent.ConsumerConfig.LiveSpend
import NocAgent.Pricing.PriceTables
import NocAgent.ConsumerConfig.LastWriter
import NocAgent.ConsumerConfig.Races
import NocAgent.ConsumerConfig.FailSafe
import NocAgent.ConsumerConfig.Thresholds
import NocAgent.ConsumerConfig.UsageDetail
import NocAgent.ConsumerConfig.Bundle
import NocAgent.AdminUi.Keys
import NocAgent.AdminUi.Registry
import NocAgent.AdminUi.RegistryUpdate
import NocAgent.AdminUi.Runs
import NocAgent.Gateway.TierKey
import NocAgent.Gateway.ReadsBack
import NocAgent.Gateway.Pipeline
import NocAgent.Gateway.Slots
import NocAgent.Gateway.Mediation
import NocAgent.Library.LeaseRegister
import NocAgent.IncidentMonitor.Fleet
import NocAgent.Library.Cut
import NocAgent.Agent.Templates
import NocAgent.Library.Requests
import NocAgent.ConsumerConfig.SyncJob
import NocAgent.ConsumerConfig.Reconcile
import NocAgent.Library.Noninterference
import NocAgent.AdminUi.Auth
import NocAgent.AdminUi.Consumers
import NocAgent.AdminUi.Api
import NocAgent.AdminUi.Access
import NocAgent.AdminUi.Stored
import NocAgent.AdminUi.Listing
