import Conduit.Base.TSys
import Conduit.Base.Table
import Conduit.Base.Greedy
import Conduit.Base.Saturating
import Conduit.Base.Sieve
import Conduit.Base.Transaction
import Conduit.Base.Transducer
import Conduit.Base.Crash
import Conduit.Base.FixedWindow
import Conduit.Base.ParseInt
import Conduit.Base.Text
import Conduit.Orchestrator.ChannelLimiter
import Conduit.Orchestrator.LimiterAccounting
import Conduit.Orchestrator.LimiterFairness
import Conduit.Orchestrator.LoadBalancer
import Conduit.Orchestrator.AdaptiveShare
import Conduit.Access.Entitlement
import Conduit.Access.Agreement
import Conduit.Billing.Schema
import Conduit.Billing.Wallet
import Conduit.Billing.Reservation
import Conduit.Billing.Settlement
import Conduit.Billing.Credit
import Conduit.Billing.Subscription
import Conduit.Billing.System
import Conduit.Billing.Outbox
import Conduit.Billing.Logic.Accounting
import Conduit.Billing.Logic.Frame
import Conduit.Billing.Logic.Charge
import Conduit.Billing.Logic.Quota
import Conduit.Billing.Logic.Reservation
import Conduit.Billing.Logic.Admission
import Conduit.Billing.Logic.Funding
import Conduit.Billing.Logic.Settlement
import Conduit.Billing.Logic.Subscription
import Conduit.Billing.Logic.Credit
import Conduit.Billing.Logic.Redemption
import Conduit.Billing.Logic.System
import Conduit.Billing.Logic.Outbox
import Conduit.Billing.Theorems
import Conduit.UsageRecovery.Journal
import Conduit.UsageRecovery.Logic.Journal
import Conduit.UsageRecovery.Logic.Calls
import Conduit.UsageRecovery.Logic.Events
import Conduit.UsageRecovery.Logic.CutOff
import Conduit.UsageRecovery.Logic.Budget
import Conduit.UsageRecovery.Theorems
import Conduit.UsageRecovery.ExactlyOnce
import Conduit.UsageRecovery.Handoff
import Conduit.UsageRecovery.Logic.Handoff
import Conduit.UsageRecovery.Logic.Recovery
import Conduit.Pipeline.Context
import Conduit.Pipeline.Retry
import Conduit.Pipeline.Stream
import Conduit.Pipeline.Http
import Conduit.Pipeline.Attempts
import Conduit.Pipeline.Logic.Retry
import Conduit.Pipeline.Logic.Visits
import Conduit.Pipeline.Logic.Metadata
import Conduit.Pipeline.Logic.Stream
import Conduit.Pipeline.Logic.Attempts
import Conduit.Pipeline.Theorems
import Conduit.Middlewares.CircuitBreaker
import Conduit.Middlewares.ChannelConcurrency
import Conduit.Http.ClientRequest
import Conduit.Http.Sse
import Conduit.Http.Logic.Credential
import Conduit.Http.Logic.Sse
import Conduit.Http.Theorems
import Conduit.Middlewares.RateLimit
import Conduit.Middlewares.Logic.RateLimit
import Conduit.Middlewares.Logic.CircuitBreaker
import Conduit.Middlewares.Logic.Consecutive
import Conduit.Middlewares.Logic.ChannelConcurrency
import Conduit.Middlewares.Theorems
import Conduit.Orchestrator.Condition
import Conduit.Base.FirstWins
import Conduit.Orchestrator.Candidates
import Conduit.Orchestrator.AssociationUnion
import Conduit.Base.Rank
import Conduit.Orchestrator.Routing
import Conduit.Orchestrator.RouteOrdering
import Conduit.Base.Json
import Conduit.Base.Emitter
import Conduit.Transformers.Unified
import Conduit.Transformers.AnthropicEvents
import Conduit.Transformers.AnthropicInboundStream
import Conduit.Transformers.AnthropicOutline
import Conduit.Transformers.Logic.AnthropicEvents
import Conduit.Transformers.Logic.AnthropicInboundStream
import Conduit.Transformers.Theorems
import Conduit.Transformers.Wire
import Conduit.Base.Keyed
import Conduit.Transformers.OpenAiCodec
import Conduit.Transformers.OpenAiChat
import Conduit.Transformers.ResponsesClientStream
import Conduit.Base.Base64
import Conduit.Transformers.AnthropicOutboundStream
import Conduit.Transformers.ResponsesOutboundStream
import Conduit.Transformers.AnthropicWire
import Conduit.Transformers.Formats
import Conduit.Transformers.Logic.ClientTerminals
import Conduit.Transformers.ClientProtocol
import Conduit.Transformers.Logic.AnthropicTerminals
import Conduit.Transformers.StreamProtocol
import Conduit.Transformers.AnthropicAggregate
import Conduit.Transformers.ResponsesAggregate
import Conduit.Orchestrator.OutboundStream
import Conduit.Base.Framing
import Conduit.Base.History
import Conduit.RouteAffinity.Repository
import Conduit.RouteAffinity.Runtime
import Conduit.RouteAffinity.Staleness
import Conduit.Base.Streak
import Conduit.AutoDisable.Counter
import Conduit.AutoDisable.Channels
import Conduit.AutoDisable.System
import Conduit.AutoDisable.Logic.Tracker
import Conduit.AutoDisable.Logic.Agreement
import Conduit.AutoDisable.Theorems
import Conduit.Orchestrator.Selection
import Conduit.Orchestrator.Bridge
import Conduit.Access.ApiKeyValidation
import Conduit.Access.KeyScope
import Conduit.Billing.PriceMultiplier
import Conduit.Base.SmoothRoundRobin
import Conduit.Orchestrator.WeightedRoundRobin
import Conduit.Orchestrator.Sticky
import Conduit.Base.Utf8
import Conduit.Http.SseWriter
import Conduit.Orchestrator.BodyOverride
import Conduit.Orchestrator.BodyMove
import Conduit.Base.Waterfall
import Conduit.Base.Decimal
import Conduit.Billing.UsageCost
import Conduit.Billing.Logic.TieredCost
import Conduit.Billing.Logic.UsageCost
import Conduit.Access.Rbac
import Conduit.Access.ProjectAuthority
import Conduit.Billing.Logic.Conservation
import Conduit.Billing.Periods
import Conduit.Billing.BillingDay
import Conduit.Transformers.AnthropicUsage
import Conduit.Transformers.Request
import Conduit.Middlewares.EnsureUsage
import Conduit.Base.Formula
import Conduit.Orchestrator.ConditionSemantics
import Conduit.Base.JsonText
import Conduit.Http.GeminiArray
import Conduit.Middlewares.PromptProtection
import Conduit.Orchestrator.HeaderOverrides
import Conduit.Transformers.OpenAiUsage
import Conduit.Transformers.AnthropicMessages
import Conduit.Transformers.Logic.AnthropicMessages
import Conduit.Transformers.Logic.AnthropicDialogue
import Conduit.Transformers.AnthropicResponse
import Conduit.Transformers.Logic.AnthropicResponse
import Conduit.Transformers.Logic.AnthropicRoundTrip
import Conduit.Transformers.Logic.AnthropicSurvival
import Conduit.Channels.Settings
import Conduit.Channels.Credentials
import Conduit.Channels.ModelEntries
import Conduit.Channels.EntryVisibility
import Conduit.Quota.Window
import Conduit.Quota.CalendarWindows
import Conduit.Orchestrator.SelectionPartition
import Conduit.Transformers.GeminiUsage
import Conduit.Transformers.ResponsesInput
import Conduit.Transformers.Logic.ResponsesGroups
import Conduit.Base.CommonPrefix
import Conduit.Trace.Spans
import Conduit.Transformers.AnthropicSignature
import Conduit.Transformers.Logic.ChatSettings
import Conduit.Transformers.Logic.GeminiContents
import Conduit.Base.Lockstep
import Conduit.Orchestrator.StreamFailover
import Conduit.Orchestrator.FailoverAgreement
import Conduit.Orchestrator.SentBody
import Conduit.Orchestrator.MaskedText
import Conduit.Transformers.ChatTurns
import Conduit.Transformers.Logic.ChatTurns
import Conduit.Orchestrator.StreamAccounting
import Conduit.Orchestrator.Forwarding
import Conduit.Pipeline.Cancel
import Conduit.Access.KeyConcurrency
import Conduit.Base.Words
import Conduit.Database.Ddl
import Conduit.Database.Policy
import Conduit.Database.Migrations
import Conduit.Billing.ChangeSets
import Conduit.Access.OidcLogin
