import SecureAgnt.Api.Bootstrap
import SecureAgnt.Api.BootstrapOutcome
import SecureAgnt.Api.BootstrapStatus
import SecureAgnt.Api.Capacity
import SecureAgnt.Api.Context
import SecureAgnt.Api.ContextFrame
import SecureAgnt.Api.ContextTree
import SecureAgnt.Api.ContextVisible
import SecureAgnt.Api.Creates
import SecureAgnt.Api.CreatesAlike
import SecureAgnt.Api.FiresAlike
import SecureAgnt.Api.Gate
import SecureAgnt.Api.HandoffPackets
import SecureAgnt.Api.Heartbeat
import SecureAgnt.Api.HeartbeatKept
import SecureAgnt.Api.HeartbeatLines
import SecureAgnt.Api.HeartbeatOnce
import SecureAgnt.Api.HeartbeatText
import SecureAgnt.Api.Instant
import SecureAgnt.Api.Manage
import SecureAgnt.Api.ManagesAlike
import SecureAgnt.Api.MemoryRecords
import SecureAgnt.Api.Routes
import SecureAgnt.Api.Sealed
import SecureAgnt.Api.Store
import SecureAgnt.Api.TenantContext
import SecureAgnt.Api.UpdatesAlike
import SecureAgnt.Compliance.Chain
import SecureAgnt.Compliance.Delivery
import SecureAgnt.Compliance.Evidence
import SecureAgnt.Compliance.Export
import SecureAgnt.Compliance.Outbox
import SecureAgnt.Compliance.Parity
import SecureAgnt.Compliance.Pass
import SecureAgnt.Compliance.Retention
import SecureAgnt.Lib.Exec
import SecureAgnt.Lib.Expiring
import SecureAgnt.Lib.Fallible
import SecureAgnt.Lib.FileSystem
import SecureAgnt.Lib.HashChain
import SecureAgnt.Lib.Integers
import SecureAgnt.Lib.JoinedText
import SecureAgnt.Lib.Json
import SecureAgnt.Lib.JsonCanonical
import SecureAgnt.Lib.JsonEq
import SecureAgnt.Lib.JsonOrder
import SecureAgnt.Lib.JsonText
import SecureAgnt.Lib.Leasing
import SecureAgnt.Lib.Like
import SecureAgnt.Lib.Lines
import SecureAgnt.Lib.Log
import SecureAgnt.Lib.Machine
import SecureAgnt.Lib.Paired
import SecureAgnt.Lib.Path
import SecureAgnt.Lib.Prog
import SecureAgnt.Lib.Run
import SecureAgnt.Lib.Slice
import SecureAgnt.Lib.Sorting
import SecureAgnt.Lib.Table
import SecureAgnt.Lib.Tenure
import SecureAgnt.Lib.Text
import SecureAgnt.Lib.Traces
import SecureAgnt.Lib.Transaction
import SecureAgnt.Lib.Uuid
import SecureAgnt.Llm.Admission
import SecureAgnt.Llm.Budget
import SecureAgnt.Llm.CacheKey
import SecureAgnt.Llm.Capacity
import SecureAgnt.Llm.Chunks
import SecureAgnt.Llm.Config
import SecureAgnt.Llm.Confinement
import SecureAgnt.Llm.Gateway
import SecureAgnt.Llm.Lanes
import SecureAgnt.Llm.Prompt
import SecureAgnt.Llm.Reach
import SecureAgnt.Llm.ResponseCache
import SecureAgnt.Llm.Route
import SecureAgnt.Llm.Verifier
import SecureAgnt.Memory.Compaction
import SecureAgnt.Memory.Rounds
import SecureAgnt.Message.Correlated
import SecureAgnt.Message.Nostr
import SecureAgnt.Message.Published
import SecureAgnt.Message.RemoteSigner
import SecureAgnt.Message.Reported
import SecureAgnt.Message.Send
import SecureAgnt.Message.Signer
import SecureAgnt.Payment.Budget
import SecureAgnt.Payment.Idempotency
import SecureAgnt.Payment.Ledger
import SecureAgnt.Payment.Lifecycle
import SecureAgnt.Payment.Request
import SecureAgnt.Payment.RouteHealth
import SecureAgnt.Payment.RunSpend
import SecureAgnt.Payment.Send
import SecureAgnt.Payment.Wallet
import SecureAgnt.Policy.Containment
import SecureAgnt.Policy.Decision
import SecureAgnt.Policy.Grants
import SecureAgnt.Policy.Resolve
import SecureAgnt.Redaction
import SecureAgnt.Redaction.Bearer
import SecureAgnt.Redaction.Scan
import SecureAgnt.Redaction.Values
import SecureAgnt.Runs.Caps
import SecureAgnt.Runs.Cycle
import SecureAgnt.Runs.Dedupe
import SecureAgnt.Runs.DedupeInv
import SecureAgnt.Runs.DedupeKey
import SecureAgnt.Runs.Deduped
import SecureAgnt.Runs.Lease
import SecureAgnt.Runs.Queue
import SecureAgnt.Runs.Trail
import SecureAgnt.Runs.Window
import SecureAgnt.Secrets.Cached
import SecureAgnt.Secrets.Reference
import SecureAgnt.Skill.Answered
import SecureAgnt.Skill.AuditChain
import SecureAgnt.Skill.AuditEvidence
import SecureAgnt.Skill.Contained
import SecureAgnt.Skill.ExportedChain
import SecureAgnt.Skill.Protocol
import SecureAgnt.Skill.Runner
import SecureAgnt.Storage
import SecureAgnt.Trigger.Alone
import SecureAgnt.Trigger.Calls
import SecureAgnt.Trigger.Config
import SecureAgnt.Trigger.ConfigCalls
import SecureAgnt.Trigger.Decided
import SecureAgnt.Trigger.Dispatch
import SecureAgnt.Trigger.DispatchAlike
import SecureAgnt.Trigger.DispatchOrder
import SecureAgnt.Trigger.History
import SecureAgnt.Trigger.Instant
import SecureAgnt.Trigger.Jitter
import SecureAgnt.Trigger.Keys
import SecureAgnt.Trigger.Locks
import SecureAgnt.Trigger.Misfire
import SecureAgnt.Trigger.Moves
import SecureAgnt.Trigger.Noted
import SecureAgnt.Trigger.Once
import SecureAgnt.Trigger.Oversize
import SecureAgnt.Trigger.Patches
import SecureAgnt.Trigger.Plan
import SecureAgnt.Trigger.Publish
import SecureAgnt.Trigger.QueueHead
import SecureAgnt.Trigger.Recovery
import SecureAgnt.Trigger.Replay
import SecureAgnt.Trigger.SemanticKey
import SecureAgnt.Trigger.Session
import SecureAgnt.Trigger.Stage
import SecureAgnt.Trigger.Statement
import SecureAgnt.Trigger.StepAlike
import SecureAgnt.Trigger.StepApart
import SecureAgnt.Trigger.Store
import SecureAgnt.Trigger.Tracked
import SecureAgnt.Trigger.Updates
import SecureAgnt.Trigger.Watch
import SecureAgnt.Worker.Action
import SecureAgnt.Worker.ActionTrail
import SecureAgnt.Worker.ArtifactPaths
import SecureAgnt.Worker.Artifacts
import SecureAgnt.Worker.CachedAnswers
import SecureAgnt.Worker.ClaimedRun
import SecureAgnt.Worker.Config
import SecureAgnt.Worker.GrantedPath
import SecureAgnt.Worker.LlmAction
import SecureAgnt.Worker.LocalExec
import SecureAgnt.Worker.Normalised
import SecureAgnt.Worker.SchedulerLease
import SecureAgnt.Worker.ScopedArgument
import SecureAgnt.Worker.TokenBudget
import SecureAgnt.Worker.TokenLedger
import SecureAgnt.Compliance.LegalHold
