import A2ABroker.Lib.Prog
import A2ABroker.Core.Types
import A2ABroker.Core.GitHubTask
import A2ABroker.Core.Policy
import A2ABroker.Core.BriefMetadata
import A2ABroker.Core.State
import A2ABroker.Core.Proposals
import A2ABroker.Core.Cancel
import A2ABroker.Core.Exchanges
import A2ABroker.Core.Sweep
import A2ABroker.Core.Broker
import A2ABroker.Lib.Moves
import A2ABroker.Theory.Board
import A2ABroker.Verify.Retention
import A2ABroker.Verify.Refine.Statements
import A2ABroker.Verify.Refine.Tasks
import A2ABroker.Verify.Refine.Proposals
import A2ABroker.Verify.Refine.Cancel
import A2ABroker.Verify.Refine.Exchanges
import A2ABroker.Verify.Refine.Broker
import A2ABroker.Verify.Lease
import A2ABroker.Verify.Fresh
import A2ABroker.Verify.Terminal
import A2ABroker.Verify.Gate
import A2ABroker.Verify.Requeue
import A2ABroker.Verify.Review
import A2ABroker.Verify.Application
import A2ABroker.Lib.Walk
import A2ABroker.Verify.FanOut
import A2ABroker.Server.JsonRpc
import A2ABroker.Verify.Errors
import A2ABroker.Worker.Network
import A2ABroker.Verify.Attempts
import A2ABroker.Lib.Closure
import A2ABroker.Core.OperatorText
import A2ABroker.Core.Projections
import A2ABroker.Core.TerminalPayload
import A2ABroker.Core.Outbox
import A2ABroker.Lib.Window
import A2ABroker.Verify.Outbox
import A2ABroker.Verify.OutboxCursor
import A2ABroker.Verify.OutboxAck
import A2ABroker.Verify.References
import A2ABroker.Verify.AuditRetention
import A2ABroker.Verify.RetentionOnce
import A2ABroker.Verify.TaskStream
import A2ABroker.Verify.Frame
import A2ABroker.Verify.FinalUpdate
import A2ABroker.Lib.Ranking
import A2ABroker.Core.Store
import A2ABroker.Core.Restart
import A2ABroker.Verify.HotAudit
import A2ABroker.Verify.RoundTrip
import A2ABroker.Verify.Threads
import A2ABroker.Verify.Stepwise
import A2ABroker.Verify.Durable
import A2ABroker.Verify.LiveRows
import A2ABroker.Verify.Tracked
import A2ABroker.Core.RateLimit
import A2ABroker.Lib.Sliding
import A2ABroker.Verify.RateLimit
import A2ABroker.Lib.Register
import A2ABroker.Lib.Heads
import A2ABroker.GitHub.Recovery
import A2ABroker.Verify.Recovery
import A2ABroker.Verify.RecoveryOrder
import A2ABroker.Lib.Text
import A2ABroker.Verify.IsoText
import A2ABroker.Verify.Digest
import A2ABroker.Verify.OutboxRoom
import A2ABroker.Verify.OutboxRestart
import A2ABroker.Verify.ProjectionEvents
import A2ABroker.Verify.ProjectionOrder
import A2ABroker.GitHub.Commands
import A2ABroker.GitHub.Ingestion
import A2ABroker.GitHub.Poller
import A2ABroker.Verify.Ingestion
import A2ABroker.Verify.Redelivery
import A2ABroker.Verify.Poller
import A2ABroker.Verify.Watermarks
import A2ABroker.Verify.Merge
import A2ABroker.GitHub.Handoff
import A2ABroker.Verify.Handoff
import A2ABroker.Core.EventBuffer
import A2ABroker.Core.WakeAudit
import A2ABroker.Lib.Pending
import A2ABroker.Verify.WakeAudit
import A2ABroker.Core.Closeout
import A2ABroker.Verify.Closeout
import A2ABroker.Verify.CloseoutCap
import A2ABroker.Server.PeerStatus
import A2ABroker.Lib.FixedWindow
import A2ABroker.Verify.PeerStatus
import A2ABroker.Core.ConferenceRoom
import A2ABroker.Verify.ConferenceRoom
import A2ABroker.Verify.ConferenceLog
import A2ABroker.Verify.RpcAuthority
import A2ABroker.Verify.BriefDrift
import A2ABroker.Core.TaskEventStream
import A2ABroker.Verify.TaskEventStream
import A2ABroker.Verify.Journal
import A2ABroker.Verify.TerminalFeed
import A2ABroker.Dialectic.Execution
import A2ABroker.Verify.Dialectic
import A2ABroker.Worker.SessionIsolation
import A2ABroker.Verify.SessionIsolation
import A2ABroker.GitHub.RoundCloseout
import A2ABroker.Verify.RoundCloseout
import A2ABroker.Core.Delivery
import A2ABroker.Verify.Delivery
import A2ABroker.Core.ProposalLifecycle
import A2ABroker.Core.ExecutionLifecycle
import A2ABroker.Lib.Blind
import A2ABroker.Verify.EventRetention
import A2ABroker.Core.AlertProjection
import A2ABroker.Server.OperatorEvents
import A2ABroker.Verify.OperatorEvents
import A2ABroker.Core.DelegatedRuntime
import A2ABroker.Theory.Delegation
import A2ABroker.Verify.DelegatedRuntime
import A2ABroker.Core.ConferenceFanIn
import A2ABroker.Verify.ConferenceFanIn
import A2ABroker.Verify.WakePlan
import A2ABroker.Lib.Words
import A2ABroker.GitHub.Projection
import A2ABroker.Verify.TokenScan
import A2ABroker.Verify.TokenMatches
import A2ABroker.Verify.TokenRedaction
import A2ABroker.Verify.MessageFailure
import A2ABroker.Verify.PlainMessage
import A2ABroker.Server.AssignmentStream
import A2ABroker.Verify.AssignmentStream
import A2ABroker.Server.TaskEvents
import A2ABroker.Verify.TaskEvents
import A2ABroker.Verify.CancelOnce
import A2ABroker.Verify.FailedSaves
import A2ABroker.Core.Diagnostics
import A2ABroker.Verify.Diagnostics
import A2ABroker.Verify.TerminalDurable
import A2ABroker.Lib.Paging
import A2ABroker.Verify.CursorBuffer
import A2ABroker.Verify.HandoffAtomic
import A2ABroker.Verify.Cleanup
import A2ABroker.Verify.CloseoutCounts
import A2ABroker.Verify.SendMessage
import A2ABroker.Verify.ConferenceTimeouts
import A2ABroker.Verify.DeliveryTimes
import A2ABroker.Verify.ExecutionRuns
import A2ABroker.Verify.ProposalRounds
import A2ABroker.Dialectic.PhaseTask
import A2ABroker.Verify.PhasePlanner
import A2ABroker.Verify.ProjectionKeys
import A2ABroker.Verify.CloseoutScope
import A2ABroker.Core.BriefQuery
import A2ABroker.Verify.BriefPaging
import A2ABroker.Verify.CommentMarkers
import A2ABroker.Verify.RetentionPlans
import A2ABroker.Verify.GitHubRequest
import A2ABroker.Verify.AssignmentCommands
import A2ABroker.Verify.TaskListLimit
import A2ABroker.GitHub.Evidence
import A2ABroker.Verify.EvidenceKey
import A2ABroker.Verify.EvidenceComments
import A2ABroker.Lib.Links
import A2ABroker.Verify.Links
import A2ABroker.Verify.Uniform
import A2ABroker.Verify.Filed
import A2ABroker.Verify.Refusals
import A2ABroker.Theory.Phases
import A2ABroker.Verify.CompleteOnce
import A2ABroker.Verify.Phases
