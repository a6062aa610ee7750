import AgentScheduler.Conservation
import AgentScheduler.WireMessages
import AgentScheduler.Strictness
import AgentScheduler.Observation
import AgentScheduler.Convergence
import AgentScheduler.Freshness
import AgentScheduler.StaleLoad
import AgentScheduler.Recency
import AgentScheduler.Replicas
import AgentScheduler.Lifecycles
import AgentScheduler.Retention
import AgentScheduler.RoundTrip
import AgentScheduler.Streaming
import AgentScheduler.StateDigest
import AgentScheduler.Outcomes
import AgentScheduler.Evidence
import AgentScheduler.Leases
import AgentScheduler.Tenants
import AgentScheduler.CleanText
import AgentScheduler.JsonOutput
import AgentScheduler.Submissions
import AgentScheduler.Resubmission
import AgentScheduler.Lifetimes
import AgentScheduler.Connection
import AgentScheduler.SavedState
import AgentScheduler.Projection
import AgentScheduler.Disk
import AgentScheduler.Fairness
