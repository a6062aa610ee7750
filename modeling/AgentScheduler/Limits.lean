import AgentScheduler.Result

/-! Externally influenced growth bounds. -/
namespace AgentScheduler

/-- The configured ceilings the scheduler checks. -/
structure ResourceLimits where
  -- Population bounds.
  maxAgents : UInt32 := 200000
  maxQueues : UInt32 := 4096
  maxWorkItems : UInt32 := 500000
  maxActiveAssignments : UInt32 := 200000
  maxHistoricalAssignments : UInt32 := 500000
  maxLeases : UInt32 := 200000
  maxFencedBoots : UInt32 := 500000
  maxTenants : UInt32 := 8192
  -- Per-record bounds.
  maxCapabilitiesPerAgent : UInt32 := 256
  maxPolicyLabels : UInt32 := 64
  maxCapabilityRequirements : UInt32 := 128
  maxAffinityEntries : UInt32 := 256
  maxWarmStateKeys : UInt32 := 64
  maxExplanationFactors : UInt32 := 64
  maxCandidatesExamined : UInt32 := 200000
  maxRetainedHistory : UInt32 := 100000
  maxBatchAssignments : UInt32 := 100000
  -- Text bounds.
  maxStringSize : UInt32 := 512
  maxIdentifierSize : UInt32 := 64
  maxFrameSize : UInt32 := 1048576
  maxPayloadSize : UInt32 := 1048576
  maxQueryResultBytes : UInt32 := 4194304
  -- Transport bounds.
  maxConnections : UInt32 := 64
  maxSessionThreads : UInt32 := 160
  maxSendQueue : UInt32 := 4096
  -- Durability bounds.
  maxPersistenceBytes : UInt64 := 1073741824

/-- `ResourceLimits::validate`: the reason the limit set is internally invalid. -/
def ResourceLimits.validate (limits : ResourceLimits) : Option Text :=
  if limits.maxAgents = 0 ∨ limits.maxWorkItems = 0 ∨ limits.maxQueues = 0 then
    some "population limits must be non-zero"
  else if limits.maxStringSize = 0 ∨ limits.maxIdentifierSize = 0 then some "text limits must be non-zero"
  else if limits.maxStringSize < limits.maxIdentifierSize then
    some "max_identifier_size must not exceed max_string_size"
  else if limits.maxFrameSize < 64 ∨ limits.maxPayloadSize < 64 then
    some "frame and payload limits must be at least 64 bytes"
  else if limits.maxFrameSize < limits.maxPayloadSize then
    some "max_payload_size must not exceed max_frame_size"
  else if limits.maxSendQueue = 0 ∨ limits.maxConnections = 0 ∨ limits.maxSessionThreads = 0 then
    some "transport limits must be non-zero"
  else if limits.maxSessionThreads < 2 * limits.maxConnections then
    some "max_session_threads must allow a reader and writer per connection"
  else if limits.maxCapabilitiesPerAgent = 0 ∨ limits.maxCapabilityRequirements = 0 then
    some "capability limits must be non-zero"
  else if limits.maxHistoricalAssignments < limits.maxActiveAssignments then
    some "max_historical_assignments must be at least max_active_assignments"
  else if limits.maxPersistenceBytes < 1024 then some "max_persistence_bytes must be at least 1024"
  else none

example : ({} : ResourceLimits).validate = none := by decide

end AgentScheduler
