import PrimaryElection.Node.LogEntry

namespace PrimaryElection

inductive Hook
  | compute
  | complete
  | revoke
  deriving DecidableEq, Repr

def Hook.spanName : Hook → String
  | .compute => "groupelect.coordinator.compute_round_outcome"
  | .complete => "groupelect.coordinator.on_round_complete"
  | .revoke => "groupelect.coordinator.on_revoked"

inductive Attribute
  | groupId
  | epoch
  | memberId
  | leaderId
  | memberCount
  | excludedCount
  | outcomeStatus
  | primaryId
  | isPrimary
  | phase
  deriving DecidableEq, Repr

def Attribute.key : Attribute → String
  | .groupId => "groupelect.group.id"
  | .epoch => "groupelect.epoch"
  | .memberId => "groupelect.member.id"
  | .leaderId => "groupelect.leader.member_id"
  | .memberCount => "groupelect.member.count"
  | .excludedCount => "groupelect.member.excluded_count"
  | .outcomeStatus => "groupelect.outcome.status"
  | .primaryId => "groupelect.primary.member_id"
  | .isPrimary => "groupelect.primary.is_self"
  | .phase => "groupelect.coordinator.state"

structure Answer where
  during : Notice.Kind
  call : Call
  result : Except Failure Reply
  phase : Phase

inductive Event
  | logged (entry : LogEntry)
  | opened (hook : Hook) (attributes : List (Attribute × Value))
  | marked (key : Attribute) (value : Value)
  | closed (hook : Hook) (failure : Option Failure)
  | measured (measurement : Metrics.Measurement)
  | notified (notice : Notice)
  | answered (answer : Answer)

end PrimaryElection
