import PrimaryElection.Value

namespace PrimaryElection.Metrics

inductive Measurement
  | computed (members excluded : Value)
  | completed (status epoch isPrimary : Value)
  | decodeFailure (payload : Value)
  | revoked

def okStatus : Value := .text "OK"

structure Snapshot where
  roundsComputed : Nat := 0
  roundsCompleted : Nat := 0
  roundsFailed : Nat := 0
  decodeFailures : Nat := 0
  revocations : Nat := 0
  epoch : Value := .int (-1)
  isPrimary : Value := .bool false
  lastRoundMembers : Value := .int 0
  lastRoundExcluded : Value := .int 0
  deriving Inhabited

namespace Snapshot

def record (s : Snapshot) : Measurement → Snapshot
  | .computed members excluded =>
    { s with
      roundsComputed := s.roundsComputed + 1
      lastRoundMembers := members
      lastRoundExcluded := excluded }
  | .completed status epoch isPrimary =>
    { s with
      roundsCompleted := s.roundsCompleted + 1
      roundsFailed := s.roundsFailed + (if status.same okStatus then 0 else 1)
      epoch := epoch
      isPrimary := isPrimary }
  | .decodeFailure _ => { s with decodeFailures := s.decodeFailures + 1 }
  | .revoked => { s with revocations := s.revocations + 1, isPrimary := .bool false }

end Snapshot

end PrimaryElection.Metrics
