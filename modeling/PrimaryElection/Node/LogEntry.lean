import PrimaryElection.Log
import PrimaryElection.Node.Call

namespace PrimaryElection

inductive Abandonment
  | superseded
  | undecodable
  | stale
  | revoked
  deriving DecidableEq, Repr

def Abandonment.reason : Abandonment → String
  | .superseded => "superseded by a new round"
  | .undecodable => "undecodable outcome"
  | .stale => "stale epoch"
  | .revoked => "revoked mid-round"

inductive LogEntry
  | submitting (identity : Identity)
  | moved (source target : Phase)
  | abandoning (phase : Phase) (reason : Abandonment)
  | excluding (epoch : Int) (memberId : MemberId) (fault : Fault)
  | conflict (epoch : Int) (report : Roster (List MemberId))
  | computed (epoch : Int) (leader : Value) (primary : Option MemberId) (members excluded : Nat)
  | undecodable (epoch : Int) (memberId : MemberId) (fault : Fault)
  | stale (epoch last : Int) (memberId : MemberId)
  | completed (epoch : Int) (memberId : MemberId) (outcome : Outcome)
  | revokeDeferred (epoch : Int)
  | revoking (epoch : Int) (memberId : Option MemberId)
  | rejoinRequested (reason : Value)
  | listenerFailed (kind : Notice.Kind) (epoch : Int) (failure : Failure)

namespace LogEntry

def level : LogEntry → Log.Level
  | submitting _ | moved _ _ => .debug
  | excluding _ _ _ | stale _ _ _ => .warning
  | conflict _ _ | undecodable _ _ _ | listenerFailed _ _ _ => .error
  | _ => .info

def message : LogEntry → String
  | submitting _ => "Submitting election metadata"
  | moved _ _ => "Coordinator state transition"
  | abandoning _ _ => "Abandoning election round"
  | excluding _ _ _ => "Excluding member with unreadable election metadata"
  | conflict _ _ => "Election failed: members advertise duplicate addresses"
  | computed _ _ _ _ _ => "Computed election outcome"
  | undecodable _ _ _ => "Discarding undecodable election outcome"
  | stale _ _ _ => "Discarding election outcome for stale epoch"
  | completed _ _ _ => "Election round complete"
  | revokeDeferred _ => "Deferring revoke requested during assignment"
  | revoking _ _ => "Revoking election assignment"
  | rejoinRequested _ => "Requesting election rejoin"
  | listenerFailed kind _ _ => "Rebalance listener failed in " ++ kind.entry

def details : LogEntry → List (String × Value)
  | submitting identity => [("identity", .text identity.toText)]
  | moved source target => [("from_state", .text source.name), ("to_state", .text target.name)]
  | abandoning phase reason => [("state", .text phase.name), ("reason", .text reason.reason)]
  | excluding epoch memberId fault =>
    [("epoch", .int epoch), ("member_id", .text memberId), ("error", .text fault.reason)]
  | conflict epoch report =>
    [("epoch", .int epoch),
      ("duplicates", .record (report.entries.map fun e => (e.1, .list (e.2.map .text))))]
  | computed epoch leader primary members excluded =>
    [("epoch", .int epoch), ("leader_member_id", leader),
      ("primary_member_id", Log.optionalText primary), ("members", .int members),
      ("excluded", .int excluded)]
  | undecodable epoch memberId fault =>
    [("epoch", .int epoch), ("member_id", .text memberId), ("error", .text fault.reason)]
  | stale epoch last memberId =>
    [("epoch", .int epoch), ("last_epoch", .int last), ("member_id", .text memberId)]
  | completed epoch memberId outcome =>
    [("epoch", .int epoch), ("member_id", .text memberId), ("status", .text outcome.status.name),
      ("primary_member_id", Log.optionalText outcome.primaryId?),
      ("is_primary", .bool (outcome.isPrimary (some memberId)))]
  | revokeDeferred epoch => [("epoch", .int epoch)]
  | revoking epoch memberId => [("epoch", .int epoch), ("member_id", Log.optionalText memberId)]
  | rejoinRequested reason => [("reason", reason)]
  | listenerFailed _ epoch failure => [("epoch", .int epoch), ("error", .text failure.message)]

def failure? : LogEntry → Option Failure
  | listenerFailed _ _ failure => some failure
  | _ => none

def source : String := "groupelect.coordinator"

def record (groupId : Value) (e : LogEntry) : Log.Record Failure :=
  ⟨e.level, source, e.message, ("group_id", groupId) :: e.details, e.failure?⟩

end LogEntry

end PrimaryElection
