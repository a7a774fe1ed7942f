import PrimaryElection.Node.Basic

namespace PrimaryElection

inductive Source
  | payload (p : Payload)
  | identity (draft : Identity.Draft)
  | outcome (draft : Outcome.Draft)
  | computed (memberId : MemberId)
  deriving Inhabited

inductive Call
  | noop
  | config
  | subProtocolName
  | metadata
  | compute (epoch : Int) (leader : Value) (members : List (MemberId × Source))
  | complete (epoch : Int) (memberId : MemberId) (data : Source)
  | revoke
  | rejoinNeeded
  | requestRejoin (reason : Value)
  | isPrimary
  | status
  | listenerReset
  | collect
  deriving Inhabited

def Call.defaultReason : Value := .text "requested"

inductive Reply
  | done
  | subProtocol (name : Value)
  | bytes (data : Bytes)
  | assignments (payloads : Roster Bytes)
  | flag (b : Bool)
  | primary (b : Option Bool)
  | status (s : Status)
  | config (c : Config) (identity : Identity)
  | exported

inductive Failure
  | transition (source target : Phase)
  | unwritable (error : Wire.WriteError)
  | invalidIdentity (violations : List Identity.Violation)
  | notComputed (memberId : MemberId)
  | raised (message : String)
  deriving DecidableEq, Repr

def Failure.message : Failure → String
  | .transition source target =>
    "Invalid coordinator transition from " ++ source.name ++ " to " ++ target.name
  | .unwritable error => error.message
  | .invalidIdentity violations => Identity.Violation.report violations
  | .notComputed memberId => Text.quoted memberId
  | .raised message => message

inductive Action
  | call (c : Call) (caught : Bool)
  | raise (message : String)
  deriving Inhabited

inductive Notice
  | assigned (outcome : Outcome) (epoch : Int)
  | revoked
  deriving DecidableEq, Repr

inductive Notice.Kind
  | assigned
  | revoked
  deriving DecidableEq, Repr

def Notice.kind : Notice → Notice.Kind
  | .assigned _ _ => .assigned
  | .revoked => .revoked

def Notice.Kind.entry : Notice.Kind → String
  | .assigned => "on_assigned"
  | .revoked => "on_revoked"

def Notice.Kind.mark : Notice.Kind → String
  | .assigned => "assigned"
  | .revoked => "revoked"

end PrimaryElection
