import PrimaryElection.Outcome
import PrimaryElection.Wire.Basic

namespace PrimaryElection

inductive Payload
  | bytes (data : Bytes)
  | foreign (value : Value)
  deriving Inhabited

inductive PayloadKind
  | identity
  | assignment
  deriving DecidableEq, Repr

def PayloadKind.name : PayloadKind → String
  | .identity => "identity"
  | .assignment => "assignment"

inductive Fault
  | notBytes (kind : String)
  | truncated (field : String) (need offset available : Nat)
  | badFlag (field : String) (value : Int)
  | negativeLength (field : String) (length : Int)
  | notUtf8 (field : String)
  | trailing (count : Nat)
  | unsupportedVersion (version : Int)
  | unknownStatus (code : Int)
  | invalidIdentity (rule : Identity.Rule)
  | inPrimary (fault : Fault)
  | inconsistent (error : Outcome.PartsError)
  deriving DecidableEq, Repr

namespace Fault

def reason : Fault → String
  | notBytes kind => s!"expected bytes, got {kind}"
  | truncated field need offset available =>
    s!"truncated input reading {field}: need {need} bytes at offset {offset}, " ++
      s!"only {available} available"
  | badFlag field value => s!"invalid {field} flag {value}"
  | negativeLength field length => s!"negative {field} length {length}"
  | notUtf8 field => s!"{field} is not valid UTF-8"
  | trailing count => s!"{count} unexpected trailing bytes"
  | unsupportedVersion version => s!"unsupported version {version}"
  | unknownStatus code => s!"unknown status code {code}"
  | invalidIdentity rule => "invalid identity: " ++ rule.message
  | inPrimary fault => "invalid primary identity: " ++ fault.reason
  | inconsistent error => error.message

end Fault

structure DecodeError where
  payload : String
  fault : Fault
  deriving DecidableEq, Repr

namespace DecodeError

def reason (e : DecodeError) : String := e.fault.reason

def message (e : DecodeError) : String := "Failed to decode " ++ e.payload ++ " payload: " ++ e.reason

end DecodeError

end PrimaryElection
