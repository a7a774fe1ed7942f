import PrimaryElection.Identity

/-!
Settings of a node and the configuration they make. The check is looser than that of an identity: it
asks for a host that is not blank and for a port that compares as a number, so settings may be accepted
although no identity can be made of them.
-/

namespace PrimaryElection

inductive Scheme
  | http
  | https
  deriving DecidableEq, Repr, Inhabited

namespace Scheme

def name : Scheme → String
  | http => "http"
  | https => "https"

def ofName? (s : Text) : Option Scheme :=
  if s = "http" then some http else if s = "https" then some https else none

end Scheme

def defaultSubProtocol : String := "elect-v0"

def defaultGroup : String := "groupelect"

structure Settings where
  host : Value
  port : Value
  primaryEligible : Value := .bool true
  groupId : Value := .text defaultGroup
  scheme : Value := .text Scheme.http.name
  subProtocol : Value := .text defaultSubProtocol
  deriving Inhabited

namespace Settings

inductive Error
  | repeatedField (name : String)
  | unexpectedField (name : String)
  | missingFields (names : List String)
  | blankHost
  | portNotComparable (kind : String)
  | portOutOfRange (port : Value)
  | blankGroup
  | schemeNotComparable (kind : String)
  | unsupportedScheme (scheme : Value)
  | blankSubProtocol

def plainQuoted (name : String) : String := "'" ++ name ++ "'"

def Error.message : Error → String
  | repeatedField name =>
    "ElectionConfig.__init__() got multiple values for argument " ++ plainQuoted name
  | unexpectedField name =>
    "ElectionConfig.__init__() got an unexpected keyword argument " ++ plainQuoted name
  | missingFields names =>
    "ElectionConfig.__init__() missing " ++ toString names.length ++ " required positional argument" ++
      (if names.length = 1 then "" else "s") ++ ": " ++ " and ".intercalate (names.map plainQuoted)
  | blankHost => "host must be a non-empty hostname or IP address that other nodes can reach."
  | portNotComparable kind =>
    "'<=' not supported between instances of 'int' and " ++ plainQuoted kind
  | portOutOfRange port => "port must be between 1 and 65535, got " ++ port.shown ++ "."
  | blankGroup => "group_id must be non-empty. Use the same value on every node."
  | schemeNotComparable kind => "unhashable type: " ++ plainQuoted kind
  | unsupportedScheme scheme =>
    "scheme must be one of " ++ Text.quotedList [Scheme.http.name, Scheme.https.name] ++ ", got " ++
      scheme.shown ++ "."
  | blankSubProtocol =>
    "sub_protocol must be non-empty. Use " ++ Text.quoted defaultSubProtocol ++ " (default)."

def fieldNames : List String :=
  ["host", "port", "primary_eligible", "group_id", "scheme", "sub_protocol"]

def ownName : String := "self"

def ofFields (fields : List (String × Value)) : Except Error Settings :=
  match fields.find? fun e => !fieldNames.contains e.1 with
  | some (name, _) => .error (if name = ownName then .repeatedField name else .unexpectedField name)
  | none =>
    match fields.lookup "host", fields.lookup "port" with
    | some host, some port =>
      let given (name : String) (value : Value) := (fields.lookup name).getD value
      let base : Settings := ⟨host, port, .bool true, .text defaultGroup, .text Scheme.http.name,
        .text defaultSubProtocol⟩
      .ok { base with
        primaryEligible := given "primary_eligible" base.primaryEligible
        groupId := given "group_id" base.groupId
        scheme := given "scheme" base.scheme
        subProtocol := given "sub_protocol" base.subProtocol }
    | host, port =>
      .error (.missingFields ((if host.isNone then ["host"] else []) ++
        if port.isNone then ["port"] else []))

def checkPort (port : Value) : Except Error Unit :=
  let inRange (ok : Bool) : Except Error Unit := if ok then .ok () else .error (.portOutOfRange port)
  match port with
  | .int i => inRange (1 ≤ i && i ≤ 65535)
  | .real x => inRange ((Binary.ofInt 1).le x && x.le (Binary.ofInt 65535))
  | .bool b => inRange b
  | v => .error (.portNotComparable v.kindName)

def checkScheme : Value → Except Error Scheme
  | .text s =>
    match Scheme.ofName? s with
    | some scheme => .ok scheme
    | none => .error (.unsupportedScheme (.text s))
  | .list items => .error (.schemeNotComparable (Value.list items).kindName)
  | .record fields => .error (.schemeNotComparable (Value.record fields).kindName)
  | v => .error (.unsupportedScheme v)

def check (s : Settings) : Except Error Scheme := do
  if s.host.isBlank then throw .blankHost
  checkPort s.port
  if s.groupId.isBlank then throw .blankGroup
  let scheme ← checkScheme s.scheme
  if s.subProtocol.isBlank then throw .blankSubProtocol
  return scheme

def draft (s : Settings) : Identity.Draft := .of s.host s.port s.primaryEligible

end Settings

structure Config where
  settings : Settings
  scheme : Scheme
  deriving Inhabited

namespace Config

def groupId (c : Config) : Value := c.settings.groupId

def subProtocol (c : Config) : Value := c.settings.subProtocol

def identity (c : Config) : Except (List Identity.Violation) Identity := c.settings.draft.check

end Config

def Settings.config (s : Settings) : Except Settings.Error Config := return ⟨s, ← s.check⟩

end PrimaryElection
