import PrimaryElection.Identity.Codec

namespace PrimaryElection.Outcome

def version : Int := 0

def headFields (version : Int) (o : Outcome) : List Wire.Field :=
  [.int .two version, .int .two o.status.code, .flag o.hasPrimary] ++
    o.primaryId?.toList.map Wire.Field.string

def encodeAs (version identityVersion : Int) (o : Outcome) : Except Wire.WriteError Bytes := do
  let head ← Wire.encodeAll (o.headFields version)
  let tail ← match o.primaryIdentity? with
    | none => Wire.encodeAll [.flag false]
    | some identity =>
      let nested ← identity.encodeAs identityVersion
      Wire.encodeAll [.flag true, .blob nested]
  return head ++ tail

def encode (o : Outcome) : Except Wire.WriteError Bytes := o.encodeAs version Identity.version

def readPrimaryId : Wire.Read (Option MemberId) := do
  if ← Wire.readFlag "has_primary_member_id" then
    return some (← Wire.readString "primary_member_id")
  else return none

def expectIdentity (nested : Bytes) : Wire.Read Identity :=
  match Identity.decode (.bytes nested) with
  | .ok identity => return identity
  | .error e => throw (.inPrimary e.fault)

def readPrimaryIdentity : Wire.Read (Option Identity) := do
  if ← Wire.readFlag "has_primary_identity" then
    return some (← expectIdentity (← Wire.readBlob "primary_identity"))
  else return none

def expectStatus (code : Int) : Wire.Read Status :=
  match Status.ofCode? code with
  | some status => return status
  | none => throw (.unknownStatus code)

def expectConsistent (status : Status) (memberId : Option MemberId) (identity : Option Identity) :
    Wire.Read Outcome :=
  match ofParts status memberId identity with
  | .ok outcome => return outcome
  | .error e => throw (.inconsistent e)

def read : Wire.Read Outcome := do
  let tag ← Wire.readInt .two "version"
  if tag ≠ version then throw (.unsupportedVersion tag)
  let status ← expectStatus (← Wire.readInt .two "status")
  let memberId ← readPrimaryId
  let identity ← readPrimaryIdentity
  Wire.finish
  expectConsistent status memberId identity

def decode : Payload → Except DecodeError Outcome := Wire.decode PayloadKind.assignment.name read

end PrimaryElection.Outcome
