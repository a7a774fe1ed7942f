import PrimaryElection.Wire.Reader

namespace PrimaryElection.Identity

def version : Int := 0

def fields (version : Int) (i : Identity) : List Wire.Field :=
  [.int .two version, .string i.host, .int .four i.port, .flag i.eligible]

def encodeAs (version : Int) (i : Identity) : Except Wire.WriteError Bytes :=
  Wire.encodeAll (i.fields version)

def encode (i : Identity) : Except Wire.WriteError Bytes := i.encodeAs version

def expectValid (d : Draft) : Wire.Read Identity :=
  match h : d.check with
  | .ok identity => return identity
  | .error violations => throw (.invalidIdentity (violations.head (ne_nil_of_check h)).rule)

def read : Wire.Read Identity := do
  let tag ← Wire.readInt .two "version"
  if tag ≠ version then throw (.unsupportedVersion tag)
  let host ← Wire.readString "host"
  let port ← Wire.readInt .four "port"
  let eligible ← Wire.readFlag "eligible"
  Wire.finish
  expectValid (.of (.text host) (.int port) (.bool eligible))

def decode : Payload → Except DecodeError Identity := Wire.decode PayloadKind.identity.name read

end PrimaryElection.Identity
