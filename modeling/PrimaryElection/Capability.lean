namespace PrimaryElection

inductive Capability
  | listener
  | handler
  | tracer
  deriving DecidableEq, Repr

namespace Capability

def methods : Capability → List String
  | listener => ["on_assigned", "on_revoked"]
  | handler => ["sub_protocol_name", "metadata", "compute_round_outcome", "on_round_complete",
      "on_revoked", "rejoin_needed"]
  | tracer => ["span"]

def properties : Capability → List String
  | tracer => ["enabled"]
  | _ => []

def fallback : String := "__getattr__"

def providedBy (c : Capability) (given : List String) : Bool :=
  c.methods.all given.contains &&
    (given.contains fallback || c.properties.all given.contains)

end Capability

end PrimaryElection
