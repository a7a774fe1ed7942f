import PrimaryElection.Value.Text

namespace PrimaryElection

inductive Phase
  | joining
  | leading
  | following
  | synced
  | active
  | revoking
  deriving DecidableEq, Repr, Inhabited

namespace Phase

def all : List Phase := [joining, leading, following, synced, active, revoking]

def name : Phase → String
  | joining => "joining"
  | leading => "leading"
  | following => "following"
  | synced => "synced"
  | active => "active"
  | revoking => "revoking"

def ofName? (s : Text) : Option Phase := all.find? fun p => s = p.name

theorem ofName?_name (p : Phase) : ofName? p.name = some p := by
  cases p <;> decide

def ofValue? : Value → Option Phase
  | .text s => ofName? s
  | _ => none

def unknownMessage (v : Value) : String := v.shown ++ " is not a valid CoordinatorState"

def targets : Phase → List Phase
  | joining => [following, leading]
  | leading => [joining, synced]
  | following => [joining, synced]
  | synced => [active, joining]
  | active => [revoking]
  | revoking => [joining]

def canMoveTo (source target : Phase) : Bool := target ∈ source.targets

def inRound : Phase → Bool
  | leading => true
  | following => true
  | synced => true
  | _ => false

end Phase

end PrimaryElection
