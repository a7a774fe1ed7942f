import PrimaryElection.Outcome
import PrimaryElection.Roster
import PrimaryElection.Sorting

namespace PrimaryElection

def sortIds (ids : List MemberId) : List MemberId := sortBy (fun a b => decide (a ≤ b)) ids

namespace Election

def claim (address : Address) (id : MemberId) :
    List (Address × List MemberId) → List (Address × List MemberId)
  | [] => [(address, [id])]
  | (a, ids) :: rest => if a = address then (a, ids ++ [id]) :: rest else (a, ids) :: claim address id rest

def claims (members : List (MemberId × Identity)) : List (Address × List MemberId) :=
  members.foldl (fun groups e => claim e.2.address e.1 groups) []

def conflicts (round : Roster Identity) : List (Address × List MemberId) :=
  ((claims round.entries).filter fun c => 1 < c.2.length).map fun c => (c.1, sortIds c.2)

def candidates (round : Roster Identity) : List MemberId :=
  sortIds ((round.entries.filter fun e => e.2.eligible).map Prod.fst)

def choose? (round : Roster Identity) (leader : Option MemberId) : Option MemberId :=
  (leader.filter (· ∈ candidates round)).or (candidates round).head?

def elect (round : Roster Identity) (leader : Option MemberId) : Outcome :=
  if !(conflicts round).isEmpty then .duplicateAddress
  else
    match (choose? round leader).bind fun id => (round.get? id).map (id, ·) with
    | some (id, identity) => .elected id identity
    | none => .noCandidate

def conflictReport (round : Roster Identity) : Roster (List MemberId) :=
  .ofList ((conflicts round).map fun c => (c.1.toText, c.2))

end Election

end PrimaryElection
