import PrimaryElection.Group.Membership

namespace PrimaryElection.Group

open GroupM

variable {ι : Type} [DecidableEq ι]

def revokeAll : List (MemberId × Handler ι) → GroupM ι Unit
  | [] => return ()
  | (_, h) :: rest => do
    onNode h.node Node.revoke
    revokeAll rest

def gather : List (MemberId × Handler ι) → GroupM ι (List (MemberId × Payload))
  | [] => return []
  | (id, h) :: rest => do
    -- a member is asked even where a payload stands in for what it submits
    let submitted ← onNode h.node fun _ => Node.metadata
    let payload := ((← group).metadataOverrides.get? id).getD (.bytes submitted)
    let others ← gather rest
    return (id, payload) :: others

def assign (h : Handler ι) (epoch : Int) (leader : MemberId) (metadata : Roster Payload) :
    GroupM ι (Roster Bytes) := do
  let computed ← onNode h.node fun _ => Node.compute epoch (.text leader) metadata
  return computed.without h.withheld

def deliver (epoch : Int) (assignments : Roster Bytes) : List (MemberId × Handler ι) → GroupM ι Unit
  | [] => return ()
  | (id, h) :: rest => do
    match ((← group).assignmentOverrides.get? id).or ((assignments.get? id).map .bytes) with
    | some payload => onNode h.node fun tell => Node.complete tell epoch id payload
    | none => throw (.unassigned [id])
    deliver epoch assignments rest

/-- The leader of a round: the one that is asked for, or where nothing is, the member that joined first. -/
def leaderOf (g : Group ι) (asked : Value) : Except Error (MemberId × Handler ι) :=
  match g.members.entries with
  | [] => .error .empty
  | first :: _ =>
    if asked.isBlank then .ok first
    else if asked.key?.isNone then .error (.leaderNotComparable asked.kindName)
    else
      match asked.text?.bind fun id => (g.members.get? id).map (id, ·) with
      | some leader => .ok leader
      | none => .error (.unknownLeader asked)

def keepRound (r : Round) : GroupM ι Unit := update fun g => { g with rounds := g.rounds ++ [r] }

/-- Runs a round; an aborted one ends before the outcome is delivered. -/
def rebalance (asked : Value) (abort : Bool) : GroupM ι Round := do
  match leaderOf (← group) asked with
  | .error e => throw e
  | .ok (leader, chosen) =>
    let members := (← group).members.entries
    revokeAll members
    update fun g => { g with epoch := g.epoch + 1 }
    let epoch := (← group).epoch
    let metadata ← gather members
    let assignments ← assign chosen epoch leader (.ofList metadata)
    let ids := members.map Prod.fst
    let missing := ids.filter fun id => !assignments.contains id
    if !missing.isEmpty then throw (.unassigned (sortIds missing))
    let round : Round := ⟨epoch, leader, ids, assignments, !abort⟩
    if abort then
      revokeAll members
      keepRound round
    else
      deliver epoch assignments members
      keepRound round
      log (.completed epoch leader)
    return round

def poll : GroupM ι (Option Round) := do
  let w ← get
  if w.group.members.values.any fun h => (w.nodes h.node).node.rejoinNeeded then
    return some (← rebalance .null false)
  else return none

end PrimaryElection.Group
