import PrimaryElection.Group.Basic

namespace PrimaryElection.Group

open GroupM

variable {ι : Type} [DecidableEq ι]

def generatedId (n : Nat) : MemberId := Text.ofString ("member-" ++ toString n)

def handler (memberId : MemberId) : GroupM ι (Handler ι) := do
  match (← group).members.get? memberId with
  | some h => return h
  | none => throw (.unknownMember memberId)

def chooseId : Option MemberId → GroupM ι MemberId
  | some id => return id
  | none => do
    -- the number is used up, whether or not the id turns out to be free
    let id := generatedId (← group).nextMember
    update fun g => { g with nextMember := g.nextMember + 1 }
    return id

def join (h : Handler ι) (memberId : Option MemberId) : GroupM ι MemberId := do
  let actual := ((← get).nodes h.node).node.config.subProtocol
  match (← group).subProtocol with
  | none => update fun g => { g with subProtocol := some actual }
  | some expected => if !actual.same expected then throw (.protocolMismatch expected actual)
  let id ← chooseId memberId
  if (← group).members.contains id then throw (.alreadyJoined id)
  update fun g => { g with members := g.members.insert id h }
  log (.joined id)
  return id

def leave (memberId : MemberId) : GroupM ι Unit := do
  let h ← handler memberId
  update fun g => { g with
    members := g.members.erase memberId
    metadataOverrides := g.metadataOverrides.erase memberId
    assignmentOverrides := g.assignmentOverrides.erase memberId }
  onNode h.node Node.revoke
  if (← group).members.isEmpty then update fun g => { g with subProtocol := none }

def overrideMetadata (memberId : MemberId) (p : Payload) : GroupM ι Unit :=
  update fun g => { g with metadataOverrides := g.metadataOverrides.insert memberId p }

def overrideAssignment (memberId : MemberId) (p : Payload) : GroupM ι Unit :=
  update fun g => { g with assignmentOverrides := g.assignmentOverrides.insert memberId p }

def clearOverrides : GroupM ι Unit :=
  update fun g => { g with metadataOverrides := .empty, assignmentOverrides := .empty }

end PrimaryElection.Group
