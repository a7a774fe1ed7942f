import PrimaryElection.Node.Perform

/-!
Groups kept in memory. A group knows its members in the order in which they joined, the sub-protocol that
they speak, the epoch of its last round, and the payloads that stand in for what members submit or get.
-/

namespace PrimaryElection

structure Handler (ι : Type) where
  node : ι
  withheld : List MemberId := []

structure Round where
  epoch : Int
  leader : MemberId
  members : List MemberId
  assignments : Roster Bytes
  delivered : Bool

structure Group (ι : Type) where
  groupId : Value := .text defaultGroup
  members : Roster (Handler ι) := .empty
  subProtocol : Option Value := none
  epoch : Int := 0
  nextMember : Nat := 1
  metadataOverrides : Roster Payload := .empty
  assignmentOverrides : Roster Payload := .empty
  rounds : List Round := []

namespace Group

inductive LogEntry
  | joined (memberId : MemberId)
  | completed (epoch : Int) (leader : MemberId)

namespace LogEntry

def message : LogEntry → String
  | joined _ => "Member joined"
  | completed _ _ => "Round complete"

def details : LogEntry → List (String × Value)
  | joined memberId => [("member_id", .text memberId)]
  | completed epoch leader => [("epoch", .int epoch), ("leader_member_id", .text leader)]

def source : String := "groupelect.testing.membership"

def record (groupId : Value) (e : LogEntry) : Log.Record Failure :=
  ⟨.debug, source, e.message, ("group_id", groupId) :: e.details, none⟩

end LogEntry

inductive Error
  | empty
  | leaderNotComparable (kind : String)
  | unknownLeader (leader : Value)
  | unassigned (memberIds : List MemberId)
  | protocolMismatch (expected actual : Value)
  | alreadyJoined (memberId : MemberId)
  | unknownMember (memberId : MemberId)
  | node (failure : Failure)

def Error.message : Error → String
  | .empty => "cannot rebalance an empty group"
  | .leaderNotComparable kind => s!"unhashable type: '{kind}'"
  | .unknownLeader leader => "unknown round leader " ++ leader.shown
  | .unassigned memberIds => "round leader produced no assignment for " ++ Text.quotedList memberIds
  | .protocolMismatch expected actual =>
    "Member advertises sub-protocol " ++ actual.shown ++ " but the group uses " ++ expected.shown
  | .alreadyJoined memberId => "member id " ++ Text.quoted memberId ++ " already joined"
  | .unknownMember memberId => Text.quoted memberId
  | .node failure => failure.message

inductive Note (ι : Type)
  | node (i : ι) (event : Event)
  | logged (groupId : Value) (entry : LogEntry)

structure World (ι : Type) where
  group : Group ι
  nodes : ι → Session
  trace : List (Note ι) := []

end Group

/-- Work on a group that may fail; a failure keeps all that was done before it. -/
abbrev GroupM (ι : Type) := EStateM Group.Error (Group.World ι)

namespace GroupM

variable {ι : Type}

def group : GroupM ι (Group ι) := return (← get).group

def update (f : Group ι → Group ι) : GroupM ι Unit := modify fun w => { w with group := f w.group }

def log (entry : Group.LogEntry) : GroupM ι Unit :=
  modify fun w => { w with trace := w.trace ++ [.logged w.group.groupId entry] }

def onNode [DecidableEq ι] {α : Type} (i : ι) (work : (Notice → HookM Unit) → HookM α) :
    GroupM ι α := fun w =>
  let ended := (w.nodes i).run work
  let w := { w with
    nodes := fun j => if j = i then ended.session else w.nodes j
    trace := w.trace ++ ended.events.map (.node i) }
  match ended.result with
  | .ok a => .ok a w
  | .error e => .error (.node e) w

end GroupM

end PrimaryElection
