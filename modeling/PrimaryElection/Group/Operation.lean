import PrimaryElection.Group.Rebalance

namespace PrimaryElection.Group

variable {ι : Type} [DecidableEq ι]

inductive Operation (ι : Type)
  | join (h : Handler ι) (memberId : Option MemberId)
  | leave (memberId : MemberId)
  | rebalance (leader : Value) (abort : Bool)
  | poll
  | overrideMetadata (memberId : MemberId) (p : Payload)
  | overrideAssignment (memberId : MemberId) (p : Payload)
  | clearOverrides
  | call (i : ι) (c : Call)

inductive Answer
  | done
  | joined (memberId : MemberId)
  | round (r : Option Round)
  | reply (r : Reply)

def operate : Operation ι → GroupM ι Answer
  | .join h memberId => return .joined (← join h memberId)
  | .leave memberId => do
    leave memberId
    return .done
  | .rebalance leader abort => return .round (some (← rebalance leader abort))
  | .poll => return .round (← poll)
  | .overrideMetadata memberId p => do
    overrideMetadata memberId p
    return .done
  | .overrideAssignment memberId p => do
    overrideAssignment memberId p
    return .done
  | .clearOverrides => do
    clearOverrides
    return .done
  | .call i c => return .reply (← GroupM.onNode i fun tell => perform tell c)

end PrimaryElection.Group
