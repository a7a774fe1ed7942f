import PrimaryElection.Node.Hooks

namespace PrimaryElection

open HookM

namespace Source

def resolve (broadcast : Roster Bytes) : Source → Except Failure Payload
  | payload p => .ok p
  | identity draft => do
    let identity ← draft.check.mapError .invalidIdentity
    return .bytes (← identity.encode.mapError .unwritable)
  | outcome draft => do
    let outcome ← draft.check.mapError .invalidIdentity
    return .bytes (← outcome.encode.mapError .unwritable)
  | computed memberId =>
    match broadcast.get? memberId with
    | some bytes => .ok (.bytes bytes)
    | none => .error (.notComputed memberId)

def resolveAll (broadcast : Roster Bytes) :
    List (MemberId × Source) → Except Failure (List (MemberId × Payload))
  | [] => .ok []
  | (memberId, source) :: rest => do
    let payload ← source.resolve broadcast
    let others ← resolveAll broadcast rest
    return (memberId, payload) :: others

end Source

def perform (tell : Notice → HookM Unit) : Call → HookM Reply
  | .noop => return .done
  | .config => do
    let config := (← node).config
    return .config config (← Node.identity)
  | .subProtocolName => return .subProtocol (← node).config.subProtocol
  | .metadata => return .bytes (← Node.metadata)
  | .compute epoch leader members => do
    let members ← MonadExcept.ofExcept (Source.resolveAll (← get).broadcast members)
    let payloads ← Node.compute epoch leader (.ofList members)
    modify fun r => { r with broadcast := payloads }
    return .assignments payloads
  | .complete epoch memberId data => do
    let data ← MonadExcept.ofExcept (data.resolve (← get).broadcast)
    Node.complete tell epoch memberId data
    return .done
  | .revoke => do
    Node.revoke tell
    return .done
  | .rejoinNeeded => return .flag (← node).rejoinNeeded
  | .requestRejoin reason => do
    Node.requestRejoin reason
    return .done
  | .isPrimary => return .primary (← node).isPrimary
  | .status => return .status (← node).status
  | .listenerReset => do
    modify fun r => { r with listener := { r.listener with heard := [] } }
    return .done
  | .collect => return .exported

def act (tell : Notice → HookM Unit) (kind : Notice.Kind) : Action → HookM Unit
  | .raise message => throw (.raised message)
  | .call c caught => fun r =>
    match perform tell c r with
    | .ok reply r => emit (.answered ⟨kind, c, .ok reply, r.node.phase⟩) r
    | .error e r =>
      match emit (.answered ⟨kind, c, .error e, r.node.phase⟩) r with
      | .ok _ r => if caught then .ok () r else .error e r
      | .error e r => .error e r

def actAll (tell : Notice → HookM Unit) (kind : Notice.Kind) : List Action → HookM Unit
  | [] => return ()
  | a :: rest => do
    act tell kind a
    actAll tell kind rest

def hear (notice : Notice) : HookM Unit := do
  modify fun r => { r with listener := { r.listener with heard := r.listener.heard ++ [notice] } }
  emit (.notified notice)

def takeActions (kind : Notice.Kind) : HookM (List Action) := do
  let (actions, script) := (← get).listener.script.next kind
  modify fun r => { r with listener := { r.listener with script := script } }
  return actions

/--
The listener. Each notice takes an occasion off the script, so listeners nest no deeper than the script
has occasions; `depth` bounds that.
-/
def react : Nat → Notice → HookM Unit
  | 0, notice => hear notice
  | depth + 1, notice => do
    hear notice
    actAll (react depth) notice.kind (← takeActions notice.kind)

namespace Session

structure Ended (α : Type) where
  result : Except Failure α
  session : Session
  events : List Event

def run {α : Type} (s : Session) (work : (Notice → HookM Unit) → HookM α) : Ended α :=
  match work (react s.listener.script.size) ⟨s, []⟩ with
  | .ok a r => ⟨.ok a, r.toSession, r.trace⟩
  | .error e r => ⟨.error e, r.toSession, r.trace⟩

def call (s : Session) (c : Call) : Ended Reply := s.run fun tell => perform tell c

end Session

end PrimaryElection
