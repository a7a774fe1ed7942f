import PrimaryElection.Node.Session

namespace PrimaryElection.Node

open HookM

def move (target : Phase) : HookM Unit := do
  let source := (← node).phase
  if source.canMoveTo target then
    log (.moved source target)
    update fun n => { n with phase := target }
  else throw (.transition source target)

theorem move_eq_ok {target : Phase} {r : Run} (h : r.node.phase.canMoveTo target = true) :
    move target r = .ok () { r with
      node := { r.node with phase := target }
      trace := r.trace ++ [.logged (.moved r.node.phase target)] } := by
  rw [move, bind_eq_of_ok (node_eq r)]
  simp only [h, if_true]
  exact bind_eq_of_ok (log_eq _ r)

theorem move_eq_error {target : Phase} {r : Run} (h : r.node.phase.canMoveTo target = false) :
    move target r = .error (.transition r.node.phase target) r := by
  rw [move, bind_eq_of_ok (node_eq r)]
  simp only [h]
  rfl

def needRejoin : HookM Unit := update fun n => { n with rejoinNeeded := true }

def abandon (reason : Abandonment) : HookM Unit := do
  log (.abandoning (← node).phase reason)
  needRejoin
  move .joining

theorem abandon_eq {reason : Abandonment} {r : Run} (h : r.node.phase.inRound = true) :
    abandon reason r = .ok () { r with
      node := { r.node with phase := .joining, rejoinNeeded := true }
      trace := r.trace ++ [.logged (.abandoning r.node.phase reason)] ++
        [.logged (.moved r.node.phase .joining)] } := by
  have hmove : r.node.phase.canMoveTo .joining = true := by
    cases hp : r.node.phase <;> simp_all [Phase.inRound, Phase.canMoveTo, Phase.targets]
  rw [abandon, bind_eq_of_ok (node_eq r), bind_eq_of_ok (log_eq _ _), needRejoin,
    bind_eq_of_ok (update_eq _ _)]
  exact move_eq_ok hmove

def groupAttribute (n : Node) : Attribute × Value := (.groupId, n.config.groupId)

def identity : HookM Identity := do
  MonadExcept.ofExcept ((← node).config.identity.mapError Failure.invalidIdentity)

def metadata : HookM Bytes := do
  let identity ← identity
  log (.submitting identity)
  MonadExcept.ofExcept (identity.encode.mapError Failure.unwritable)

def readable (members : Roster Payload) : Roster Identity :=
  members.filterMap fun p => (Identity.decode p).toOption

def exclude (epoch : Int) (memberId : MemberId) (e : DecodeError) : HookM Unit := do
  measure (.decodeFailure (.text e.payload))
  log (.excluding epoch memberId e.fault)

def excludeUnreadable (epoch : Int) : List (MemberId × Payload) → HookM Unit
  | [] => return ()
  | (memberId, payload) :: rest => do
    match Identity.decode payload with
    | .ok _ => pure ()
    | .error e => exclude epoch memberId e
    excludeUnreadable epoch rest

def broadcast (epoch : Int) (leader : Value) (members : Roster Payload) : HookM (Roster Bytes) := do
  excludeUnreadable epoch members.entries
  let round := readable members
  let excluded := members.size - round.size
  let outcome := Election.elect round leader.text?
  if outcome.failed then log (.conflict epoch (Election.conflictReport round))
  else log (.computed epoch leader outcome.primaryId? members.size excluded)
  mark .outcomeStatus (.text outcome.status.name)
  mark .excludedCount (.int excluded)
  measure (.computed (.int members.size) (.int excluded))
  let bytes ← MonadExcept.ofExcept (outcome.encode.mapError Failure.unwritable)
  return members.map fun _ => bytes

def compute (epoch : Int) (leader : Value) (members : Roster Payload) : HookM (Roster Bytes) := do
  inSpan .compute [groupAttribute (← node), (.epoch, .int epoch), (.leaderId, leader),
      (.memberCount, .int members.size)] do
    if (← node).phase.inRound then abandon .superseded
    move .leading
    broadcast epoch leader members

def accept (a : Acceptance) : HookM Unit := do
  update fun n => { n with accepted := some a, rejoinNeeded := false }
  let isPrimary := a.outcome.isPrimary (some a.memberId)
  mark .outcomeStatus (.text a.outcome.status.name)
  mark .isPrimary (.bool isPrimary)
  match a.outcome.primaryId? with
  | some id => mark .primaryId (.text id)
  | none => pure ()
  measure (.completed (.text a.outcome.status.name) (.int a.epoch) (.bool isPrimary))
  log (.completed a.epoch a.memberId a.outcome)

/--
Takes in the outcome of a round and becomes active. An outcome that cannot be read, or whose epoch does
not advance, is dropped together with the round.
-/
def complete (tell : Notice → HookM Unit) (epoch : Int) (memberId : MemberId) (data : Payload) :
    HookM Unit := do
  inSpan .complete [groupAttribute (← node), (.epoch, .int epoch), (.memberId, .text memberId)] do
    if (← node).phase = .joining then move .following
    move .synced
    match Outcome.decode data with
    | .error e =>
      measure (.decodeFailure (.text e.payload))
      log (.undecodable epoch memberId e.fault)
      abandon .undecodable
    | .ok outcome =>
      let last := (← node).epoch
      if epoch ≤ last then
        log (.stale epoch last memberId)
        abandon .stale
      else
        accept ⟨epoch, memberId, outcome⟩
        tellSafely tell (.assigned outcome epoch)
        move .active

def surrender (tell : Notice → HookM Unit) : HookM Unit := do
  move .revoking
  measure .revoked
  log (.revoking (← node).epoch (← node).memberId)
  tellSafely tell .revoked
  move .joining

/--
Leaves the round ahead of the next one. While the listener hears of an assignment the revocation waits
for the next round, and while it hears of a revocation there is nothing left to do.
-/
def revoke (tell : Notice → HookM Unit) : HookM Unit := do
  let n ← node
  match n.phase with
  | .revoking => return ()
  | .synced =>
    log (.revokeDeferred n.epoch)
    needRejoin
  | phase =>
    inSpan .revoke [groupAttribute n, (.epoch, .int n.epoch), (.phase, .text phase.name)] do
      needRejoin
      if phase.inRound then abandon .revoked
      else if phase = .active then surrender tell

def requestRejoin (reason : Value) : HookM Unit := do
  if !(← node).rejoinNeeded then log (.rejoinRequested reason)
  needRejoin

end PrimaryElection.Node
