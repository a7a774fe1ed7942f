import PrimaryElection.Node.Event

/-!
Sessions: a node together with the listener that it tells of its rounds. The listener notes down what it
is told; what else it does on each occasion is laid down beforehand in a script.
-/

namespace PrimaryElection

structure Script where
  onAssigned : List (List Action) := []
  onRevoked : List (List Action) := []
  deriving Inhabited

namespace Script

def size (s : Script) : Nat := s.onAssigned.length + s.onRevoked.length

def next (s : Script) : Notice.Kind → List Action × Script
  | .assigned => (s.onAssigned.headD [], { s with onAssigned := s.onAssigned.tail })
  | .revoked => (s.onRevoked.headD [], { s with onRevoked := s.onRevoked.tail })

end Script

structure Listener where
  heard : List Notice := []
  script : Script := {}
  deriving Inhabited

namespace Listener

def marks (l : Listener) : List String := l.heard.map fun n => n.kind.mark

def assignments (l : Listener) : List (Outcome × Int) :=
  l.heard.filterMap fun
    | .assigned outcome epoch => some (outcome, epoch)
    | .revoked => none

def revocations (l : Listener) : Nat := l.heard.countP fun n => n.kind = .revoked

end Listener

structure Session where
  node : Node
  listener : Listener := {}
  broadcast : Roster Bytes := .empty
  deriving Inhabited

def Session.start (config : Config) (script : Script) : Session :=
  ⟨⟨config, .joining, none, true, {}⟩, ⟨[], script⟩, .empty⟩

structure Run extends Session where
  trace : List Event := []

/-- Work on a session that may fail; a failure keeps all that was done before it. -/
abbrev HookM := EStateM Failure Run

namespace HookM

def emit (e : Event) : HookM Unit := modify fun r => { r with trace := r.trace ++ [e] }

def log (entry : LogEntry) : HookM Unit := emit (.logged entry)

def mark (key : Attribute) (value : Value) : HookM Unit := emit (.marked key value)

def node : HookM Node := return (← get).node

def update (f : Node → Node) : HookM Unit := modify fun r => { r with node := f r.node }

def measure (m : Metrics.Measurement) : HookM Unit := do
  update fun n => { n with metrics := n.metrics.record m }
  emit (.measured m)

theorem bind_eq_of_ok {α β : Type} {x : HookM α} {f : α → HookM β} {r s : Run} {a : α}
    (h : x r = .ok a s) : (x >>= f) r = f a s := by
  simp [bind, EStateM.bind, h]

theorem bind_eq_of_error {α β : Type} {x : HookM α} {f : α → HookM β} {r s : Run} {e : Failure}
    (h : x r = .error e s) : (x >>= f) r = .error e s := by
  simp [bind, EStateM.bind, h]

@[simp] theorem emit_eq (e : Event) (r : Run) :
    emit e r = .ok () { r with trace := r.trace ++ [e] } := rfl

@[simp] theorem log_eq (entry : LogEntry) (r : Run) :
    log entry r = .ok () { r with trace := r.trace ++ [.logged entry] } := rfl

@[simp] theorem mark_eq (key : Attribute) (value : Value) (r : Run) :
    mark key value r = .ok () { r with trace := r.trace ++ [.marked key value] } := rfl

@[simp] theorem node_eq (r : Run) : node r = .ok r.node r := rfl

@[simp] theorem update_eq (f : Node → Node) (r : Run) :
    update f r = .ok () { r with node := f r.node } := rfl

@[simp] theorem measure_eq (m : Metrics.Measurement) (r : Run) :
    measure m r = .ok () { r with
      node := { r.node with metrics := r.node.metrics.record m }
      trace := r.trace ++ [.measured m] } := rfl

def inSpan {α : Type} (hook : Hook) (attributes : List (Attribute × Value)) (work : HookM α) :
    HookM α := do
  emit (.opened hook attributes)
  fun r =>
    match work r with
    | .ok a r => .ok a { r with trace := r.trace ++ [.closed hook none] }
    | .error e r => .error e { r with trace := r.trace ++ [.closed hook (some e)] }

def noticeEpoch (n : Node) : Notice → Int
  | .assigned _ epoch => epoch
  | .revoked => n.epoch

def tellSafely (tell : Notice → HookM Unit) (notice : Notice) : HookM Unit := fun r =>
  match tell notice r with
  | .ok _ r => .ok () r
  | .error e r => log (.listenerFailed notice.kind (noticeEpoch r.node notice) e) r

end HookM

end PrimaryElection
