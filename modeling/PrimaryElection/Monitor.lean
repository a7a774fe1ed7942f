import PrimaryElection.Metrics.Registry
import PrimaryElection.Node.Perform
import PrimaryElection.Trace.Tracer

/-!
Sessions under observation. A monitor reads logs, spans, metrics and the calls of the listener off the
events of a session; the session itself runs as it would unobserved.
-/

namespace PrimaryElection

inductive Response
  | reply (r : Reply)
  | exported (e : Metrics.Export)

def Response.of (registry : Metrics.Registry) : Reply → Response
  | .exported => .exported registry.exported
  | r => .reply r

structure Nested where
  during : Notice.Kind
  call : Call
  result : Except Failure Response
  phase : Phase

structure Sighting (ι : Type) where
  registry : Metrics.Registry
  nested : List (ι × Nested) := []

def Sighting.follow {ι : Type} (i : ι) (container : Nat) (s : Sighting ι) : Event → Sighting ι
  | .measured m => { s with registry := (s.registry.record container m).2 }
  | .answered a =>
    let nested : Nested := ⟨a.during, a.call, a.result.map (Response.of s.registry), a.phase⟩
    { s with nested := s.nested ++ [(i, nested)] }
  | _ => s

def logsOf (groupId : Value) (events : List Event) : List (Log.Record Failure) :=
  events.filterMap fun
    | .logged entry => some (entry.record groupId)
    | _ => none

structure Monitor where
  session : Session
  tracer : Trace.Tracer
  registry : Metrics.Registry
  container : Nat

namespace Monitor

def start (config : Config) (script : Script) (tracing : Trace.Kind) (metered : Bool) :
    Except Metrics.Error Monitor :=
  let registry : Metrics.Registry := if metered then Metrics.Registry.install {} else {}
  match registry.create config.groupId metered with
  | (.ok container, registry) =>
    .ok ⟨Session.start config script, tracing.start, registry, container⟩
  | (.error e, _) => .error e

structure Report where
  result : Except Failure Response
  logs : List (Log.Record Failure)
  nested : List Nested

def call (m : Monitor) (c : Call) : Report × Monitor :=
  let ended := m.session.call c
  let seen := ended.events.foldl (Sighting.follow () m.container) ⟨m.registry, []⟩
  (⟨ended.result.map (Response.of seen.registry),
      logsOf m.session.node.config.groupId ended.events, seen.nested.map Prod.snd⟩,
    { m with
      session := ended.session
      tracer := ended.events.foldl Trace.Tracer.follow m.tracer.forget
      registry := seen.registry })

end Monitor

end PrimaryElection
