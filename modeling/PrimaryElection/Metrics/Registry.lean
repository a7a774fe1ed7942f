import PrimaryElection.Metrics.Meter
import PrimaryElection.Roster

/-!
The registry that containers of measurements share: the meters, the one among them that new containers
write to, and the container that speaks for each group when a gauge is read. A container whose
measurements are exported needs a group that can be told apart from others, so no collection.
-/

namespace PrimaryElection.Metrics

structure Container where
  group : Value
  enabled : Bool
  meter : Option Nat
  snapshot : Snapshot := {}
  deriving Inhabited

structure Speaker where
  group : Value
  container : Nat
  deriving Inhabited

def Speaker.put (group : Value) (container : Nat) : List Speaker → List Speaker
  | [] => [⟨group, container⟩]
  | s :: rest =>
    if s.group.key? = group.key? then ⟨s.group, container⟩ :: rest
    else s :: Speaker.put group container rest

/--
Meters and containers go by their serial numbers; a discarded container leaves a gap. `current` is the
meter for new containers, `gauged` the meter that last had its gauges registered, `watched` the meter
whose export is read.
-/
structure Registry where
  available : Bool := true
  meters : List Meter := []
  current : Option Nat := none
  gauged : Option Nat := none
  watched : Option Nat := none
  speakers : List Speaker := []
  containers : List (Option Container) := []
  deriving Inhabited

namespace Registry

def container? (r : Registry) (serial : Nat) : Option Container := (r.containers[serial]?).join

def reset (r : Registry) : Registry :=
  { r with current := none, gauged := none, speakers := [] }

def addMeter (r : Registry) (m : Meter) : Registry :=
  { r with meters := r.meters ++ [m], current := some r.meters.length }

def install (r : Registry) : Registry :=
  let r := r.reset.addMeter { installed := true }
  { r with watched := r.current }

def ensureMeter (r : Registry) : Registry :=
  match r.current with
  | some _ => r
  | none => r.addMeter {}

def ensureGauges (r : Registry) : Registry :=
  if r.gauged = r.current then r
  else
    match r.current with
    | none => r
    | some i =>
      { r with
        meters := r.meters.modify i fun m => { m with gauges := m.gauges + 1 }
        gauged := some i }

def add (r : Registry) (c : Container) : Nat × Registry :=
  (r.containers.length, { r with containers := r.containers ++ [some c] })

def create (r : Registry) (group : Value) (enable : Bool) : Except Error Nat × Registry :=
  if enable && r.available then
    let r := r.ensureMeter.ensureGauges
    if group.key?.isNone then (.error (.groupNotComparable group.kindName), r)
    else
      let (serial, r) := r.add ⟨group, true, r.current, {}⟩
      (.ok serial, { r with speakers := Speaker.put group serial r.speakers })
  else
    let (serial, r) := r.add ⟨group, false, none, {}⟩
    (.ok serial, r)

def discard (r : Registry) (serial : Nat) : Registry :=
  { r with containers := r.containers.modify serial fun _ => none }

def meterOf? (r : Registry) (c : Container) : Option Meter := c.meter.bind fun i => r.meters[i]?

/--
Takes a measurement of a container into its snapshot and its meter. What the meter refuses is missing in
the snapshot as well.
-/
def record (r : Registry) (serial : Nat) (m : Measurement) : Option Error × Registry :=
  match r.container? serial with
  | none => (none, r)
  | some c =>
    let counted := { r with
      meters := match c.meter with
        | none => r.meters
        | some i => r.meters.modify i fun meter => meter.record c.group m }
    match (r.meterOf? c).bind fun meter => meter.refuses m with
    | some e => (some e, counted)
    | none =>
      (none, { counted with
        containers := r.containers.modify serial fun o =>
          o.map fun c => { c with snapshot := c.snapshot.record m } })

def latest (r : Registry) : List (Value × Snapshot) :=
  r.speakers.filterMap fun s => (r.container? s.container).map fun c => (s.group, c.snapshot)

def prune (r : Registry) : Registry :=
  { r with speakers := r.speakers.filter fun s => (r.container? s.container).isSome }

def exported (r : Registry) : Export :=
  match r.watched.bind fun i => r.meters[i]? with
  | none => []
  | some m => m.exported r.latest

def collect (r : Registry) : Export × Registry :=
  match r.watched with
  | none => (r.exported, r)
  | some i =>
    let read := { r with meters := r.meters.modify i Meter.settle }
    (r.exported, if (r.meters[i]?.map Meter.gauges).getD 0 = 0 then read else read.prune)

end Registry

structure Catalog where
  registry : Registry := {}
  serials : Roster Nat := .empty
  deriving Inhabited

namespace Catalog

def container? (c : Catalog) (name : Text) : Option Container :=
  (c.serials.get? name).bind c.registry.container?

def create (c : Catalog) (name : Text) (group enable : Value) : Except Error Value × Catalog :=
  match c.registry.create group (!enable.isBlank) with
  | (.error e, registry) => (.error e, { c with registry := registry })
  | (.ok serial, registry) =>
    let registry := match c.serials.get? name with
      | none => registry
      | some old => registry.discard old
    let c : Catalog := ⟨registry, c.serials.insert name serial⟩
    (.ok (if enable.isBlank then enable else .bool ((c.container? name).any Container.enabled)), c)

def discard (c : Catalog) (name : Text) : Option Error × Catalog :=
  match c.serials.get? name with
  | none => (some (.unknownContainer name), c)
  | some serial => (none, ⟨c.registry.discard serial, c.serials.erase name⟩)

def record (c : Catalog) (name : Text) (m : Measurement) : Option Error × Catalog :=
  match c.serials.get? name with
  | none => (some (.unknownContainer name), c)
  | some serial =>
    let (e, registry) := c.registry.record serial m
    (e, { c with registry := registry })

def collect (c : Catalog) : Export × Catalog :=
  let (e, registry) := c.registry.collect
  (e, { c with registry := registry })

end Catalog

end PrimaryElection.Metrics
