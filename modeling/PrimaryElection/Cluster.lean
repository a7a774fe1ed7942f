import PrimaryElection.Group.Operation
import PrimaryElection.Monitor

namespace PrimaryElection

structure Cluster.Entry where
  name : Text
  withheld : List MemberId
  container : Nat

structure Cluster where
  entries : List Cluster.Entry := []
  nodes : Nat → Session := fun _ => default
  names : Roster Nat := .empty
  groups : Roster (Group Nat) := .empty
  registry : Metrics.Registry := {}
  metered : Bool := false

namespace Cluster

inductive Request
  | node (name : Text) (settings : Settings) (script : Script) (withheld : List MemberId)
  | group
  | join (node : Text) (memberId : Option MemberId)
  | leave (memberId : MemberId)
  | rebalance (leader : Value) (abort : Bool)
  | poll
  | overrideMetadata (memberId : MemberId) (data : Source)
  | overrideAssignment (memberId : MemberId) (data : Source)
  | clearOverrides
  | call (node : Text) (c : Call)
  | handler (memberId : MemberId)
  | rounds
  | collect

inductive Error
  | settings (e : Settings.Error)
  | metrics (e : Metrics.Error)
  | unknownNode (name : Text)
  | unknownGroup (name : Text)
  | group (e : Group.Error)

inductive Reply
  | done
  | memberId (id : MemberId)
  | round (r : Option Round)
  | rounds (rs : List Round)
  | nodeName (name : Text)
  | response (r : Response)

structure Report where
  result : Except Error Reply
  logs : List (Log.Record Failure) := []
  nested : List (Text × Nested) := []

def start (group : Text) (groupId : Value) (metered : Bool) : Cluster :=
  { groups := Roster.empty.insert group { groupId := groupId }
    registry := if metered then Metrics.Registry.install {} else {}
    metered := metered }

def nameOf (c : Cluster) (i : Nat) : Text := (c.entries[i]?.map Entry.name).getD ""

def containerOf (c : Cluster) (i : Nat) : Nat := (c.entries[i]?.map Entry.container).getD 0

def sessions (c : Cluster) : List (Text × Session) :=
  c.names.entries.map fun e => (e.1, c.nodes e.2)

def settle (c : Cluster) : Cluster :=
  let made := ((List.range c.entries.length).map c.nodes).toArray
  { c with nodes := fun i => made[i]?.getD default }

def addNode (c : Cluster) (name : Text) (config : Config) (script : Script)
    (withheld : List MemberId) : Except Metrics.Error Unit × Cluster :=
  match c.registry.create config.groupId c.metered with
  | (.error e, registry) => (.error e, { c with registry := registry })
  | (.ok container, registry) =>
    let i := c.entries.length
    let session := Session.start config script
    (.ok (), { c with
      entries := c.entries ++ [⟨name, withheld, container⟩]
      nodes := fun j => if j = i then session else c.nodes j
      names := c.names.insert name i
      registry := registry })

def logsOfNotes (nodes : Nat → Session) (notes : List (Group.Note Nat)) : List (Log.Record Failure) :=
  notes.flatMap fun
    | .node i event => logsOf (nodes i).node.config.groupId [event]
    | .logged groupId entry => [entry.record groupId]

def follow (c : Cluster) (s : Sighting Text) : Group.Note Nat → Sighting Text
  | .logged _ _ => s
  | .node i event => s.follow (c.nameOf i) (c.containerOf i) event

def onGroup {α : Type} (c : Cluster) (name : Text) (work : GroupM Nat α)
    (reply : Metrics.Registry → α → Reply) : Report × Cluster :=
  match c.groups.get? name with
  | none => (⟨.error (.unknownGroup name), [], []⟩, c)
  | some group =>
    let finish (result : Except Group.Error α) (w : Group.World Nat) : Report × Cluster :=
      let seen := w.trace.foldl c.follow ⟨c.registry, []⟩
      let answer := (result.map (reply seen.registry)).mapError .group
      (⟨answer, logsOfNotes c.nodes w.trace, seen.nested⟩,
        { c with
          nodes := w.nodes
          groups := c.groups.insert name w.group
          registry := seen.registry })
    match work ⟨group, c.nodes, []⟩ with
    | .ok a w => finish (.ok a) w
    | .error e w => finish (.error e) w

def replyOf (registry : Metrics.Registry) : Group.Answer → Reply
  | .done => .done
  | .joined memberId => .memberId memberId
  | .round r => .round r
  | .reply r => .response (Response.of registry r)

def withNode (c : Cluster) (name : Text) (f : Nat → Report × Cluster) : Report × Cluster :=
  match c.names.get? name with
  | none => (⟨.error (.unknownNode name), [], []⟩, c)
  | some i => f i

def withPayload (c : Cluster) (data : Source) (f : Payload → Report × Cluster) :
    Report × Cluster :=
  match data.resolve .empty with
  | .ok p => f p
  | .error e => (⟨.error (.group (.node e)), [], []⟩, c)

def operate (c : Cluster) (group : Text) (op : Group.Operation Nat) : Report × Cluster :=
  c.onGroup group (Group.operate op) replyOf

def handle (c : Cluster) (group : Text) : Request → Report × Cluster
  | .node name settings script withheld =>
    match settings.config with
    | .error e => (⟨.error (.settings e), [], []⟩, c)
    | .ok config =>
      let (added, c) := c.addNode name config script withheld
      (⟨(added.map fun _ => .done).mapError .metrics, [], []⟩, c)
  | .group =>
    (⟨.ok .done, [], []⟩, { c with groups := c.groups.insert group { groupId := .text group } })
  | .join node memberId => c.withNode node fun i =>
    let withheld := (c.entries[i]?.map Entry.withheld).getD []
    c.operate group (.join ⟨i, withheld⟩ memberId)
  | .leave memberId => c.operate group (.leave memberId)
  | .rebalance leader abort => c.operate group (.rebalance leader abort)
  | .poll => c.operate group .poll
  | .overrideMetadata memberId data => c.withPayload data fun p =>
    c.operate group (.overrideMetadata memberId p)
  | .overrideAssignment memberId data => c.withPayload data fun p =>
    c.operate group (.overrideAssignment memberId p)
  | .clearOverrides => c.operate group .clearOverrides
  | .call node call => c.withNode node fun i => c.operate group (.call i call)
  | .handler memberId =>
    c.onGroup group (Group.handler memberId) fun _ h => .nodeName (c.nameOf h.node)
  | .rounds => c.onGroup group GroupM.group fun _ g => .rounds g.rounds
  | .collect => c.onGroup group (pure ()) fun registry _ => .response (.exported registry.exported)

def serve (c : Cluster) (group : Text) (request : Request) : Report × Cluster :=
  let (report, c) := c.handle group request
  (report, c.settle)

end Cluster

end PrimaryElection
