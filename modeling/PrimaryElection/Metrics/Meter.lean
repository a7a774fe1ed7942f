import PrimaryElection.Metrics.Snapshot
import PrimaryElection.Sorting
import PrimaryElection.Text.Quoted
import PrimaryElection.Value.Sum

namespace PrimaryElection.Metrics

inductive Instrument
  | roundsComputed
  | roundsCompleted
  | decodeFailures
  | revocations
  | roundMembers
  | epoch
  | isPrimary
  deriving DecidableEq, Repr

namespace Instrument

def name : Instrument → String
  | roundsComputed => "election.rounds.computed"
  | roundsCompleted => "election.rounds.completed"
  | decodeFailures => "election.decode.failures"
  | revocations => "election.revocations"
  | roundMembers => "election.round.members"
  | epoch => "election.epoch"
  | isPrimary => "election.is_primary"

def unit : Instrument → String
  | roundsComputed => "rounds"
  | roundsCompleted => "rounds"
  | decodeFailures => "payloads"
  | revocations => "revocations"
  | roundMembers => "members"
  | epoch => "1"
  | isPrimary => "1"

def description : Instrument → String
  | roundsComputed => "Election rounds computed while acting as round leader"
  | roundsCompleted => "Election outcomes delivered to the rebalance listener"
  | decodeFailures => "Identity or assignment payloads that failed to decode"
  | revocations => "Assignments revoked ahead of a rebalance"
  | roundMembers => "Members whose metadata was submitted to a computed round"
  | epoch => "Epoch of the last completed election round"
  | isPrimary => "1 if this node is the elected primary, else 0"

end Instrument

abbrev Labels := List (String × Value)

/-- What labels are told apart by: values of different kinds differ even where they are equal. -/
def Labels.identity (l : Labels) : List (String × List (String × Value.Key)) :=
  l.map fun e => (e.1, e.2.outline)

abbrev Tally := List (Labels × Nat)

def Tally.count (labels : Labels) : Tally → Tally
  | [] => [(labels, 1)]
  | (l, n) :: rest =>
    if l.identity = labels.identity then (l, n + 1) :: rest else (l, n) :: Tally.count labels rest

structure Spread where
  count : Nat
  sum : Value
  min : Value
  max : Value

def Spread.of (amount : Value) : Spread := ⟨1, (Value.int 0).plus amount, amount, amount⟩

def Spread.add (s : Spread) (amount : Value) : Spread :=
  ⟨s.count + 1, s.sum.plus amount, if amount.less s.min then amount else s.min,
    if s.max.less amount then amount else s.max⟩

def Spread.join (later earlier : Spread) : Spread :=
  ⟨earlier.count + later.count, later.sum.plus earlier.sum,
    if earlier.min.less later.min then earlier.min else later.min,
    if later.max.less earlier.max then earlier.max else later.max⟩

structure Amounts where
  settled : Option Spread := none
  recent : Option Spread := none

namespace Amounts

def add (a : Amounts) (amount : Value) : Amounts :=
  match a.recent with
  | none => { a with recent := some (.of amount) }
  | some s => { a with recent := some (s.add amount) }

def total? (a : Amounts) : Option Spread :=
  match a.recent, a.settled with
  | some later, some earlier => some (later.join earlier)
  | later, earlier => later.or earlier

def settle (a : Amounts) : Amounts := ⟨a.total?, none⟩

end Amounts

abbrev Spreads := List (Labels × Amounts)

def Spreads.add (labels : Labels) (amount : Value) : Spreads → Spreads
  | [] => [(labels, Amounts.add {} amount)]
  | (l, a) :: rest =>
    if l.identity = labels.identity then (l, a.add amount) :: rest
    else (l, a) :: Spreads.add labels amount rest

structure Meter where
  installed : Bool := false
  gauges : Nat := 0
  computed : Tally := []
  completed : Tally := []
  decodeFailures : Tally := []
  revocations : Tally := []
  members : Spreads := []
  deriving Inhabited

inductive Error
  | groupNotComparable (kind : String)
  | amountNotNumber (kind : String)
  | amountTooLarge
  | unknownContainer (name : Text)
  deriving DecidableEq, Repr

def Error.message : Error → String
  | .groupNotComparable kind => s!"unhashable type: '{kind}'"
  | .amountNotNumber kind => s!"must be real number, not {kind}"
  | .amountTooLarge => "int too large to convert to float"
  | .unknownContainer name => Text.quoted name

def amountError? (amount : Value) : Option Error :=
  if amount.number?.isNone then some (.amountNotNumber amount.kindName)
  else if amount.overflows then some .amountTooLarge
  else none

namespace Meter

def refuses (m : Meter) : Measurement → Option Error
  -- a meter that nobody reads takes everything
  | .computed members _ => if m.installed then amountError? members else none
  | _ => none

/-- A number of members that is negative or cannot be shown is not taken up, though the round counts. -/
def addMembers (labels : Labels) (members : Value) (s : Spreads) : Spreads :=
  if members.less (.int 0) || (amountError? members).isSome then s else s.add labels members

def record (m : Meter) (group : Value) : Measurement → Meter
  | .computed members _ =>
    { m with
      computed := Tally.count [("group", group)] m.computed
      members := addMembers [("group", group)] members m.members }
  | .completed status _ _ =>
    { m with completed := Tally.count [("group", group), ("status", status)] m.completed }
  | .decodeFailure payload =>
    { m with
      decodeFailures := Tally.count [("group", group), ("payload", payload)] m.decodeFailures }
  | .revoked => { m with revocations := Tally.count [("group", group)] m.revocations }

def settle (m : Meter) : Meter := { m with members := m.members.map fun e => (e.1, e.2.settle) }

end Meter

inductive Reading
  | value (v : Value)
  | spread (s : Spread)

structure Point where
  labels : Labels
  reading : Reading

def labelsBefore : Labels → Labels → Bool
  | [], _ => true
  | _ :: _, [] => false
  | (name, v) :: rest, (name', w) :: rest' =>
    if name ≠ name' then decide (name < name')
    else if v.same w then labelsBefore rest rest' else v.before w

def sortPoints (points : List Point) : List Point :=
  sortBy (fun a b => labelsBefore a.labels b.labels) points

abbrev Export := List (Instrument × List Point)

def gaugePoints (f : Snapshot → Value) (latest : List (Value × Snapshot)) : List Point :=
  (latest.takeWhile fun e => (amountError? (f e.2)).isNone).map fun e =>
    ⟨[("group", e.1)], .value (f e.2)⟩

def Meter.exported (m : Meter) (latest : List (Value × Snapshot)) : Export :=
  let totals (t : Tally) : List Point := t.map fun e => ⟨e.1, .value (.int e.2)⟩
  let gauge (f : Snapshot → Value) : List Point := if m.gauges = 0 then [] else gaugePoints f latest
  let shown : Export :=
    [(.roundsComputed, totals m.computed),
      (.roundsCompleted, totals m.completed),
      (.decodeFailures, totals m.decodeFailures),
      (.revocations, totals m.revocations),
      (.roundMembers, m.members.filterMap fun e => e.2.total?.map fun s => ⟨e.1, .spread s⟩),
      (.epoch, gauge fun s => s.epoch),
      (.isPrimary, gauge fun s => .int (if s.isPrimary.isBlank then 0 else 1))]
  (shown.filter fun e => !e.2.isEmpty).map fun e => (e.1, sortPoints e.2)

end PrimaryElection.Metrics
