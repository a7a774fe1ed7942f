import PrimaryElection.Binary.Sum
import PrimaryElection.Value

namespace PrimaryElection.Value

def plus (v w : Value) : Value :=
  match v.integer?, w.integer? with
  | some i, some j => .int (i + j)
  | _, _ =>
    match v.number?, w.number? with
    | some x, some y => .real (x.add y)
    | _, _ => v

def less (v w : Value) : Bool :=
  match v.number?, w.number? with
  | some x, some y => !y.le x
  | _, _ => false

def overflows (v : Value) : Bool := v.integer?.any Binary.overflows

end PrimaryElection.Value
