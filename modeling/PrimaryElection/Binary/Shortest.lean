import PrimaryElection.Binary.Basic

namespace PrimaryElection.Binary

def compareScaled (a : Nat) (i : Int) (b : Nat) (j : Int) : Ordering :=
  compare (a * Nat.pow 10 i.toNat * Nat.pow 2 (-j).toNat) (b * Nat.pow 2 j.toNat * Nat.pow 10 (-i).toNat)

-- at a power of two the number below is half as far away as the number above
def narrowBelow (x : Binary) : Bool := x.mantissa = Nat.pow 2 52 && -1074 < x.exponent

/-- The magnitude `digits * 10 ^ scale` rounds to that of the number, a tie to the even mantissa. -/
def readsBack (x : Binary) (digits : Nat) (scale : Int) : Bool :=
  let low := if x.narrowBelow then 4 * x.mantissa - 1 else 4 * x.mantissa - 2
  let closed := x.mantissa % 2 = 0
  let below := compareScaled digits scale low (x.exponent - 2)
  let above := compareScaled digits scale (4 * x.mantissa + 2) (x.exponent - 2)
  (below = .gt || closed && below = .eq) && (above = .lt || closed && above = .eq)

def scale (x : Binary) : Int :=
  let guess := (x.mantissa.log2 + x.exponent) * 30103 / 100000
  let above (k : Int) : Bool := compareScaled 1 k x.mantissa x.exponent = .gt
  (((List.range 4).map fun (i : Nat) => guess + i).find? above).getD (guess + 4)

def neighbours (x : Binary) (scale : Int) : List Nat :=
  let low := x.mantissa * Nat.pow 2 x.exponent.toNat * Nat.pow 10 (-scale).toNat /
    (Nat.pow 2 (-x.exponent).toNat * Nat.pow 10 scale.toNat)
  [low, low + 1]

def nearer (x : Binary) (scale : Int) (low : Nat) : Nat :=
  match compareScaled (2 * low + 1) scale (2 * x.mantissa) x.exponent with
  | .gt => low
  | .lt => low + 1
  | .eq => if low % 2 = 0 then low else low + 1

def onGrid? (x : Binary) (scale : Int) : Option Nat :=
  match (x.neighbours scale).filter fun n => x.readsBack n scale with
  | [] => none
  | [n] => some n
  | low :: _ => some (x.nearer scale low)

def strip : Nat → Nat → Int → Nat × Int
  | 0, digits, scale => (digits, scale)
  | fuel + 1, digits, scale =>
    if digits % 10 = 0 then strip fuel (digits / 10) (scale + 1) else (digits, scale)

def shortest (x : Binary) : Nat × Int :=
  let grids := (List.range 17).map fun (count : Nat) => x.scale - (count + 1)
  match grids.findSome? fun scale => (x.onGrid? scale).map (·, scale) with
  -- 17 digits always suffice to read a number back
  | some (digits, scale) => strip 17 digits scale
  | none => (x.mantissa, 0)

end PrimaryElection.Binary
