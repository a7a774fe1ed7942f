import PrimaryElection.Binary.Basic

namespace PrimaryElection.Binary

def halfEven (n shift : Nat) : Nat :=
  let unit := Nat.pow 2 shift
  let quotient := n / unit
  let rest := n % unit
  if 2 * rest < unit then quotient
  else if unit < 2 * rest then quotient + 1
  else quotient + quotient % 2

def rounded (x : Binary) : Binary :=
  if x.mantissa = 0 then ⟨x.negative, 0, -1074⟩
  else
    let shift := max ((x.mantissa.log2 : Int) - 52) (-1074 - x.exponent)
    let kept := halfEven (x.mantissa * Nat.pow 2 (-shift).toNat) shift.toNat
    if kept = Nat.pow 2 53 then ⟨x.negative, Nat.pow 2 52, x.exponent + shift + 1⟩
    else ⟨x.negative, kept, x.exponent + shift⟩

def exactSum (x y : Binary) : Binary :=
  let low := min x.exponent y.exponent
  let total := x.signed * Int.pow 2 (x.exponent - low).toNat + y.signed * Int.pow 2 (y.exponent - low).toNat
  ⟨total < 0, total.natAbs, low⟩

def add (x y : Binary) : Binary := (exactSum x.rounded y.rounded).rounded

end PrimaryElection.Binary
