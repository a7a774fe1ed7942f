namespace PrimaryElection

structure Binary where
  negative : Bool
  mantissa : Nat
  exponent : Int
  deriving DecidableEq, Repr, Inhabited

namespace Binary

def ofInt (i : Int) : Binary := ⟨i < 0, i.natAbs, 0⟩

def ofBits (negative : Bool) (bits : UInt64) : Binary :=
  let fraction : Nat := bits.toNat % Nat.pow 2 52
  let exponent : Nat := bits.toNat / Nat.pow 2 52 % Nat.pow 2 11
  if exponent = 0 then ⟨negative, fraction, -1074⟩
  else ⟨negative, Nat.pow 2 52 + fraction, exponent - 1075⟩

def nearest (negative : Bool) (digits : Nat) (exponent : Int) : Binary :=
  ofBits negative (Float.ofScientific digits (exponent < 0) exponent.natAbs).toBits

def isInfinite (x : Binary) : Bool := 971 < x.exponent

def overflows (i : Int) : Bool := Nat.pow 2 1024 - Nat.pow 2 970 ≤ i.natAbs

def signed (x : Binary) : Int := if x.negative then -x.mantissa else x.mantissa

def le (x y : Binary) : Bool :=
  let low := min x.exponent y.exponent
  x.signed * Int.pow 2 (x.exponent - low).toNat ≤ y.signed * Int.pow 2 (y.exponent - low).toNat

def halve : Nat → Nat → Int → Nat × Int
  | 0, mantissa, exponent => (mantissa, exponent)
  | fuel + 1, mantissa, exponent =>
    if mantissa % 2 = 0 then halve fuel (mantissa / 2) (exponent + 1) else (mantissa, exponent)

def reduced (x : Binary) : Binary :=
  if x.mantissa = 0 then ofInt 0
  else
    let (mantissa, exponent) := halve x.mantissa.log2 x.mantissa x.exponent
    ⟨x.negative, mantissa, exponent⟩

end Binary

end PrimaryElection
