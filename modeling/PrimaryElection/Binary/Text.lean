import PrimaryElection.Binary.Shortest

namespace PrimaryElection.Binary

def zeros (count : Nat) : List Char := List.replicate count '0'

def exponentText (e : Int) : String :=
  let size := toString e.natAbs
  let padded := if size.length < 2 then "0" ++ size else size
  (if e < 0 then "e-" else "e+") ++ padded

def positional (ds : List Char) (before : Int) : List Char :=
  if before ≤ 0 then '0' :: '.' :: zeros before.natAbs ++ ds
  else
    let whole := ds.take before.toNat ++ zeros (before.toNat - ds.length)
    let part := ds.drop before.toNat
    whole ++ '.' :: if part.isEmpty then ['0'] else part

def scientific (ds : List Char) (before : Int) : List Char :=
  ds.take 1 ++ (if ds.length ≤ 1 then [] else '.' :: ds.drop 1) ++ (exponentText (before - 1)).toList

def magnitudeText (x : Binary) : String :=
  if x.isInfinite then "inf"
  else if x.mantissa = 0 then "0.0"
  else
    let (digits, scale) := x.shortest
    let ds := (toString digits).toList
    let before : Int := ds.length + scale
    String.ofList (if -4 < before ∧ before ≤ 16 then positional ds before else scientific ds before)

def toText (x : Binary) : String := (if x.negative then "-" else "") ++ x.magnitudeText

end PrimaryElection.Binary
