namespace PrimaryElection.Text

def fitting : Nat → List Char → List Char
  | _, [] => []
  | bytes, c :: rest => if c.utf8Size ≤ bytes then c :: fitting (bytes - c.utf8Size) rest else []

/-- The text itself up to 50 bytes, else 25 bytes of its beginning and 24 of its end. -/
def excerpt (s : String) : String :=
  if s.utf8ByteSize ≤ 50 then s
  else String.ofList (fitting 25 s.toList) ++ "..." ++
    String.ofList (fitting 24 s.toList.reverse).reverse

end PrimaryElection.Text
