import PrimaryElection.Text
import PrimaryElection.Text.Printable

namespace PrimaryElection.Text

def hexDigit (n : Nat) : Char := (Nat.digitChar (n % 16))

def hexDigits : Nat → Nat → List Char
  | 0, _ => []
  | width + 1, n => hexDigits width (n / 16) ++ [hexDigit n]

def numericEscape (p : CodePoint) : List Char :=
  if p.code < 0x100 then '\\' :: 'x' :: hexDigits 2 p.code
  else if p.code < 0x10000 then '\\' :: 'u' :: hexDigits 4 p.code
  else '\\' :: 'U' :: hexDigits 8 p.code

def escape (quote : Char) : CodePoint → List Char
  | .surrogate low => numericEscape (.surrogate low)
  | .char c =>
    if c = quote ∨ c = '\\' then ['\\', c]
    else if c = '\n' then ['\\', 'n']
    else if c = '\r' then ['\\', 'r']
    else if c = '\t' then ['\\', 't']
    else if isPrintable c then [c]
    else numericEscape (.char c)

def quoteOf (s : Text) : Char :=
  if .char '\'' ∈ s.points ∧ .char '"' ∉ s.points then '"' else '\''

def quoted (s : Text) : String :=
  let quote := quoteOf s
  String.ofList (quote :: s.points.flatMap (escape quote) ++ [quote])

/-- The first surrogates of a text and where they stand, as a message names them. -/
def surrogatesShown (s : Text) : String :=
  let before := (s.points.takeWhile fun p => !p.isSurrogate).length
  match (s.points.drop before).takeWhile CodePoint.isSurrogate with
  | [p] => "character '" ++ String.ofList (numericEscape p) ++ "' in position " ++ toString before
  | run => "characters in position " ++ toString before ++ "-" ++ toString (before + run.length - 1)

def quotedList (names : List Text) : String :=
  "[" ++ ", ".intercalate (names.map quoted) ++ "]"

end PrimaryElection.Text
