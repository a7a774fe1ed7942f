import PrimaryElection.Text.Quoted
import PrimaryElection.Value
import PrimaryElection.Wire.Basic

/-!
Writing fields. A text is preceded by its length in two bytes, a blob by its length in four. A field
that does not fit is refused whole: it adds no byte. Fields may be made of loosely typed values.
-/

namespace PrimaryElection.Wire

inductive Field
  | int (width : Width) (value : Int)
  | flag (value : Bool)
  | string (value : Text)
  | blob (value : Bytes)
  deriving DecidableEq, Repr

inductive WriteError
  | outOfRange (width : Width) (value : Int)
  | textTooLong (size : Nat)
  | noEncoding (text : Text)
  | notText (kind : String)
  deriving DecidableEq, Repr

def WriteError.message : WriteError → String
  | .outOfRange width value => s!"{value} does not fit in " ++ toString width.size ++ " bytes"
  | .textTooLong size => s!"string of {size} bytes exceeds the int16 length prefix"
  | .noEncoding text => "'utf-8' codec can't encode " ++ text.surrogatesShown ++ ": surrogates not allowed"
  | .notText kind => s!"'{kind}' object has no attribute 'encode'"

def maxText : Nat := 32767

def utf8 (s : String) : Bytes := s.toUTF8.data.toList

/-- The encoding of a text; one that holds a surrogate has none. -/
def utf8? (s : Text) : Option Bytes := s.string?.map utf8

@[simp] theorem utf8?_ofString (s : String) : utf8? s = some (utf8 s) := by simp [utf8?]

def encodeInt (w : Width) (v : Int) : Except WriteError Bytes :=
  if w.holds v then .ok (w.toBytes v) else .error (.outOfRange w v)

def flagCode (b : Bool) : Int := if b then 1 else 0

namespace Field

def encode : Field → Except WriteError Bytes
  | int w v => encodeInt w v
  | flag b => encodeInt .one (flagCode b)
  | string s =>
    match utf8? s with
    | none => .error (.noEncoding s)
    | some text =>
      if maxText < text.length then .error (.textTooLong text.length)
      else (encodeInt .two text.length).map (· ++ text)
  | blob b => (encodeInt .four b.length).map (· ++ b)

def ofText : Value → Except WriteError Field
  | .text s => .ok (.string s)
  | v => .error (.notText v.kindName)

end Field

/-- A number given as any value; what is no whole number fits no better than the bound. -/
def Width.numberOf (w : Width) (v : Value) : Int := v.integer?.getD w.bound

def encodeAll : List Field → Except WriteError Bytes
  | [] => .ok []
  | f :: fs => do
    let head ← f.encode
    let tail ← encodeAll fs
    return head ++ tail

structure Writer where
  bytes : Bytes := []
  deriving Inhabited

def Writer.size (w : Writer) : Nat := w.bytes.length

def Writer.write (w : Writer) (f : Field) : Option WriteError × Writer :=
  match f.encode with
  | .ok bytes => (none, ⟨w.bytes ++ bytes⟩)
  | .error e => (some e, w)

end PrimaryElection.Wire
