import PrimaryElection.Payload
import PrimaryElection.Wire.Writer

namespace PrimaryElection.Wire

structure Cursor where
  offset : Nat := 0
  rest : Bytes
  deriving DecidableEq, Repr

def Cursor.start (data : Bytes) : Cursor := ⟨0, data⟩

abbrev Read := EStateM Fault Cursor

def take (count : Nat) (field : String) : Read Bytes := fun c =>
  if count ≤ c.rest.length then .ok (c.rest.take count) ⟨c.offset + count, c.rest.drop count⟩
  else .error (.truncated field count c.offset c.rest.length) c

def readInt (w : Width) (field : String) : Read Int := do
  let bytes ← take w.size field
  return w.ofBytes bytes

def readFlag (field : String) : Read Bool := do
  let value ← readInt .one field
  if value = 0 then return false
  else if value = 1 then return true
  else throw (.badFlag field value)

def readSized (w : Width) (field : String) : Read Bytes := do
  let length ← readInt w (field ++ " length")
  if length < 0 then throw (.negativeLength field length)
  take length.toNat field

def string? (bytes : Bytes) : Option String := String.fromUTF8? ⟨bytes.toArray⟩

def text? (bytes : Bytes) : Option Text := (string? bytes).map Text.ofString

def expectText (field : String) (bytes : Bytes) : Read Text :=
  match text? bytes with
  | some s => return s
  | none => throw (.notUtf8 field)

def readString (field : String) : Read Text := do
  expectText field (← readSized .two field)

def readBlob (field : String) : Read Bytes := readSized .four field

def finish : Read Unit := fun c =>
  if c.rest.isEmpty then .ok () c else .error (.trailing c.rest.length) c

inductive Kind
  | int (width : Width)
  | flag
  | string
  | blob
  deriving DecidableEq, Repr

namespace Field

def kind : Field → Kind
  | int w _ => .int w
  | flag _ => .flag
  | string _ => .string
  | blob _ => .blob

end Field

namespace Kind

def read (field : String) : Kind → Read Field
  | int w => return .int w (← readInt w field)
  | flag => return .flag (← readFlag field)
  | string => return .string (← readString field)
  | blob => return .blob (← readBlob field)

end Kind

inductive Request
  | field (kind : Kind) (name : String)
  | finish
  deriving DecidableEq, Repr

def Request.read : Request → Read (Option Field)
  | field kind name => some <$> kind.read name
  | finish => (fun _ => none) <$> Wire.finish

structure Reader where
  kind : String
  cursor : Cursor
  deriving DecidableEq, Repr

namespace Reader

def start (kind : String) : Payload → Except DecodeError Reader
  | .foreign value => .error ⟨kind, .notBytes value.kindName⟩
  | .bytes data => .ok ⟨kind, .start data⟩

def read {α : Type} (r : Reader) (work : Read α) : Except DecodeError α × Reader :=
  match work r.cursor with
  | .ok a c => (.ok a, { r with cursor := c })
  | .error fault c => (.error ⟨r.kind, fault⟩, { r with cursor := c })

end Reader

def decode {α : Type} (kind : String) (work : Read α) (p : Payload) : Except DecodeError α := do
  let r ← Reader.start kind p
  (r.read work).1

theorem string?_utf8 (s : String) : string? (utf8 s) = some s := by
  have h : (⟨(utf8 s).toArray⟩ : ByteArray) = s.toByteArray := by simp [utf8]
  simp [string?, h, String.fromUTF8?, s.isValidUTF8, String.fromUTF8]

theorem eq_utf8_of_string? {bytes : Bytes} {s : String} (h : string? bytes = some s) : bytes = utf8 s := by
  simp only [string?, String.fromUTF8?] at h
  split at h
  · injection h with h
    subst h
    simp [utf8, String.fromUTF8]
  · cases h

theorem text?_eq_some_iff {bytes : Bytes} {s : Text} : text? bytes = some s ↔ utf8? s = some bytes := by
  constructor
  · intro h
    obtain ⟨t, ht, rfl⟩ := Option.map_eq_some_iff.mp h
    rw [eq_utf8_of_string? ht, utf8?_ofString]
  · intro h
    obtain ⟨t, ht, rfl⟩ := Option.map_eq_some_iff.mp h
    rw [text?, string?_utf8, Text.string?_eq_some_iff.mp ht]
    rfl

end PrimaryElection.Wire
