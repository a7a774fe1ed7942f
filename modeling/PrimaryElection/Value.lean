import PrimaryElection.Binary.Basic
import PrimaryElection.Text

/-!
Loosely typed values: what a setting, a log field or a span attribute holds before anything is known
about it. `Value.isBlank` says which of them count as "not given", `Value.kindName` what they are
called in messages, `Value.same` when two of them are equal, and `Value.outline` what tells them apart
where their kinds matter too.
-/

namespace PrimaryElection

inductive Value
  | null
  | bool (b : Bool)
  | int (i : Int)
  | real (x : Binary)
  | text (s : Text)
  | list (items : List Value)
  | record (fields : List (Text × Value))
  deriving Inhabited

namespace Value

def isBlank : Value → Bool
  | null => true
  | bool b => !b
  | int i => i = 0
  | real x => x.mantissa = 0
  | text s => s.isEmpty
  | list items => items.isEmpty
  | record fields => fields.isEmpty

def kindName : Value → String
  | null => "NoneType"
  | bool _ => "bool"
  | int _ => "int"
  | real _ => "float"
  | text _ => "str"
  | list _ => "list"
  | record _ => "dict"

def text? : Value → Option Text
  | text s => some s
  | _ => none

def integer? : Value → Option Int
  | bool b => some (if b then 1 else 0)
  | int i => some i
  | _ => none

def number? : Value → Option Binary
  | real x => some x
  | v => v.integer?.map Binary.ofInt

inductive Key
  | nothing
  | number (x : Binary)
  | text (s : Text)
  deriving DecidableEq, Repr

def Key.before : Key → Key → Bool
  | .nothing, _ => true
  | .number _, .nothing => false
  | .number x, .number y => x.le y
  | .number _, .text _ => true
  | .text s, .text t => decide (s ≤ t)
  | .text _, _ => false

def keyBefore : Option Key → Option Key → Bool
  | none, _ => true
  | some _, none => false
  | some k, some k' => k.before k'

def key? : Value → Option Key
  | null => some .nothing
  | text s => some (.text s)
  | v => v.number?.map fun x => .number x.reduced

mutual

def same : Value → Value → Bool
  | list xs, list ys => sameItems xs ys
  | record xs, record ys => xs.length = ys.length && sameFields xs ys
  | v, w => v.key?.isSome && v.key? = w.key?

def sameItems : List Value → List Value → Bool
  | [], [] => true
  | v :: vs, w :: ws => v.same w && sameItems vs ws
  | _, _ => false

def sameFields : List (Text × Value) → List (Text × Value) → Bool
  | [], _ => true
  | (name, v) :: rest, others =>
    match others.lookup name with
    | some w => v.same w && sameFields rest others
    | none => false

end

mutual

def before : Value → Value → Bool
  | list xs, list ys => itemsBefore xs ys
  | v, w => keyBefore v.key? w.key?

def itemsBefore : List Value → List Value → Bool
  | [], _ => true
  | _ :: _, [] => false
  | v :: vs, w :: ws => if v.same w then itemsBefore vs ws else v.before w

end

mutual

/-- The kind and the key of a value and of all its parts, a collection standing for its size. -/
def outline : Value → List (String × Key)
  | list items =>
    ((list items).kindName, .number (.ofInt items.length)) :: outlineItems items
  | record fields =>
    ((record fields).kindName, .number (.ofInt fields.length)) :: outlineFields fields
  | v => v.key?.toList.map fun k => (v.kindName, k)

def outlineItems : List Value → List (String × Key)
  | [] => []
  | v :: rest => v.outline ++ outlineItems rest

def outlineFields : List (Text × Value) → List (String × Key)
  | [] => []
  | (name, v) :: rest => ((text name).kindName, .text name) :: v.outline ++ outlineFields rest

end

end Value

end PrimaryElection
