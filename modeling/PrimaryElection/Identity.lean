import PrimaryElection.Text.Excerpt
import PrimaryElection.Value.Text

namespace PrimaryElection

abbrev MemberId := Text

structure Address where
  host : String
  port : Nat
  deriving DecidableEq, Repr, Inhabited

structure Identity where
  host : String
  port : Nat
  eligible : Bool
  host_ne : host ≠ "" := by decide
  port_pos : 1 ≤ port := by decide
  port_le : port ≤ 65535 := by decide
  deriving DecidableEq, Repr

namespace Address

def toText (a : Address) : String := a.host ++ ":" ++ toString a.port

end Address

namespace Identity

def address (i : Identity) : Address := ⟨i.host, i.port⟩

def url (i : Identity) (scheme : String) : String := scheme ++ "://" ++ i.address.toText

def toText (i : Identity) : String :=
  i.address.toText ++ if i.eligible then "" else " (ineligible)"

inductive Field
  | host
  | port
  | eligible
  deriving DecidableEq, Repr

inductive Rule
  | required
  | hostIsText
  | hostIsUnicode
  | hostNotEmpty
  | portIsInteger
  | portAtLeastOne
  | portAtMostMax
  | eligibleIsBoolean
  deriving DecidableEq, Repr

structure Violation where
  field : Field
  rule : Rule
  given : String
  kind : String
  deriving DecidableEq, Repr

def Field.name : Field → String
  | .host => "host"
  | .port => "port"
  | .eligible => "eligible"

def Rule.code : Rule → String
  | .required => "missing"
  | .hostIsText => "string_type"
  | .hostIsUnicode => "string_unicode"
  | .hostNotEmpty => "string_too_short"
  | .portIsInteger => "int_type"
  | .portAtLeastOne => "greater_than_equal"
  | .portAtMostMax => "less_than_equal"
  | .eligibleIsBoolean => "bool_type"

def Rule.message : Rule → String
  | .required => "Field required"
  | .hostIsText => "Input should be a valid string"
  | .hostIsUnicode =>
    "Input should be a valid string, unable to parse raw data as a unicode string"
  | .hostNotEmpty => "String should have at least 1 character"
  | .portIsInteger => "Input should be a valid integer"
  | .portAtLeastOne => "Input should be greater than or equal to 1"
  | .portAtMostMax => "Input should be less than or equal to 65535"
  | .eligibleIsBoolean => "Input should be a valid boolean"

def rulePages : String := "errors.pydantic.dev/2.14/v/"

def Rule.page (r : Rule) : String := "https://" ++ rulePages ++ r.code

def Violation.lines (v : Violation) : List String :=
  [v.field.name,
    "  " ++ v.rule.message ++ " [type=" ++ v.rule.code ++ ", input_value=" ++ v.given ++
      ", input_type=" ++ v.kind ++ "]",
    "    For further information visit " ++ v.rule.page]

def Violation.report (violations : List Violation) : String :=
  let count := violations.length
  let head := toString count ++ (if count = 1 then " validation error" else " validation errors")
  "\n".intercalate ((head ++ " for Identity") :: violations.flatMap Violation.lines)

structure Draft where
  fields : List (Text × Value)
  deriving Inhabited

namespace Draft

def of (host port eligible : Value) : Draft :=
  ⟨[(Field.host.name, host), (Field.port.name, port), (Field.eligible.name, eligible)]⟩

def field? (d : Draft) (f : Field) : Option Value := d.fields.lookup (f.name : Text)

def given (d : Draft) (f : Field) : Value := (d.field? f).getD (.record d.fields)

end Draft

def checkHost : Option Value → Except Rule { host : String // host ≠ "" }
  | none => .error .required
  | some (.text host) =>
    match host.string? with
    | none => .error .hostIsUnicode
    | some host => if h : host = "" then .error .hostNotEmpty else .ok ⟨host, h⟩
  | some _ => .error .hostIsText

def checkPort : Option Value → Except Rule { port : Nat // 1 ≤ port ∧ port ≤ 65535 }
  | none => .error .required
  | some (.int port) =>
    if hlow : 1 ≤ port then
      if hhigh : port ≤ 65535 then .ok ⟨port.toNat, by omega, by omega⟩
      else .error .portAtMostMax
    else .error .portAtLeastOne
  | some _ => .error .portIsInteger

def checkEligible : Option Value → Except Rule Bool
  | none => .error .required
  | some (.bool eligible) => .ok eligible
  | some _ => .error .eligibleIsBoolean

def complaints {α : Type} (d : Draft) (field : Field) : Except Rule α → List Violation
  | .ok _ => []
  | .error rule => [⟨field, rule, Text.excerpt (d.given field).shown, (d.given field).kindName⟩]

def Draft.check (d : Draft) : Except (List Violation) Identity :=
  match checkHost (d.field? .host), checkPort (d.field? .port), checkEligible (d.field? .eligible) with
  | .ok host, .ok port, .ok eligible =>
    .ok ⟨host.1, port.1, eligible, host.2, port.2.1, port.2.2⟩
  | host, port, eligible =>
    .error (complaints d .host host ++ complaints d .port port ++ complaints d .eligible eligible)

@[simp] theorem host?_of (host port eligible : Value) :
    (Draft.of host port eligible).field? .host = some host := rfl

@[simp] theorem port?_of (host port eligible : Value) :
    (Draft.of host port eligible).field? .port = some port := rfl

@[simp] theorem eligible?_of (host port eligible : Value) :
    (Draft.of host port eligible).field? .eligible = some eligible := rfl

def draft (i : Identity) : Draft := .of (.text i.host) (.int i.port) (.bool i.eligible)

theorem check_draft (i : Identity) : i.draft.check = .ok i := by
  have hlow : (1 : Int) ≤ i.port := by have := i.port_pos; omega
  have hhigh : (i.port : Int) ≤ 65535 := by have := i.port_le; omega
  simp [Draft.check, draft, checkHost, checkPort, checkEligible, i.host_ne, hlow, hhigh]

theorem complaints_eq_nil_iff {α : Type} {d : Draft} {field : Field} {r : Except Rule α} :
    complaints d field r = [] ↔ ∃ a, r = .ok a := by
  cases r <;> simp [complaints]

theorem ne_nil_of_check {d : Draft} {violations : List Violation}
    (h : d.check = .error violations) : violations ≠ [] := by
  unfold Draft.check at h
  split at h
  · cases h
  · rename_i hno
    injection h with h
    subst h
    simp only [ne_eq, List.append_eq_nil_iff, complaints_eq_nil_iff, not_and, not_exists]
    rintro ⟨⟨host, hh⟩, port, hp⟩ eligible he
    exact hno host port eligible hh hp he

end Identity

end PrimaryElection
