import PrimaryElection.Node.Perform

namespace PrimaryElection

def Failure.isTransition : Failure → Bool
  | .transition _ _ => true
  | _ => false

inductive Deed
  | computed (members : Roster Payload) (failure : Option Failure)
  | completed (data : Payload) (failure : Option Failure)

namespace Deed

def failure : Deed → Option Failure
  | computed _ failure => failure
  | completed _ failure => failure

def refused (d : Deed) : Bool := d.failure.any Failure.isTransition

def round? (d : Deed) : Option (Roster Payload) :=
  match d with
  | computed members _ => if d.refused then none else some members
  | completed _ _ => none

def discards (d : Deed) : Bool :=
  match d with
  | computed _ _ => false
  | completed data _ => !d.refused && (Outcome.decode data).toOption.isNone

end Deed

def failure? {α : Type} : Except Failure α → Option Failure
  | .ok _ => none
  | .error e => some e

theorem eq_ok_of_failure? {result : Except Failure Unit} (h : failure? result = none) :
    result = .ok () := by
  cases result with
  | ok _ => rfl
  | error e => cases h

theorem failure?_eq_some {α : Type} {result : Except Failure α} {e : Failure} :
    failure? result = some e ↔ result = .error e := by
  cases result <;> simp [failure?]

theorem failure?_map {α β : Type} (f : α → β) (result : Except Failure α) :
    failure? (result.map f) = failure? result := by
  cases result <;> rfl

def Lawful {α : Type} (result : Except Failure α) : Prop :=
  ∀ source target, result ≠ .error (.transition source target)

theorem lawful_mapError {ε α : Type} {f : ε → Failure} (hf : ∀ e, (f e).isTransition = false)
    (x : Except ε α) : Lawful (x.mapError f) := by
  intro source target h
  cases x with
  | ok a => cases h
  | error e =>
    have he : f e = .transition source target := Except.error.inj h
    have hfalse := hf e
    rw [he] at hfalse
    cases hfalse

def Call.deed? (broadcast : Roster Bytes) (c : Call) (result : Except Failure Reply) : Option Deed :=
  match c with
  | .compute _ _ members => (Source.resolveAll broadcast members).toOption.map fun pairs =>
      .computed (.ofList pairs) (failure? result)
  | .complete _ _ data => (data.resolve broadcast).toOption.map fun p => .completed p (failure? result)
  | _ => none

def Answer.Vain (broadcast : Roster Bytes) (a : Answer) : Prop :=
  ∀ d, a.call.deed? broadcast a.result = some d → d.refused = true

end PrimaryElection
