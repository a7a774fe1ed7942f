import PrimaryElection.Identity

namespace PrimaryElection

inductive Outcome
  | elected (memberId : MemberId) (identity : Identity)
  | noCandidate
  | duplicateAddress
  deriving DecidableEq, Repr

namespace Outcome

inductive Status
  | ok
  | duplicateAddress
  deriving DecidableEq, Repr

namespace Status

def code : Status → Int
  | ok => 0
  | duplicateAddress => 1

def name : Status → String
  | ok => "OK"
  | duplicateAddress => "DUPLICATE_ADDRESS"

def ofCode? (code : Int) : Option Status :=
  if code = 0 then some ok else if code = 1 then some duplicateAddress else none

theorem ofCode?_eq_some_iff {c : Int} {s : Status} : ofCode? c = some s ↔ c = s.code := by
  unfold ofCode?
  cases s <;> by_cases h0 : c = 0 <;> by_cases h1 : c = 1 <;> simp_all [code]

def ofValue? (v : Value) : Option Status := [ok, duplicateAddress].find? fun s => v.same (.int s.code)

def unknownMessage (v : Value) : String := v.shown ++ " is not a valid OutcomeStatus"

end Status

def status : Outcome → Status
  | elected _ _ => .ok
  | noCandidate => .ok
  | duplicateAddress => .duplicateAddress

def primary? : Outcome → Option (MemberId × Identity)
  | elected memberId identity => some (memberId, identity)
  | noCandidate => none
  | duplicateAddress => none

def primaryId? (o : Outcome) : Option MemberId := o.primary?.map Prod.fst

def primaryIdentity? (o : Outcome) : Option Identity := o.primary?.map Prod.snd

def hasPrimary (o : Outcome) : Bool := o.primaryId?.isSome

def failed (o : Outcome) : Bool := o.status ≠ .ok

def isPrimary (o : Outcome) (memberId : Option MemberId) : Bool :=
  memberId.isSome && o.primaryId? == memberId

inductive PartsError
  | halfPrimary
  | primaryOfFailure
  deriving DecidableEq, Repr

def PartsError.message : PartsError → String
  | .halfPrimary => "primary_member_id and primary_identity must both be present or both be absent"
  | .primaryOfFailure => "a DUPLICATE_ADDRESS outcome cannot name a primary"

def ofParts (status : Status) (memberId : Option MemberId) (identity : Option Identity) :
    Except PartsError Outcome :=
  match memberId, identity with
  | some _, none => .error .halfPrimary
  | none, some _ => .error .halfPrimary
  | none, none => .ok (if status = .ok then noCandidate else duplicateAddress)
  | some memberId, some identity =>
    if status = .ok then .ok (elected memberId identity) else .error .primaryOfFailure

theorem ofParts_parts (o : Outcome) : ofParts o.status o.primaryId? o.primaryIdentity? = .ok o := by
  cases o <;> rfl

theorem ofParts_eq_ok_iff {s : Status} {m : Option MemberId} {i : Option Identity} {o : Outcome} :
    ofParts s m i = .ok o ↔ s = o.status ∧ m = o.primaryId? ∧ i = o.primaryIdentity? := by
  constructor
  · intro h
    cases m <;> cases i <;> cases s <;> simp [ofParts] at h <;> subst h <;>
      simp [status, primaryId?, primaryIdentity?, primary?]
  · rintro ⟨rfl, rfl, rfl⟩
    exact ofParts_parts o

inductive Draft
  | elected (memberId : MemberId) (identity : Identity.Draft)
  | noCandidate
  | duplicateAddress
  deriving Inhabited

def Draft.check : Draft → Except (List Identity.Violation) Outcome
  | .elected memberId identity => identity.check.map (Outcome.elected memberId)
  | .noCandidate => .ok .noCandidate
  | .duplicateAddress => .ok .duplicateAddress

end Outcome

end PrimaryElection
