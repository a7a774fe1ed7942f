import Mathlib.Algebra.GroupWithZero.Nat
import PrimaryElection.Proofs.Gauges

namespace PrimaryElection

theorem Value.outline_eq_text_iff {v : Value} {s : Text} :
    v.outline = (Value.text s).outline ↔ v = .text s := by
  cases v with
  | text t => simp [outline, key?, kindName]
  | null => simp [outline, key?, kindName]
  | bool b => simp [outline, key?, kindName, number?, integer?]
  | int i => simp [outline, key?, kindName, number?, integer?]
  | real x => simp [outline, key?, kindName, number?]
  | list items => simp [outline, key?, kindName]
  | record fields => simp [outline, key?, kindName]

theorem Value.same_text_iff {v : Value} {s : Text} : v.same (.text s) = true ↔ v = .text s := by
  cases v with
  | text t => simp [same, key?]
  | null => simp [same, key?]
  | bool b => simp [same, key?, number?, integer?]
  | int i => simp [same, key?, number?, integer?]
  | real x => simp [same, key?, number?]
  | list items => simp [same, key?, number?, integer?]
  | record fields => simp [same, key?, number?, integer?]

def Value.isCount (v : Value) : Bool := v.integer?.any (fun i => 0 ≤ i) && !v.overflows

theorem Value.isCount_iff {v : Value} :
    v.isCount = true ↔ ∃ n : Nat, v.integer? = some (n : Int) ∧ v.overflows = false := by
  rw [isCount, Bool.and_eq_true, Bool.not_eq_true']
  constructor
  · rintro ⟨hint, hsmall⟩
    obtain ⟨i, hi, hpos⟩ := Option.any_eq_true _ _ |>.mp hint
    obtain ⟨n, rfl⟩ := Int.eq_ofNat_of_zero_le (of_decide_eq_true hpos)
    exact ⟨n, hi, hsmall⟩
  · rintro ⟨n, hn, hsmall⟩
    exact ⟨by simp [hn], hsmall⟩

theorem Binary.signed_ofInt (i : Int) : (ofInt i).signed = i := by
  simp only [ofInt, signed, decide_eq_true_eq]
  split <;> omega

theorem Binary.le_ofInt (i j : Int) : (ofInt i).le (ofInt j) = decide (i ≤ j) := by
  have hunit : Int.pow 2 ((0 : Int) - min 0 0).toNat = 1 := rfl
  have hexponent : ∀ k : Int, (ofInt k).exponent = 0 := fun _ => rfl
  simp only [le, signed_ofInt, hexponent, hunit, Int.mul_one]

theorem Value.number?_of_integer? {v : Value} {i : Int} (h : v.integer? = some i) :
    v.number? = some (Binary.ofInt i) := by
  cases v with
  | real x => cases h
  | _ => simp [number?, h]

theorem Value.less_zero {v : Value} {i : Int} (h : v.integer? = some i) :
    v.less (.int 0) = decide (i < 0) := by
  have hzero : (Value.int 0).number? = some (Binary.ofInt 0) := rfl
  simp only [less, number?_of_integer? h, hzero, Binary.le_ofInt, ← decide_not, Int.not_le]

namespace Metrics

namespace Labels

def isFor (group : Value) (l : Labels) : Bool := (l.lookup "group").map Value.outline = some group.outline

def hasFailed (l : Labels) : Bool := (l.lookup "status").any fun status => !status.same okStatus

theorem lookup_identity (l : Labels) (name : String) :
    l.identity.lookup name = (l.lookup name).map Value.outline := by
  induction l with
  | nil => rfl
  | cons e rest ih =>
    obtain ⟨name', v⟩ := e
    unfold identity at ih ⊢
    rw [List.map_cons, List.lookup_cons, List.lookup_cons]
    cases name == name' with
    | true => rfl
    | false => exact ih

def Judges (p : Labels → Bool) : Prop := ∀ l l' : Labels, l.identity = l'.identity → p l = p l'

theorem judges_isFor (group : Value) : Judges (isFor group) := by
  intro l l' h
  unfold isFor
  rw [← lookup_identity, ← lookup_identity, h]

theorem judges_hasFailed : Judges hasFailed := by
  have hoption : ∀ o o' : Option Value, o.map Value.outline = o'.map Value.outline →
      o.any (fun status => !status.same okStatus) = o'.any fun status => !status.same okStatus := by
    intro o o' h
    cases o with
    | none => rw [Option.map_eq_none_iff.mp h.symm]
    | some v =>
      obtain ⟨w, rfl, hw⟩ := Option.map_eq_some_iff.mp h.symm
      have hsame : v.same okStatus = w.same okStatus := by
        rw [Bool.eq_iff_iff, okStatus, Value.same_text_iff, Value.same_text_iff,
          ← Value.outline_eq_text_iff, ← Value.outline_eq_text_iff, hw]
      simp only [Option.any_some, hsame]
  intro l l' h
  apply hoption
  rw [← lookup_identity, ← lookup_identity, h]

theorem Judges.and {p q : Labels → Bool} (hp : Judges p) (hq : Judges q) :
    Judges fun l => p l && q l := by
  intro l l' h
  simp only [hp l l' h, hq l l' h]

end Labels

namespace Measurement

def instrument : Measurement → Instrument
  | .computed _ _ => .roundsComputed
  | .completed _ _ _ => .roundsCompleted
  | .decodeFailure _ => .decodeFailures
  | .revoked => .revocations

def labels (group : Value) : Measurement → Labels
  | .completed status _ _ => [("group", group), ("status", status)]
  | .decodeFailure payload => [("group", group), ("payload", payload)]
  | .computed _ _ | .revoked => [("group", group)]

theorem labels_isFor (x : Measurement) (group other : Value) :
    (x.labels group).isFor other = decide (group.outline = other.outline) := by
  cases x <;> simp [labels, Labels.isFor]

end Measurement

def Tally.total (p : Labels → Bool) (t : Tally) : Nat := ((t.filter fun e => p e.1).map Prod.snd).sum

theorem Tally.total_cons (p : Labels → Bool) (e : Labels × Nat) (t : Tally) :
    Tally.total p (e :: t) = (if p e.1 then e.2 else 0) + t.total p := by
  unfold total
  by_cases h : p e.1 <;> simp [h]

theorem Tally.total_count {p : Labels → Bool} (hp : Labels.Judges p) (labels : Labels) (t : Tally) :
    (count labels t).total p = t.total p + if p labels then 1 else 0 := by
  induction t with
  | nil => rw [count, total_cons, Nat.add_comm]
  | cons e rest ih =>
    rw [count]
    split
    · rename_i hsame
      rw [total_cons, total_cons, hp e.1 labels hsame]
      split <;> omega
    · rw [total_cons, total_cons, ih, Nat.add_assoc]

namespace Meter

def tally (m : Meter) : Instrument → Tally
  | .roundsComputed => m.computed
  | .roundsCompleted => m.completed
  | .decodeFailures => m.decodeFailures
  | .revocations => m.revocations
  | .roundMembers | .epoch | .isPrimary => []

theorem tally_record (m : Meter) (group : Value) (x : Measurement) (i : Instrument) :
    (m.record group x).tally i =
      if x.instrument = i then Tally.count (x.labels group) (m.tally i) else m.tally i := by
  cases x <;> cases i <;> rfl

theorem tally_settle (m : Meter) (i : Instrument) : m.settle.tally i = m.tally i := by
  cases i <;> rfl

theorem total_record {p : Labels → Bool} (hp : Labels.Judges p) (m : Meter) (group : Value)
    (x : Measurement) (i : Instrument) : ((m.record group x).tally i).total p =
      (m.tally i).total p + if x.instrument = i ∧ p (x.labels group) then 1 else 0 := by
  rw [tally_record]
  by_cases hi : x.instrument = i
  · simp only [hi, if_true, Tally.total_count hp, true_and]
  · simp only [hi, if_false, false_and, Nat.add_zero]

end Meter

namespace Reading

def count : Reading → Nat
  | .value v => (v.integer?.getD 0).toNat
  | .spread s => s.count

def sum : Reading → Value
  | .value v => v
  | .spread s => s.sum

end Reading

namespace Export

def total (e : Export) (i : Instrument) (p : Labels → Bool) : Nat :=
  (((e.points i).filter fun q => p q.labels).map fun q => q.reading.count).sum

def spreads (e : Export) (i : Instrument) (group : Value) : List (Nat × Value) :=
  ((e.points i).filter fun q => q.labels.isFor group).map fun q => (q.reading.count, q.reading.sum)

end Export

theorem Tally.total_points (p : Labels → Bool) (t : Tally) :
    (((t.map fun e => (⟨e.1, .value (.int e.2)⟩ : Point)).filter fun q => p q.labels).map fun q =>
      q.reading.count).sum = t.total p := by
  unfold total
  rw [List.filter_map, List.map_map]
  rfl

theorem Meter.total_exported (m : Meter) (latest : List (Value × Snapshot)) (p : Labels → Bool)
    {i : Instrument}
    (hi : i = .roundsComputed ∨ i = .roundsCompleted ∨ i = .decodeFailures ∨ i = .revocations) :
    (m.exported latest).total i p = (m.tally i).total p := by
  have hpoints : ((m.exported latest).points i).Perm
      ((m.tally i).map fun e => ⟨e.1, .value (.int e.2)⟩) := by
    refine (Export.points_sorted _ _).trans (.of_eq ?_)
    rcases hi with rfl | rfl | rfl | rfl <;> simp [Export.points, tally]
  rw [Export.total, ((hpoints.filter _).map _).sum_nat, Tally.total_points]

theorem plus_count {v w : Value} {i j : Nat} (hv : v = .int i) (hw : w.integer? = some (j : Int)) :
    v.plus w = .int ((i + j : Nat) : Int) := by
  subst hv
  have hi : (Value.int i).integer? = some (i : Int) := rfl
  simp only [Value.plus, hi, hw, Int.natCast_add]

def SumsUp : Option Spread → Nat → Nat → Prop
  | none, n, total => n = 0 ∧ total = 0
  | some s, n, total => s.count = n ∧ s.sum = .int total

namespace Amounts

def Sums (a : Amounts) (n total : Nat) : Prop :=
  ∃ n₁ total₁ n₂ total₂, SumsUp a.settled n₁ total₁ ∧ SumsUp a.recent n₂ total₂ ∧
    n = n₁ + n₂ ∧ total = total₁ + total₂

theorem sums_empty : Sums {} 0 0 := ⟨0, 0, 0, 0, ⟨rfl, rfl⟩, ⟨rfl, rfl⟩, rfl, rfl⟩

theorem Sums.add {a : Amounts} {n total k : Nat} {amount : Value} (h : a.Sums n total)
    (hamount : amount.integer? = some (k : Int)) : (a.add amount).Sums (n + 1) (total + k) := by
  obtain ⟨settled, recent⟩ := a
  obtain ⟨n₁, total₁, n₂, total₂, hsettled, hrecent, rfl, rfl⟩ := h
  cases recent with
  | none =>
    obtain ⟨rfl, rfl⟩ := hrecent
    have hsum : (Value.int 0).plus amount = .int ((0 + k : Nat) : Int) :=
      plus_count (i := 0) rfl hamount
    exact ⟨n₁, total₁, 1, 0 + k, hsettled, ⟨rfl, hsum⟩, by omega, by omega⟩
  | some s =>
    obtain ⟨rfl, hsum⟩ := hrecent
    exact ⟨n₁, total₁, s.count + 1, total₂ + k, hsettled, ⟨rfl, plus_count hsum hamount⟩,
      by omega, by omega⟩

theorem Sums.total {a : Amounts} {n total : Nat} (h : a.Sums n total) : SumsUp a.total? n total := by
  obtain ⟨settled, recent⟩ := a
  obtain ⟨n₁, total₁, n₂, total₂, hsettled, hrecent, rfl, rfl⟩ := h
  cases recent with
  | none =>
    obtain ⟨rfl, rfl⟩ := hrecent
    rw [Nat.add_zero, Nat.add_zero]
    cases settled with
    | none => exact hsettled
    | some s => exact hsettled
  | some later =>
    cases settled with
    | none =>
      obtain ⟨rfl, rfl⟩ := hsettled
      rw [Nat.zero_add, Nat.zero_add]
      exact hrecent
    | some earlier =>
      obtain ⟨rfl, hearlier⟩ := hsettled
      obtain ⟨rfl, hlater⟩ := hrecent
      refine ⟨rfl, ?_⟩
      rw [Nat.add_comm]
      exact plus_count hlater (by rw [hearlier]; rfl)

theorem Sums.settle {a : Amounts} {n total : Nat} (h : a.Sums n total) : a.settle.Sums n total :=
  ⟨n, total, 0, 0, h.total, ⟨rfl, rfl⟩, rfl, rfl⟩

end Amounts

namespace Spreads

def Grouped (s : Spreads) : Prop := ∀ e ∈ s, ∃ group, e.1 = [("group", group)]

def of (group : Value) (s : Spreads) : List Amounts := (s.filter fun e => e.1.isFor group).map Prod.snd

/-- The amounts of a group are kept together: in one place if there were any. -/
def Sums (s : Spreads) (group : Value) (n total : Nat) : Prop :=
  (n = 0 ∧ total = 0 ∧ s.of group = []) ∨ (n ≠ 0 ∧ ∃ a, s.of group = [a] ∧ a.Sums n total)

theorem isFor_single (group other : Value) :
    Labels.isFor group [("group", other)] = decide (other.outline = group.outline) := by
  simp [Labels.isFor]

theorem identity_single (group other : Value) :
    Labels.identity [("group", other)] = Labels.identity [("group", group)] ↔
      other.outline = group.outline := by
  simp [Labels.identity]

theorem of_cons (group : Value) (e : Labels × Amounts) (s : Spreads) :
    of group (e :: s) = (if e.1.isFor group then [e.2] else []) ++ s.of group := by
  unfold of
  by_cases h : e.1.isFor group <;> simp [h]

theorem Grouped.add {s : Spreads} (h : s.Grouped) (group amount : Value) :
    Grouped (Spreads.add [("group", group)] amount s) := by
  induction s with
  | nil =>
    intro e he
    exact ⟨group, by rw [List.mem_singleton.mp he]⟩
  | cons e rest ih =>
    obtain ⟨he, hrest⟩ := List.forall_mem_cons.mp h
    rw [Spreads.add]
    split
    · exact List.forall_mem_cons.mpr ⟨he, hrest⟩
    · exact List.forall_mem_cons.mpr ⟨he, ih hrest⟩

theorem of_add {s : Spreads} (h : s.Grouped) (group other amount : Value) :
    (Spreads.add [("group", other)] amount s).of group =
      if other.outline = group.outline then
        match s.of group with
        | [] => [Amounts.add {} amount]
        | a :: rest => a.add amount :: rest
      else s.of group := by
  induction s with
  | nil =>
    rw [Spreads.add, of_cons, isFor_single]
    by_cases hsame : other.outline = group.outline <;> simp [hsame, of]
  | cons e rest ih =>
    obtain ⟨⟨owner, he⟩, hrest⟩ := List.forall_mem_cons.mp h
    obtain ⟨_, a⟩ := e
    subst he
    rw [Spreads.add]
    by_cases howner : owner.outline = other.outline
    · rw [if_pos ((identity_single other owner).mpr howner), of_cons, of_cons, isFor_single, howner]
      by_cases hsame : other.outline = group.outline <;> simp [hsame]
    · rw [if_neg fun e => howner ((identity_single other owner).mp e), of_cons, of_cons, ih hrest,
        isFor_single]
      by_cases hsame : other.outline = group.outline
      · rw [hsame] at howner
        simp [howner, hsame]
      · simp [hsame]

theorem Sums.add {s : Spreads} (hs : s.Grouped) {group amount : Value} {n total k : Nat}
    (h : s.Sums group n total) (hamount : amount.integer? = some (k : Int)) (other : Value) :
    if other.outline = group.outline then
      (Spreads.add [("group", other)] amount s).Sums group (n + 1) (total + k)
    else (Spreads.add [("group", other)] amount s).Sums group n total := by
  unfold Sums
  rw [of_add hs]
  split
  · refine .inr ⟨Nat.succ_ne_zero n, ?_⟩
    rcases h with ⟨rfl, rfl, hnone⟩ | ⟨_, a, ha, hsums⟩
    · exact ⟨_, by rw [hnone], Amounts.sums_empty.add hamount⟩
    · exact ⟨_, by rw [ha], hsums.add hamount⟩
  · exact h

theorem Grouped.settle {s : Spreads} (h : s.Grouped) :
    Grouped (s.map fun e => (e.1, e.2.settle)) := by
  intro e he
  obtain ⟨e', he', rfl⟩ := List.mem_map.mp he
  exact h e' he'

theorem Sums.settle {s : Spreads} {group : Value} {n total : Nat} (h : s.Sums group n total) :
    Sums (s.map fun e => (e.1, e.2.settle)) group n total := by
  have hof : of group (s.map fun e => (e.1, e.2.settle)) = (s.of group).map Amounts.settle := by
    unfold of
    rw [List.filter_map, List.map_map, List.map_map]
    rfl
  unfold Sums
  rw [hof]
  rcases h with ⟨hn, htotal, hnone⟩ | ⟨hn, a, ha, hsums⟩
  · exact .inl ⟨hn, htotal, by rw [hnone]; rfl⟩
  · exact .inr ⟨hn, a.settle, by rw [ha]; rfl, hsums.settle⟩

theorem shown (s : Spreads) (group : Value) :
    ((s.filterMap fun e => e.2.total?.map fun spread => (⟨e.1, .spread spread⟩ : Point)).filter fun q =>
      q.labels.isFor group).map (fun q => (q.reading.count, q.reading.sum)) =
      (s.of group).filterMap fun a => a.total?.map fun spread => (spread.count, spread.sum) := by
  induction s with
  | nil => rfl
  | cons e rest ih =>
    rw [of_cons, List.filterMap_append, ← ih]
    cases htotal : e.2.total? with
    | none => by_cases hgroup : e.1.isFor group <;> simp [htotal, hgroup]
    | some spread => by_cases hgroup : e.1.isFor group <;> simp [htotal, hgroup, Reading.count, Reading.sum]

end Spreads

theorem Meter.spreads_exported {m : Meter} {group : Value} {n total : Nat}
    (h : m.members.Sums group n total) (latest : List (Value × Snapshot)) :
    (m.exported latest).spreads .roundMembers group = if n = 0 then [] else [(n, .int total)] := by
  have hpoints : ((m.exported latest).points .roundMembers).Perm
      (m.members.filterMap fun e => e.2.total?.map fun s => ⟨e.1, .spread s⟩) := by
    refine (Export.points_sorted _ _).trans (.of_eq ?_)
    simp [Export.points]
  have hspreads := (hpoints.filter fun q => q.labels.isFor group).map fun q => (q.reading.count, q.reading.sum)
  rw [Spreads.shown] at hspreads
  rcases h with ⟨rfl, _, hnone⟩ | ⟨hn, a, ha, hsums⟩
  · rw [if_pos rfl]
    rw [hnone] at hspreads
    exact hspreads.eq_nil
  · rw [if_neg hn]
    have htotal := hsums.total
    cases hspread : a.total? with
    | none =>
      rw [hspread] at htotal
      exact absurd htotal.1 hn
    | some spread =>
      rw [hspread] at htotal
      obtain ⟨hcount, hsum⟩ := htotal
      have hshown : ((m.members.of group).filterMap fun a => a.total?.map fun s => (s.count, s.sum)) =
          [(n, .int total)] := by
        rw [ha, List.filterMap_cons, hspread, Option.map_some, hcount, hsum]
        rfl
      rw [hshown] at hspreads
      exact List.perm_singleton.mp hspreads

theorem amountError?_of_isCount {v : Value} (h : v.isCount) : amountError? v = none := by
  obtain ⟨n, hn, hsmall⟩ := Value.isCount_iff.mp h
  simp [amountError?, Value.number?_of_integer? hn, hsmall]

namespace Measurement

def whole : Measurement → Bool
  | .computed members _ => members.integer?.isSome
  | .completed _ _ _ | .decodeFailure _ | .revoked => true

def countable : Measurement → Bool
  | .computed members _ => members.isCount
  | .completed _ _ _ | .decodeFailure _ | .revoked => true

def amounts : Measurement → List Nat
  | .computed members _ => if members.isCount then [(members.integer?.getD 0).toNat] else []
  | .completed _ _ _ | .decodeFailure _ | .revoked => []

theorem length_amounts {x : Measurement} (h : x.countable) :
    x.amounts.length = if x.instrument = .roundsComputed then 1 else 0 := by
  cases x with
  | computed members excluded =>
    have hcount : members.isCount := h
    rw [amounts, if_pos hcount]
    rfl
  | _ => rfl

end Measurement

theorem Meter.eq_computed_of_refuses {m : Meter} {x : Measurement} {e : Error} (h : m.refuses x = some e) :
    ∃ members excluded, x = .computed members excluded := by
  cases x with
  | computed members excluded => exact ⟨members, excluded, rfl⟩
  | _ => cases h

theorem Meter.members_record_of_refuses {m : Meter} {x : Measurement} {e : Error}
    (h : m.refuses x = some e) (group : Value) : (m.record group x).members = m.members := by
  obtain ⟨members, excluded, rfl⟩ := eq_computed_of_refuses h
  have herror : amountError? members = some e := by
    rw [refuses] at h
    split at h
    · exact h
    · cases h
  simp [record, addMembers, herror]

theorem Meter.addMembers_of_integer? {members : Value} {i : Int} (h : members.integer? = some i)
    (labels : Labels) (s : Spreads) :
    addMembers labels members s = if members.isCount then s.add labels members else s := by
  by_cases hcount : members.isCount
  · obtain ⟨n, hn, _⟩ := Value.isCount_iff.mp hcount
    have hsign : members.less (.int 0) = false := by
      rw [Value.less_zero hn, decide_eq_false_iff_not]
      omega
    simp [addMembers, hcount, hsign, amountError?_of_isCount hcount]
  · rw [if_neg hcount, addMembers, if_pos]
    simp only [Value.isCount, h, Option.any_some, Bool.and_eq_true, decide_eq_true_eq,
      Bool.not_eq_true'] at hcount
    rw [Value.less_zero h, Bool.or_eq_true, decide_eq_true_eq]
    by_cases hsign : i < 0
    · exact .inl hsign
    · have hoverflows : members.overflows = true := by
        rw [← Bool.not_eq_false]
        exact fun hsmall => hcount ⟨Int.not_lt.mp hsign, hsmall⟩
      simp [amountError?, Value.number?_of_integer? h, hoverflows]

theorem Spreads.of_addMembers_of_ne {s : Spreads} (hs : s.Grouped) {group other : Value}
    (h : other.outline ≠ group.outline) (members : Value) :
    of group (Meter.addMembers [("group", other)] members s) = s.of group := by
  unfold Meter.addMembers
  split
  · rfl
  · rw [of_add hs, if_neg h]

theorem Meter.grouped_record {m : Meter} (hm : m.members.Grouped) (group : Value) (x : Measurement) :
    (m.record group x).members.Grouped := by
  cases x with
  | computed members excluded =>
    simp only [record, addMembers]
    split
    · exact hm
    · exact hm.add group members
  | _ => exact hm

theorem Meter.sums_record_of_ne {m : Meter} (hm : m.members.Grouped) {group : Value} {n total : Nat}
    (h : m.members.Sums group n total) {other : Value} (hne : other.outline ≠ group.outline)
    (x : Measurement) : (m.record other x).members.Sums group n total := by
  cases x with
  | computed members excluded =>
    unfold Spreads.Sums at h ⊢
    rwa [record, Spreads.of_addMembers_of_ne hm hne]
  | _ => exact h

theorem Meter.sums_record {m : Meter} (hm : m.members.Grouped) {group : Value} {n total : Nat}
    (h : m.members.Sums group n total) {x : Measurement} (hx : x.whole) {other : Value}
    (hsame : other.outline = group.outline) :
    (m.record other x).members.Sums group (n + x.amounts.length) (total + x.amounts.sum) := by
  cases x with
  | computed members excluded =>
    obtain ⟨i, hi⟩ := Option.isSome_iff_exists.mp hx
    simp only [record, addMembers_of_integer? hi, Measurement.amounts]
    by_cases hcount : members.isCount
    · obtain ⟨k, hk, _⟩ := Value.isCount_iff.mp hcount
      have hsums := h.add hm hk other
      rw [if_pos hsame] at hsums
      simpa [hcount, hk] using hsums
    · simpa [hcount] using h
  | completed status epoch isPrimary => exact h
  | decodeFailure payload => exact h
  | revoked => exact h

end Metrics

end PrimaryElection
