import Mathlib.Algebra.BigOperators.Group.List.Basic
import PrimaryElection.Proofs.Tallies

/-!
Totals. Every container has an account of the measurements that were made to it, and the account stays when
the container is discarded. A ledger of the accounts goes along with the registry; what a meter shows of a
group are the sums over the accounts of the group on that meter.
-/

namespace PrimaryElection.Metrics

/--
The measurements made to a container, and where it writes them to; a disabled one writes nowhere. Those that
its meter has refused are only numbered.
-/
structure Account where
  group : Value
  meter : Option Nat
  made : List Measurement := []
  refused : Nat := 0

def Snapshot.counter (s : Snapshot) : Instrument → Nat
  | .roundsComputed => s.roundsComputed
  | .roundsCompleted => s.roundsCompleted
  | .decodeFailures => s.decodeFailures
  | .revocations => s.revocations
  | .roundMembers | .epoch | .isPrimary => 0

namespace Account

def snapshot (a : Account) : Snapshot := a.made.foldl Snapshot.record {}

def container (a : Account) : Container := ⟨a.group, a.meter.isSome, a.meter, a.snapshot⟩

def enter (x : Measurement) (a : Account) : Account := { a with made := a.made ++ [x] }

def refuse (a : Account) : Account := { a with refused := a.refused + 1 }

def isOn (i : Nat) (group : Value) (a : Account) : Bool :=
  a.meter = some i && a.group.outline = group.outline

def amounts (a : Account) : List Nat := a.made.flatMap Measurement.amounts

def counted (i : Nat) (j : Instrument) (p : Labels → Bool) (a : Account) : Nat :=
  if a.meter = some i then
    (a.made.countP fun x => x.instrument = j && p (x.labels a.group)) +
      if .roundsComputed = j ∧ p [("group", a.group)] then a.refused else 0
  else 0

def added (i : Nat) (group : Value) (a : Account) : Nat := if a.isOn i group then a.amounts.length else 0

def summed (i : Nat) (group : Value) (a : Account) : Nat := if a.isOn i group then a.amounts.sum else 0

variable {a : Account} {x : Measurement} {i : Nat} {j : Instrument} {p : Labels → Bool} {group : Value}

theorem container_enter : (a.enter x).container = { a.container with snapshot := a.snapshot.record x } := by
  simp only [container, enter, snapshot, List.foldl_append, List.foldl_cons, List.foldl_nil]

theorem amounts_enter : (a.enter x).amounts = a.amounts ++ x.amounts := by
  simp only [amounts, enter, List.flatMap_append, List.flatMap_singleton]

theorem counted_enter (h : a.meter = some i) : (a.enter x).counted i j p =
    a.counted i j p + if x.instrument = j ∧ p (x.labels a.group) then 1 else 0 := by
  simp only [counted, enter, h, if_true, List.countP_append, List.countP_singleton, Bool.and_eq_true,
    decide_eq_true_eq]
  omega

theorem counted_refuse (h : a.meter = some i) : a.refuse.counted i j p =
    a.counted i j p + if .roundsComputed = j ∧ p [("group", a.group)] then 1 else 0 := by
  simp only [counted, refuse, h, if_true]
  split <;> omega

theorem counted_of_ne (h : a.meter ≠ some i) : a.counted i j p = 0 := if_neg h

theorem counted_new {meter : Option Nat} : (⟨group, meter, [], 0⟩ : Account).counted i j p = 0 := by
  simp [counted]

theorem added_of_ne (h : a.meter ≠ some i) : a.added i group = 0 := by
  simp [added, isOn, h]

theorem summed_of_ne (h : a.meter ≠ some i) : a.summed i group = 0 := by
  simp [summed, isOn, h]

theorem counter_foldl {f : Snapshot → Nat} {q : Measurement → Bool}
    (h : ∀ s x, f (s.record x) = f s + if q x then 1 else 0) (made : List Measurement) (s : Snapshot) :
    f (made.foldl Snapshot.record s) = f s + made.countP q := by
  induction made generalizing s with
  | nil => rfl
  | cons x rest ih =>
    rw [List.foldl_cons, ih, h, List.countP_cons]
    omega

theorem counter_snapshot (a : Account) (j : Instrument) :
    a.snapshot.counter j = a.made.countP fun x => x.instrument = j := by
  have h := counter_foldl (f := fun s => s.counter j) (q := fun x => x.instrument = j)
    (fun s x => by cases x <;> cases j <;> rfl) a.made {}
  rw [snapshot, h]
  cases j <;> exact Nat.zero_add _

theorem roundsFailed_snapshot (a : Account) (group : Value) : a.snapshot.roundsFailed =
    a.made.countP fun x => x.instrument = .roundsCompleted && (x.labels group).hasFailed := by
  have hstep : ∀ (s : Snapshot) (x : Measurement), (s.record x).roundsFailed = s.roundsFailed +
      if x.instrument = .roundsCompleted && (x.labels group).hasFailed then 1 else 0 := by
    intro s x
    cases x with
    | completed status epoch isPrimary =>
      have hfailed : ((Measurement.completed status epoch isPrimary).labels group).hasFailed =
          !status.same okStatus := by
        simp [Measurement.labels, Labels.hasFailed, List.lookup_cons]
      cases hstatus : status.same okStatus <;>
        simp [Snapshot.record, Measurement.instrument, hfailed, hstatus]
    | _ => simp [Snapshot.record, Measurement.instrument]
  rw [snapshot, counter_foldl hstep]
  exact Nat.zero_add _

theorem counted_isFor (h : a.isOn i group) : a.counted i j (Labels.isFor group) =
    a.snapshot.counter j + if .roundsComputed = j then a.refused else 0 := by
  simp only [isOn, Bool.and_eq_true, decide_eq_true_eq] at h
  rw [counted, if_pos h.1, counter_snapshot]
  simp only [Measurement.labels_isFor, Spreads.isFor_single, h.2, decide_true, Bool.and_true, and_true]

theorem counted_failed (h : a.isOn i group) :
    a.counted i .roundsCompleted (fun l => l.isFor group && l.hasFailed) = a.snapshot.roundsFailed := by
  simp only [isOn, Bool.and_eq_true, decide_eq_true_eq] at h
  rw [counted, if_pos h.1, roundsFailed_snapshot a a.group]
  simp only [Measurement.labels_isFor, h.2, decide_true, Bool.true_and, reduceCtorEq, false_and, if_false,
    Nat.add_zero]

theorem counted_of_not_isOn (h : ¬ a.isOn i group) (hp : ∀ l, p l = true → l.isFor group) :
    a.counted i j p = 0 := by
  simp only [isOn, Bool.and_eq_true, decide_eq_true_eq, not_and] at h
  by_cases hmeter : a.meter = some i
  · rw [counted, if_pos hmeter, if_neg, Nat.add_zero, List.countP_eq_zero]
    · intro x _ hx
      have hfor := hp _ (Bool.and_eq_true_iff.mp hx).2
      rw [Measurement.labels_isFor] at hfor
      exact h hmeter (of_decide_eq_true hfor)
    · rintro ⟨_, hrefused⟩
      have hfor := hp _ hrefused
      rw [Spreads.isFor_single] at hfor
      exact h hmeter (of_decide_eq_true hfor)
  · exact counted_of_ne hmeter

theorem length_amounts (h : ∀ x ∈ a.made, x.countable) : a.amounts.length = a.snapshot.roundsComputed := by
  have hcounter := a.counter_snapshot .roundsComputed
  rw [Snapshot.counter] at hcounter
  rw [hcounter, amounts]
  generalize a.made = made at h
  induction made with
  | nil => rfl
  | cons x rest ih =>
    obtain ⟨hx, hrest⟩ := List.forall_mem_cons.mp h
    rw [List.flatMap_cons, List.length_append, Measurement.length_amounts hx, ih hrest, List.countP_cons,
      Nat.add_comm]
    simp only [decide_eq_true_eq]

end Account

theorem sum_modify {α : Type} (f : α → Nat) (g : α → α) {l : List α} {k d : Nat} {a : α}
    (h : l[k]? = some a) (hg : f (g a) = f a + d) : ((l.modify k g).map f).sum = (l.map f).sum + d := by
  induction l generalizing k with
  | nil => cases h
  | cons b rest ih =>
    cases k with
    | zero =>
      cases h
      simp only [List.modify_zero_cons, List.map_cons, List.sum_cons, hg]
      omega
    | succ k =>
      simp only [List.modify_succ_cons, List.map_cons, List.sum_cons, ih h]
      omega

theorem sum_map_eq_zero {α : Type} {f : α → Nat} {l : List α} (h : ∀ a ∈ l, f a = 0) : (l.map f).sum = 0 :=
  List.sum_eq_zero (List.forall_mem_map.mpr h)

theorem sum_filter {α : Type} {f g : α → Nat} {p : α → Bool} (hp : ∀ a, p a → f a = g a)
    (hnot : ∀ a, ¬ p a → f a = 0) (l : List α) : (l.map f).sum = ((l.filter p).map g).sum := by
  induction l with
  | nil => rfl
  | cons a rest ih =>
    by_cases ha : p a
    · rw [List.filter_cons_of_pos ha, List.map_cons, List.map_cons, List.sum_cons, List.sum_cons, hp a ha, ih]
    · rw [List.filter_cons_of_neg ha, List.map_cons, List.sum_cons, hnot a ha, ih, Nat.zero_add]

def Whole (i : Nat) (group : Value) (accounts : List Account) : Prop :=
  ∀ a ∈ accounts, a.isOn i group → ∀ x ∈ a.made, x.whole

section modified

variable {accounts : List Account} {i k : Nat} {group : Value} {f : Account → Account} {a : Account}

theorem mem_modify (h : accounts[k]? = some a) : f a ∈ accounts.modify k f := by
  apply List.mem_of_getElem? (i := k)
  simp [h]

theorem whole_of_modify (hk : accounts[k]? = some a)
    (hf : a.isOn i group → (f a).isOn i group ∧ a.made ⊆ (f a).made)
    (h : Whole i group (accounts.modify k f)) : Whole i group accounts := by
  intro b hb hon x hx
  obtain ⟨n, hn⟩ := List.mem_iff_getElem?.mp hb
  by_cases hnk : k = n
  · subst hnk
    obtain rfl := Option.some.inj (hk.symm.trans hn)
    obtain ⟨hon', hmade⟩ := hf hon
    exact h _ (mem_modify hk) hon' x (hmade hx)
  · refine h b (List.mem_of_getElem? (i := n) ?_) hon x hx
    simp [hnk, hn]

end modified

/-- The totals of a meter are those of the accounts that write to it. -/
structure Meter.Booked (m : Meter) (i : Nat) (accounts : List Account) : Prop where
  counted : ∀ j p, Labels.Judges p → (m.tally j).total p = (accounts.map (Account.counted i j p)).sum
  grouped : m.members.Grouped
  summed : ∀ group, Whole i group accounts → m.members.Sums group
    (accounts.map (Account.added i group)).sum (accounts.map (Account.summed i group)).sum

namespace Meter.Booked

variable {m : Meter} {i k : Nat} {accounts : List Account} {a : Account} {x : Measurement}

theorem fresh (installed : Bool) (h : ∀ a ∈ accounts, a.meter ≠ some i) :
    Booked { installed } i accounts where
  counted := by
    intro j p _
    rw [sum_map_eq_zero fun a ha => Account.counted_of_ne (h a ha)]
    cases j <;> rfl
  grouped := fun _ he => nomatch he
  summed := by
    intro group _
    rw [sum_map_eq_zero fun a ha => Account.added_of_ne (h a ha),
      sum_map_eq_zero fun a ha => Account.summed_of_ne (h a ha)]
    exact .inl ⟨rfl, rfl, rfl⟩

theorem register (h : m.Booked i accounts) : Booked { m with gauges := m.gauges + 1 } i accounts where
  counted := by
    intro j p hp
    rw [← h.counted j p hp]
    cases j <;> rfl
  grouped := h.grouped
  summed := h.summed

theorem settle (h : m.Booked i accounts) : m.settle.Booked i accounts where
  counted := by
    intro j p hp
    rw [tally_settle, h.counted j p hp]
  grouped := h.grouped.settle
  summed := fun group hwhole => (h.summed group hwhole).settle

theorem opened (h : m.Booked i accounts) (group : Value) (meter : Option Nat) :
    m.Booked i (accounts ++ [⟨group, meter, [], 0⟩]) where
  counted := by
    intro j p hp
    rw [h.counted j p hp, List.map_append, List.sum_append_nat]
    simp [Account.counted_new]
  grouped := h.grouped
  summed := by
    intro other hwhole
    rw [List.map_append, List.map_append, List.sum_append_nat, List.sum_append_nat]
    simpa [Account.added, Account.summed, Account.amounts] using
      h.summed other fun a ha => hwhole a (List.mem_append_left _ ha)

theorem elsewhere (h : m.Booked i accounts) {f : Account → Account} (hk : accounts[k]? = some a)
    (hf : (f a).meter = a.meter) (ha : a.meter ≠ some i) : m.Booked i (accounts.modify k f) where
  counted := by
    intro j p hp
    rw [h.counted j p hp, sum_modify (d := 0) _ _ hk, Nat.add_zero]
    rw [Account.counted_of_ne ha, Account.counted_of_ne (hf ▸ ha)]
  grouped := h.grouped
  summed := by
    intro group hwhole
    have hold := whole_of_modify hk (fun hon => absurd hon (by simp [Account.isOn, ha])) hwhole
    rw [sum_modify (d := 0) _ _ hk, sum_modify (d := 0) _ _ hk]
    · exact h.summed group hold
    · rw [Account.summed_of_ne ha, Account.summed_of_ne (hf ▸ ha)]
    · rw [Account.added_of_ne ha, Account.added_of_ne (hf ▸ ha)]

theorem record (h : m.Booked i accounts) (hk : accounts[k]? = some a) (ha : a.meter = some i) :
    (m.record a.group x).Booked i (accounts.modify k (Account.enter x)) where
  counted := by
    intro j p hp
    rw [total_record hp, h.counted j p hp, sum_modify _ _ hk (Account.counted_enter ha)]
  grouped := grouped_record h.grouped a.group x
  summed := by
    intro group hwhole
    have hsums := h.summed group
      (whole_of_modify hk (fun hon => ⟨hon, List.subset_append_left _ _⟩) hwhole)
    by_cases hsame : a.group.outline = group.outline
    · have hon : a.isOn i group := by simp [Account.isOn, ha, hsame]
      have hon' : (a.enter x).isOn i group := hon
      have hx := hwhole _ (mem_modify hk) hon' x (List.mem_append_right _ (List.mem_singleton_self x))
      rw [sum_modify _ _ hk (d := x.amounts.length), sum_modify _ _ hk (d := x.amounts.sum)]
      · exact sums_record h.grouped hsums hx hsame
      · simp [Account.summed, hon, hon', Account.amounts_enter]
      · simp [Account.added, hon, hon', Account.amounts_enter]
    · have hoff : a.isOn i group = false := by simp [Account.isOn, hsame]
      have hoff' : (a.enter x).isOn i group = false := hoff
      rw [sum_modify _ _ hk (d := 0), sum_modify _ _ hk (d := 0)]
      · exact sums_record_of_ne h.grouped hsums hsame x
      · simp [Account.summed, hoff, hoff']
      · simp [Account.added, hoff, hoff']

theorem refuse (h : m.Booked i accounts) (hk : accounts[k]? = some a) (ha : a.meter = some i) {e : Error}
    (hx : m.refuses x = some e) : (m.record a.group x).Booked i (accounts.modify k Account.refuse) where
  counted := by
    intro j p hp
    obtain ⟨members, excluded, rfl⟩ := eq_computed_of_refuses hx
    rw [total_record hp, h.counted j p hp, sum_modify _ _ hk (Account.counted_refuse ha)]
    rfl
  grouped := grouped_record h.grouped a.group x
  summed := by
    intro group hwhole
    have hsums := h.summed group (whole_of_modify hk (fun hon => ⟨hon, List.Subset.refl _⟩) hwhole)
    rw [sum_modify _ _ hk (d := 0), sum_modify _ _ hk (d := 0), members_record_of_refuses hx]
    · exact hsums
    · rfl
    · rfl

end Meter.Booked

namespace Registry

def opened (r : Registry) (group : Value) (enable : Bool) (accounts : List Account) : List Account :=
  match r.create group enable with
  | (.ok _, r') => accounts ++ [⟨group, if enable && r.available then r'.current else none, [], 0⟩]
  | (.error _, _) => accounts

def entered (r : Registry) (serial : Nat) (x : Measurement) (accounts : List Account) : List Account :=
  if (r.container? serial).isNone then accounts
  else accounts.modify serial (if (r.record serial x).1.isNone then Account.enter x else Account.refuse)

inductive Ledger : Registry → List Account → Prop
  | begin (available : Bool) : Ledger { available } []
  | reset {r : Registry} {accounts : List Account} : Ledger r accounts → Ledger r.reset accounts
  | install {r : Registry} {accounts : List Account} : Ledger r accounts → Ledger r.install accounts
  | adopt {r : Registry} {accounts : List Account} (installed : Bool) :
    Ledger r accounts → Ledger (r.addMeter { installed }) accounts
  | create {r : Registry} {accounts : List Account} (group : Value) (enable : Bool) :
    Ledger r accounts → Ledger (r.create group enable).2 (r.opened group enable accounts)
  | discard {r : Registry} {accounts : List Account} (serial : Nat) :
    Ledger r accounts → Ledger (r.discard serial) accounts
  | record {r : Registry} {accounts : List Account} (serial : Nat) (x : Measurement) :
    Ledger r accounts → Ledger (r.record serial x).2 (r.entered serial x accounts)
  | read {r : Registry} {accounts : List Account} (i : Nat) :
    Ledger r accounts → Ledger (r.readOn i).2 accounts

structure Kept (r : Registry) (accounts : List Account) : Prop where
  length : accounts.length = r.containers.length
  containers : ∀ k c, r.container? k = some c → ∃ a, accounts[k]? = some a ∧ c = a.container
  current : ∀ i, r.current = some i → i < r.meters.length
  bounded : ∀ a ∈ accounts, ∀ i, a.meter = some i → i < r.meters.length
  meters : ∀ (i : Nat) (m : Meter), r.meters[i]? = some m → m.Booked i accounts
  speakers : ∀ s ∈ r.speakers, ∃ a, accounts[s.container]? = some a ∧ a.meter.isSome

theorem container?_modify (r : Registry) (serial k : Nat) {f : Option Container → Option Container}
    (hf : f none = none) : container? { r with containers := r.containers.modify serial f } k =
      if serial = k then f (r.container? k) else r.container? k := by
  unfold container?
  rw [List.getElem?_modify]
  by_cases hserial : serial = k
  · cases hk : r.containers[k]? <;> simp [hserial, hf]
  · simp [hserial]

theorem latest_congr {r r' : Registry} (hspeakers : r'.speakers = r.speakers)
    (hcontainers : ∀ s ∈ r.speakers, r'.container? s.container = r.container? s.container) :
    r'.latest = r.latest := by
  unfold latest
  rw [hspeakers]
  generalize r.speakers = l at hcontainers ⊢
  induction l with
  | nil => rfl
  | cons s rest ih =>
    obtain ⟨hs, hrest⟩ := List.forall_mem_cons.mp hcontainers
    rw [List.filterMap_cons, List.filterMap_cons, hs, ih hrest]

theorem readOn_congr {r r' : Registry} (hmeters : r'.meters = r.meters) (hlatest : r'.latest = r.latest)
    (i : Nat) : (r'.readOn i).1 = (r.readOn i).1 := by
  cases hm : r.meters[i]? with
  | some m => rw [readOn_export hm, readOn_export (hmeters ▸ hm), hlatest]
  | none =>
    have hm' : r'.meters[i]? = none := hmeters ▸ hm
    simp [readOn, collect, exported, hm, hm']

namespace Kept

variable {r r' : Registry} {accounts : List Account}

theorem reset (h : r.Kept accounts) : r.reset.Kept accounts where
  length := h.length
  containers := h.containers
  current := fun _ hi => nomatch hi
  bounded := h.bounded
  meters := h.meters
  speakers := fun _ hs => nomatch hs

theorem addMeter (installed : Bool) (h : r.Kept accounts) : (r.addMeter { installed }).Kept accounts where
  length := h.length
  containers := h.containers
  current := by
    intro i hi
    cases hi
    simp [Registry.addMeter]
  bounded := by
    intro a ha i hi
    have hlt := h.bounded a ha i hi
    simp only [Registry.addMeter, List.length_append, List.length_singleton]
    omega
  meters := by
    intro i m hm
    rcases Nat.lt_or_ge i r.meters.length with hlt | hge
    · rw [Registry.addMeter, List.getElem?_append_left hlt] at hm
      exact h.meters i m hm
    · rw [Registry.addMeter, List.getElem?_append_right hge] at hm
      obtain rfl := List.mem_singleton.mp (List.mem_of_getElem? hm)
      exact .fresh installed fun a ha hi => Nat.not_lt.mpr hge (h.bounded a ha i hi)
  speakers := h.speakers

theorem modify {i : Nat} {f : Meter → Meter} (hf : ∀ m : Meter, m.Booked i accounts → (f m).Booked i accounts)
    (h : r.Kept accounts) : Kept { r with meters := r.meters.modify i f } accounts where
  length := h.length
  containers := h.containers
  current := by
    intro j hj
    rw [List.length_modify]
    exact h.current j hj
  bounded := by
    intro a ha j hj
    rw [List.length_modify]
    exact h.bounded a ha j hj
  meters := by
    intro j m hm
    rw [List.getElem?_modify] at hm
    obtain ⟨m', hm', rfl⟩ := Option.map_eq_some_iff.mp hm
    split
    · rename_i hij
      subst hij
      exact hf m' (h.meters i m' hm')
    · exact h.meters j m' hm'
  speakers := h.speakers

theorem ensureMeter (h : r.Kept accounts) : r.ensureMeter.Kept accounts := by
  unfold Registry.ensureMeter
  split
  · exact h
  · exact h.addMeter false

theorem ensureGauges (h : r.Kept accounts) : r.ensureGauges.Kept accounts := by
  unfold Registry.ensureGauges
  split
  · exact h
  split
  · exact h
  · rename_i i hi
    have hregistered := h.modify (i := i) fun _ => Meter.Booked.register
    exact ⟨hregistered.length, hregistered.containers, hregistered.current, hregistered.bounded,
      hregistered.meters, hregistered.speakers⟩

theorem prune (h : r.Kept accounts) : r.prune.Kept accounts where
  length := h.length
  containers := h.containers
  current := h.current
  bounded := h.bounded
  meters := h.meters
  speakers := fun s hs => h.speakers s (List.mem_filter.mp hs).1

theorem read (h : r.Kept accounts) (i : Nat) : (r.readOn i).2.Kept accounts := by
  rcases readOn_registry r i with hread | hread
  · rw [hread]
    exact h.modify fun _ => Meter.Booked.settle
  · rw [hread]
    exact h.prune.modify fun _ => Meter.Booked.settle

theorem discard (h : r.Kept accounts) (serial : Nat) : (r.discard serial).Kept accounts where
  length := by
    rw [h.length, Registry.discard, List.length_modify]
  containers := by
    intro k c hc
    rw [Registry.discard, container?_modify r serial k rfl] at hc
    split at hc
    · cases hc
    · exact h.containers k c hc
  current := h.current
  bounded := h.bounded
  meters := h.meters
  speakers := h.speakers

theorem add (h : r.Kept accounts) (group : Value) (meter : Option Nat)
    (hmeter : ∀ i, meter = some i → i < r.meters.length) :
    (r.add ⟨group, meter.isSome, meter, {}⟩).2.Kept (accounts ++ [⟨group, meter, [], 0⟩]) where
  length := by
    simp [Registry.add, h.length]
  containers := by
    intro k c hc
    rcases Nat.lt_or_ge k r.containers.length with hlt | hge
    · rw [container?_add _ hlt] at hc
      rw [List.getElem?_append_left (h.length ▸ hlt)]
      exact h.containers k c hc
    · unfold container? Registry.add at hc
      rw [List.getElem?_append_right hge, Option.join_eq_some_iff] at hc
      have hlast : k - r.containers.length = 0 := Nat.lt_one_iff.mp (List.getElem?_eq_some_iff.mp hc).1
      rw [List.getElem?_append_right (h.length ▸ hge), h.length, hlast]
      refine ⟨_, rfl, ?_⟩
      rw [hlast] at hc
      cases hc
      rfl
  current := h.current
  bounded := by
    intro a ha i hi
    rcases List.mem_append.mp ha with hold | hnew
    · exact h.bounded a hold i hi
    · rw [List.mem_singleton.mp hnew] at hi
      exact hmeter i hi
  meters := fun i m hm => (h.meters i m hm).opened group meter
  speakers := by
    intro s hs
    obtain ⟨a, ha, hmeter⟩ := h.speakers s hs
    refine ⟨a, ?_, hmeter⟩
    rw [List.getElem?_append_left (List.getElem?_eq_some_iff.mp ha).1]
    exact ha

theorem mem_put {group : Value} {serial : Nat} {s : Speaker} {l : List Speaker}
    (h : s ∈ Speaker.put group serial l) : s ∈ l ∨ s.container = serial := by
  induction l with
  | nil =>
    rw [List.mem_singleton.mp h]
    exact .inr rfl
  | cons t rest ih =>
    unfold Speaker.put at h
    split at h
    · rcases List.mem_cons.mp h with rfl | hrest
      · exact .inr rfl
      · exact .inl (List.mem_cons_of_mem t hrest)
    · rcases List.mem_cons.mp h with rfl | hrest
      · exact .inl List.mem_cons_self
      · exact (ih hrest).imp_left (List.mem_cons_of_mem t)

theorem current_ensured (r : Registry) : ∃ i, r.ensureMeter.ensureGauges.current = some i := by
  have hmeter : ∃ i, r.ensureMeter.current = some i := by
    unfold Registry.ensureMeter
    cases hcurrent : r.current with
    | none => exact ⟨_, rfl⟩
    | some i => exact ⟨i, hcurrent⟩
  obtain ⟨i, hi⟩ := hmeter
  refine ⟨i, ?_⟩
  unfold Registry.ensureGauges
  split
  · exact hi
  · rw [hi]

theorem enlist {group : Value} {serial : Nat} {a : Account} (h : r.Kept accounts)
    (ha : accounts[serial]? = some a) (hmeter : a.meter.isSome) :
    Kept { r with speakers := Speaker.put group serial r.speakers } accounts where
  length := h.length
  containers := h.containers
  current := h.current
  bounded := h.bounded
  meters := h.meters
  speakers := by
    intro s hs
    rcases mem_put hs with hold | hnew
    · exact h.speakers s hold
    · exact ⟨a, by rw [hnew, ha], hmeter⟩

theorem create (h : r.Kept accounts) (group : Value) (enable : Bool) :
    (r.create group enable).2.Kept (r.opened group enable accounts) := by
  unfold opened Registry.create
  cases henable : enable && r.available with
  | false => exact h.add group none nofun
  | true =>
    have hready := h.ensureMeter.ensureGauges
    simp only [if_true]
    by_cases hkey : group.key?.isNone
    · rw [if_pos hkey]
      exact hready
    · rw [if_neg hkey]
      obtain ⟨i, hi⟩ := current_ensured r
      have hadded := hready.add group (some i) fun j hj => hready.current j (hi.trans hj)
      have hlast : (accounts ++ [⟨group, some i, [], 0⟩])[r.ensureMeter.ensureGauges.containers.length]? =
          some ⟨group, some i, [], 0⟩ := by
        rw [← hready.length, List.getElem?_concat_length]
      change Kept _ (accounts ++ [⟨group, r.ensureMeter.ensureGauges.current, [], 0⟩])
      rw [hi]
      exact hadded.enlist hlast rfl

theorem revise {serial : Nat} {meters : List Meter} {f : Account → Account} {g : Container → Container}
    (h : r.Kept accounts) (hmeter : ∀ a, (f a).meter = a.meter) (hg : ∀ a, g a.container = (f a).container)
    (hlength : meters.length = r.meters.length)
    (hmeters : ∀ (i : Nat) (m : Meter), meters[i]? = some m → m.Booked i (accounts.modify serial f)) :
    Kept { r with meters, containers := r.containers.modify serial (Option.map g) }
      (accounts.modify serial f) where
  length := by
    rw [List.length_modify, List.length_modify, h.length]
  containers := by
    intro k c hc
    have hmodified := container?_modify r serial k (f := Option.map g) rfl
    rw [List.getElem?_modify]
    split at hmodified
    · rename_i hserial
      obtain ⟨c', hc', rfl⟩ := Option.map_eq_some_iff.mp (hmodified.symm.trans hc)
      obtain ⟨a, ha, rfl⟩ := h.containers k c' hc'
      exact ⟨f a, by simp [ha, hserial], hg a⟩
    · rename_i hserial
      obtain ⟨a, ha, hcontainer⟩ := h.containers k c (hmodified.symm.trans hc)
      exact ⟨a, by simp [ha, hserial], hcontainer⟩
  current := by
    intro i hi
    rw [hlength]
    exact h.current i hi
  bounded := by
    intro b hb i hi
    rw [hlength]
    obtain ⟨k, hk⟩ := List.mem_iff_getElem?.mp hb
    rw [List.getElem?_modify] at hk
    obtain ⟨b', hb', rfl⟩ := Option.map_eq_some_iff.mp hk
    apply h.bounded b' (List.mem_of_getElem? hb') i
    split at hi
    · exact (hmeter b').symm.trans hi
    · exact hi
  meters := hmeters
  speakers := by
    intro s hs
    obtain ⟨b, hb, hspeaks⟩ := h.speakers s hs
    rw [List.getElem?_modify, hb]
    refine ⟨_, rfl, ?_⟩
    split
    · rw [hmeter]
      exact hspeaks
    · exact hspeaks

-- one meter takes a measurement, and the others are as they were
theorem booked_modify (h : r.Kept accounts) {serial i j : Nat} {a : Account} {m m' : Meter}
    {f : Account → Account} {g : Meter → Meter} (ha : accounts[serial]? = some a) (hmeter : a.meter = some i)
    (hf : (f a).meter = a.meter) (hm : r.meters[i]? = some m)
    (hbooked : (g m).Booked i (accounts.modify serial f)) (hm' : (r.meters.modify i g)[j]? = some m') :
    m'.Booked j (accounts.modify serial f) := by
  rw [List.getElem?_modify] at hm'
  obtain ⟨old, hold, rfl⟩ := Option.map_eq_some_iff.mp hm'
  by_cases hij : i = j
  · subst hij
    obtain rfl := Option.some.inj (hm.symm.trans hold)
    simpa using hbooked
  · simpa [hij] using (h.meters j old hold).elsewhere ha hf (by rw [hmeter]; simpa using hij)

theorem record (h : r.Kept accounts) (serial : Nat) (x : Measurement) :
    (r.record serial x).2.Kept (r.entered serial x accounts) := by
  unfold entered Registry.record
  cases hc : r.container? serial with
  | none => exact h
  | some c =>
    obtain ⟨a, ha, rfl⟩ := h.containers serial c hc
    cases hmeter : a.meter with
    | none =>
      have hmeterOf : r.meterOf? a.container = none := by simp [meterOf?, Account.container, hmeter]
      have hnone : a.container.meter = none := hmeter
      simp only [hmeterOf, hnone, Option.bind_none, Option.isNone_some, Option.isNone_none, if_true]
      exact h.revise (fun _ => rfl) (fun _ => Account.container_enter.symm) rfl
        fun i m hm => (h.meters i m hm).elsewhere ha rfl (by rw [hmeter]; nofun)
    | some i =>
      have hsome : a.container.meter = some i := hmeter
      obtain ⟨m, hm⟩ : ∃ m, r.meters[i]? = some m :=
        ⟨_, List.getElem?_eq_getElem (h.bounded a (List.mem_of_getElem? ha) i hmeter)⟩
      have hmeterOf : r.meterOf? a.container = some m := by simp [meterOf?, hsome, hm]
      simp only [hmeterOf, hsome, Option.bind_some, Option.isNone_some]
      cases hrefuses : m.refuses x with
      | none =>
        exact h.revise (fun _ => rfl) (fun _ => Account.container_enter.symm) (List.length_modify ..)
          fun _ _ => h.booked_modify ha hmeter rfl hm ((h.meters i m hm).record ha hmeter)
      | some e =>
        have hrevised := h.revise (f := Account.refuse) (g := id) (fun _ => rfl) (fun _ => rfl)
          (List.length_modify ..)
          fun _ _ => h.booked_modify (g := fun meter => meter.record a.group x) ha hmeter rfl hm
            ((h.meters i m hm).refuse ha hmeter hrefuses)
        rw [Option.map_id, List.modify_id] at hrevised
        exact hrevised

theorem record_disabled (h : r.Kept accounts) {k : Nat} {c : Container} (hc : r.container? k = some c)
    (hdisabled : c.enabled = false) (x : Measurement) :
    (r.record k x).2.container? k = some { c with snapshot := c.snapshot.record x } ∧
      ∀ j, ((r.record k x).2.readOn j).1 = (r.readOn j).1 := by
  obtain ⟨a, ha, rfl⟩ := h.containers k c hc
  have hmeter : a.container.meter = none := by
    cases hmeter : a.meter with
    | none => exact hmeter
    | some i => simp [Account.container, hmeter] at hdisabled
  have hrecord : (r.record k x).2 = { r with
      containers := r.containers.modify k fun o =>
        o.map fun c => { c with snapshot := c.snapshot.record x } } := by
    simp [Registry.record, hc, meterOf?, hmeter]
  have hmodified := fun n => container?_modify r k n
    (f := fun o => o.map fun c => { c with snapshot := c.snapshot.record x }) rfl
  rw [hrecord]
  constructor
  · rw [hmodified k, if_pos rfl, hc]
    rfl
  · intro j
    apply readOn_congr
    · rfl
    apply latest_congr
    · rfl
    intro s hs
    -- a container that speaks for a group is enabled, so it is another one
    obtain ⟨b, hb, hspeaks⟩ := h.speakers s hs
    rw [hmodified s.container, if_neg]
    rintro rfl
    rw [ha] at hb
    cases hb
    rw [show a.meter = none from hmeter] at hspeaks
    cases hspeaks

end Kept

namespace Ledger

variable {r : Registry} {accounts : List Account}

theorem kept (h : Ledger r accounts) : r.Kept accounts := by
  induction h with
  | begin available => exact ⟨rfl, nofun, nofun, nofun, nofun, nofun⟩
  | reset _ ih => exact ih.reset
  | install _ ih =>
    have hinstalled := ih.reset.addMeter true
    exact ⟨hinstalled.length, hinstalled.containers, hinstalled.current, hinstalled.bounded,
      hinstalled.meters, hinstalled.speakers⟩
  | adopt installed _ ih => exact ih.addMeter installed
  | create group enable _ ih => exact ih.create group enable
  | discard serial _ ih => exact ih.discard serial
  | record serial x _ ih => exact ih.record serial x
  | read i _ ih => exact ih.read i

/--
Whatever was created, discarded, measured and read: what a meter shows of a group are the sums of what the
containers of the group that write to it have counted, whether or not they are still there. The rounds that
have failed are those with another status than that of a round that went well; a round whose number of
members was refused is one more that is computed. Where the group has measured its members in whole numbers,
one spread sums up those that are counts, and where all are counts, it has as many amounts as rounds were
computed. A container that is there has counted all that was measured with it, be it enabled or not; what a
disabled one measures is not exported anywhere.
-/
theorem totals_agree (h : Ledger r accounts) {i : Nat} {m : Meter} (hm : r.meters[i]? = some m)
    (group : Value) :
    let shown := (r.readOn i).1
    let owned := accounts.filter (Account.isOn i group)
    let amounts := owned.map Account.amounts
    shown.total .roundsComputed (Labels.isFor group) =
        (owned.map (·.snapshot.roundsComputed)).sum + (owned.map Account.refused).sum ∧
      shown.total .roundsCompleted (Labels.isFor group) = (owned.map (·.snapshot.roundsCompleted)).sum ∧
      shown.total .roundsCompleted (fun l => l.isFor group && l.hasFailed) =
        (owned.map (·.snapshot.roundsFailed)).sum ∧
      shown.total .decodeFailures (Labels.isFor group) = (owned.map (·.snapshot.decodeFailures)).sum ∧
      shown.total .revocations (Labels.isFor group) = (owned.map (·.snapshot.revocations)).sum ∧
      ((∀ a ∈ owned, ∀ x ∈ a.made, x.whole) → shown.spreads .roundMembers group =
        if amounts.flatten = [] then [] else [(amounts.flatten.length, .int amounts.flatten.sum)]) ∧
      ((∀ a ∈ owned, ∀ x ∈ a.made, x.countable) →
        amounts.flatten.length = (owned.map (·.snapshot.roundsComputed)).sum) ∧
      (∀ k c, r.container? k = some c → ∃ a, accounts[k]? = some a ∧ c = a.container) ∧
      ∀ k c x, r.container? k = some c → c.enabled = false →
        (r.record k x).2.container? k = some { c with snapshot := c.snapshot.record x } ∧
          ∀ j, ((r.record k x).2.readOn j).1 = (r.readOn j).1 := by
  intro shown owned amounts
  have hbooked := h.kept.meters i m hm
  have hshown : shown = m.exported r.latest := readOn_export hm
  -- the accounts that count under labels of the group are those that are owned
  have htotal : ∀ j, j = .roundsComputed ∨ j = .roundsCompleted ∨ j = .decodeFailures ∨ j = .revocations →
      shown.total j (Labels.isFor group) = (owned.map fun a =>
        a.snapshot.counter j + if .roundsComputed = j then a.refused else 0).sum := by
    intro j hj
    rw [hshown, m.total_exported r.latest _ hj, hbooked.counted j _ (Labels.judges_isFor group)]
    exact sum_filter (fun _ => Account.counted_isFor)
      (fun _ ha => Account.counted_of_not_isOn ha fun _ => id) accounts
  refine ⟨?_, htotal .roundsCompleted (by simp), ?_, htotal .decodeFailures (by simp),
    htotal .revocations (by simp), ?_, ?_, h.kept.containers, ?_⟩
  · rw [htotal .roundsComputed (by simp), ← List.sum_map_add]
    rfl
  · rw [hshown, m.total_exported r.latest _ (by simp), hbooked.counted _ _
      ((Labels.judges_isFor group).and Labels.judges_hasFailed)]
    exact sum_filter (fun _ => Account.counted_failed)
      (fun _ ha => Account.counted_of_not_isOn ha fun _ hl => (Bool.and_eq_true_iff.mp hl).1) accounts
  · intro hwhole
    have hsums := hbooked.summed group fun a ha hon => hwhole a (List.mem_filter.mpr ⟨ha, hon⟩)
    have hadded : (accounts.map (Account.added i group)).sum = amounts.flatten.length := by
      rw [List.length_flatten, List.map_map]
      exact sum_filter (fun _ ha => if_pos ha) (fun _ ha => if_neg ha) accounts
    have hsummed : (accounts.map (Account.summed i group)).sum = amounts.flatten.sum := by
      rw [List.sum_flatten, List.map_map]
      exact sum_filter (fun _ ha => if_pos ha) (fun _ ha => if_neg ha) accounts
    rw [hadded, hsummed] at hsums
    rw [hshown, Meter.spreads_exported hsums r.latest]
    simp only [List.length_eq_zero_iff]
  · intro hcountable
    rw [List.length_flatten, List.map_map]
    exact congrArg List.sum (List.map_congr_left fun a ha => Account.length_amounts (hcountable a ha))
  · exact fun k c x hc hdisabled => h.kept.record_disabled hc hdisabled x

theorem totals_agree_mixed :
    ∃ r accounts m, Ledger r accounts ∧ r.meters[0]? = some m ∧
      accounts.map Account.meter = [some 0, some 0, none, some 0] ∧
      accounts.map Account.refused = [0, 0, 0, 1] ∧
      (r.container? 0).isNone ∧ (r.container? 2).map (·.snapshot.roundsComputed) = some 1 ∧
      (r.readOn 0).1.total .roundsComputed (Labels.isFor (.text "g")) = 2 ∧
      (r.readOn 0).1.total .roundsCompleted (Labels.isFor (.text "g")) = 2 ∧
      (r.readOn 0).1.total .roundsCompleted (fun l => l.isFor (.text "g") && l.hasFailed) = 1 ∧
      (r.readOn 0).1.total .decodeFailures (Labels.isFor (.text "g")) = 1 ∧
      (r.readOn 0).1.total .revocations (Labels.isFor (.text "g")) = 0 ∧
      ((r.readOn 0).1.spreads .roundMembers (.text "g")).map (fun s => (s.1, s.2.integer?)) = [(2, some 8)] ∧
      (r.readOn 0).1.total .roundsComputed (Labels.isFor (.text "h")) = 2 := by
  have hmade := ((((Ledger.begin true).install.create (.text "g") true).create (.text "g") true).create
    (.text "g") false).create (.text "h") true
  have hcomputed := ((hmade.record 0 (.computed (.int 3) (.int 0))).record 1
    (.computed (.int 5) (.int 0))).record 2 (.computed (.int 7) (.int 0))
  have hodd := (hcomputed.record 3 (.computed (.int (-1)) (.int 0))).record 3
    (.computed (.int (Int.pow 2 1024)) (.int 0))
  have hcompleted := ((hodd.record 0 (.completed (.text "OK") (.int 1) (.bool true))).record 1
    (.completed (.text "DUPLICATE_ADDRESS") (.int 2) (.bool false))).discard 0
  have hread := ((hcompleted.read 0).record 1 (.decodeFailure (.text "identity"))).record 3 .revoked
  have hmeter : ∀ {r accounts}, Ledger r accounts → r.meters[0]?.isSome → ∃ m, r.meters[0]? = some m :=
    fun _ => Option.isSome_iff_exists.mp
  obtain ⟨m, hm⟩ := hmeter hread (by decide +kernel)
  obtain ⟨hcounted, hcompleted, hfailed, hdecode, hrevoked, hmembers, _⟩ :=
    hread.totals_agree hm (.text "g")
  refine ⟨_, _, m, hread, hm, by decide +kernel, by decide +kernel, by decide +kernel, by decide +kernel,
    hcounted.trans (by decide +kernel), hcompleted.trans (by decide +kernel),
    hfailed.trans (by decide +kernel), hdecode.trans (by decide +kernel),
    hrevoked.trans (by decide +kernel), ?_, (hread.totals_agree hm (.text "h")).1.trans (by decide +kernel)⟩
  rw [hmembers (by decide +kernel)]
  decide +kernel

theorem totals_agree_fails :
    (∃ r accounts, Ledger r accounts ∧
      (accounts.filter (Account.isOn 0 (.text "g"))).map (·.snapshot.roundsComputed) = [1] ∧
      (r.readOn 0).1.total .roundsComputed (Labels.isFor (.text "g")) = 1 ∧
      (r.readOn 0).1.spreads .roundMembers (.text "g") = []) ∧
    ∃ r accounts, Ledger r accounts ∧
      (accounts.filter (Account.isOn 0 (.text "g"))).map (·.snapshot.roundsComputed) = [0] ∧
      (r.readOn 0).1.total .roundsComputed (Labels.isFor (.text "g")) = 1 := by
  have hmade := (Ledger.begin true).install.create (.text "g") true
  have hnegative := hmade.record 0 (.computed (.int (-1)) (.int 0))
  have hhuge := hmade.record 0 (.computed (.int (Int.pow 2 1024)) (.int 0))
  refine ⟨⟨_, _, hnegative, ?_, ?_, ?_⟩, _, _, hhuge, ?_, ?_⟩
  · decide +kernel
  · decide +kernel
  · exact List.isEmpty_iff.mp (by decide +kernel)
  · decide +kernel
  · decide +kernel

end Ledger

end Registry

end PrimaryElection.Metrics
