import Mathlib.Data.List.TakeWhile
import PrimaryElection.Metrics.Registry

namespace PrimaryElection.Metrics

namespace Speaker

def of? (l : List Speaker) (group : Value) : Option Nat :=
  (l.find? fun s => s.group.key? = group.key?).map Speaker.container

theorem of?_cons (s : Speaker) (l : List Speaker) (group : Value) :
    of? (s :: l) group = if s.group.key? = group.key? then some s.container else of? l group := by
  unfold of?
  rw [List.find?_cons]
  by_cases h : s.group.key? = group.key? <;> simp [h]

theorem of?_eq_none {l : List Speaker} {group : Value}
    (h : group.key? ∉ l.map fun s => s.group.key?) : of? l group = none := by
  unfold of?
  rw [Option.map_eq_none_iff, List.find?_eq_none]
  intro s hs hkey
  exact h (List.mem_map.mpr ⟨s, hs, of_decide_eq_true hkey⟩)

theorem of?_put (group other : Value) (container : Nat) (l : List Speaker) :
    of? (put group container l) other =
      if group.key? = other.key? then some container else of? l other := by
  induction l with
  | nil => exact of?_cons _ _ _
  | cons s rest ih =>
    unfold put
    by_cases hs : s.group.key? = group.key?
    · simp only [hs, if_true, of?_cons]
      split <;> rfl
    · simp only [hs, if_false, of?_cons, ih]
      by_cases ho : group.key? = other.key?
      · rw [if_pos ho, if_neg (fun e => hs (e.trans ho.symm)), if_pos ho]
      · rw [if_neg ho, if_neg ho]

theorem keys_put (group : Value) (container : Nat) (l : List Speaker) :
    (put group container l).map (fun s => s.group.key?) =
      if group.key? ∈ l.map (fun s => s.group.key?) then l.map (fun s => s.group.key?)
      else l.map (fun s => s.group.key?) ++ [group.key?] := by
  induction l with
  | nil => rfl
  | cons s rest ih =>
    unfold put
    by_cases hs : s.group.key? = group.key?
    · simp [hs]
    · have hs' : ¬ group.key? = s.group.key? := fun e => hs e.symm
      by_cases hm : group.key? ∈ rest.map fun s => s.group.key?
      · simp only [hs, if_false, List.map_cons, ih, hm, if_true, List.mem_cons, or_true]
      · simp only [hs, if_false, List.map_cons, ih, hm, List.mem_cons, hs', or_self, List.cons_append]

theorem nodup_put {group : Value} {container : Nat} {l : List Speaker}
    (h : (l.map fun s => s.group.key?).Nodup) :
    ((put group container l).map fun s => s.group.key?).Nodup := by
  rw [keys_put]
  split
  · exact h
  · rename_i hm
    refine List.nodup_append.mpr ⟨h, List.pairwise_singleton _ _, ?_⟩
    intro a ha b hb e
    rw [List.mem_singleton.mp hb] at e
    exact hm (e ▸ ha)

theorem of?_eq_some_iff {l : List Speaker} (h : (l.map fun s => s.group.key?).Nodup) {group : Value}
    {container : Nat} :
    of? l group = some container ↔ ∃ s ∈ l, s.group.key? = group.key? ∧ s.container = container := by
  induction l with
  | nil => simp [of?]
  | cons s rest ih =>
    obtain ⟨hs, hrest⟩ := List.nodup_cons.mp h
    rw [of?_cons]
    by_cases hg : s.group.key? = group.key?
    · rw [if_pos hg, Option.some.injEq]
      refine ⟨fun e => ⟨s, List.mem_cons_self, hg, e⟩, ?_⟩
      rintro ⟨t, ht, htg, e⟩
      rcases List.mem_cons.mp ht with rfl | ht
      · exact e
      · exact absurd (List.mem_map.mpr ⟨t, ht, htg.trans hg.symm⟩) hs
    · rw [if_neg hg, ih hrest]
      refine ⟨fun ⟨t, ht, h⟩ => ⟨t, List.mem_cons_of_mem _ ht, h⟩, ?_⟩
      rintro ⟨t, ht, htg, e⟩
      rcases List.mem_cons.mp ht with rfl | ht
      · exact absurd htg hg
      · exact ⟨t, ht, htg, e⟩

end Speaker

def Export.points (e : Export) (i : Instrument) : List Point :=
  (e.filter fun shown => shown.1 = i).flatMap Prod.snd

def Point.Of (group : Value) (p : Point) : Prop :=
  p.labels.map (fun e => (e.1, e.2.key?)) = [("group", group.key?)]

instance (group : Value) (p : Point) : Decidable (p.Of group) := by
  unfold Point.Of
  infer_instance

namespace Snapshot

def primaryValue (s : Snapshot) : Value := .int (if s.isPrimary.isBlank then 0 else 1)

end Snapshot

theorem Meter.record_gauges (m : Meter) (group : Value) (measurement : Measurement) :
    (m.record group measurement).gauges = m.gauges := by
  cases measurement <;> rfl

namespace Registry

def readOn (r : Registry) (i : Nat) : Export × Registry :=
  let (shown, read) := { r with watched := some i }.collect
  (shown, { read with watched := r.watched })

theorem collect_eq_readOn {r : Registry} {i : Nat} (h : r.watched = some i) : r.collect = r.readOn i := by
  obtain ⟨available, meters, current, gauged, watched, speakers, containers⟩ := r
  subst h
  unfold readOn collect
  simp only
  split <;> rfl

def observed (r : Registry) (value : Snapshot → Value) : List Point :=
  r.latest.map fun e => ⟨[("group", e.1)], .value (value e.2)⟩

structure GaugedOnce (r : Registry) : Prop where
  current : ∀ i, r.current = some i → i < r.meters.length
  once : ∀ (i : Nat) (m : Meter), r.meters[i]? = some m → m.gauges ≤ 1
  gauged : ∀ (i : Nat) (m : Meter), r.current = some i → r.meters[i]? = some m → m.gauges ≠ 0 →
    r.gauged = some i

namespace GaugedOnce

variable {r r' : Registry}

theorem congr (h : r.GaugedOnce) (hmeters : r'.meters = r.meters) (hcurrent : r'.current = r.current)
    (hgauged : r'.gauged = r.gauged) : r'.GaugedOnce := by
  obtain ⟨_, _, _, _, _, _, _⟩ := r'
  subst hmeters hcurrent hgauged
  exact ⟨h.current, h.once, h.gauged⟩

theorem reset (h : r.GaugedOnce) : r.reset.GaugedOnce where
  current := by
    intro i hi
    cases hi
  once := h.once
  gauged := by
    intro i m hi
    cases hi

theorem addMeter {m : Meter} (hm : m.gauges = 0) (h : r.GaugedOnce) : (r.addMeter m).GaugedOnce where
  current := by
    intro i hi
    cases hi
    simp [Registry.addMeter]
  once := by
    intro i m' hm'
    rcases List.mem_append.mp (List.mem_of_getElem? hm') with hold | hnew
    · obtain ⟨j, hj⟩ := List.mem_iff_getElem?.mp hold
      exact h.once j m' hj
    · rw [List.mem_singleton.mp hnew, hm]
      exact Nat.zero_le 1
  gauged := by
    intro i m' hi hm' hgauges
    cases hi
    simp only [Registry.addMeter, List.getElem?_concat_length, Option.some.injEq] at hm'
    exact absurd (hm' ▸ hm) hgauges

theorem ensureMeter (h : r.GaugedOnce) : r.ensureMeter.GaugedOnce := by
  unfold Registry.ensureMeter
  split
  · exact h
  · exact h.addMeter rfl

theorem modify {i : Nat} {f : Meter → Meter} (hf : ∀ m, (f m).gauges = m.gauges) (h : r.GaugedOnce) :
    GaugedOnce { r with meters := r.meters.modify i f } := by
  have hsame : ∀ (j : Nat) (m : Meter), (r.meters.modify i f)[j]? = some m →
      ∃ m', r.meters[j]? = some m' ∧ m.gauges = m'.gauges := by
    intro j m hm
    rw [List.getElem?_modify] at hm
    obtain ⟨m', hm', rfl⟩ := Option.map_eq_some_iff.mp hm
    refine ⟨m', hm', ?_⟩
    split
    · exact hf m'
    · rfl
  refine ⟨?_, ?_, ?_⟩
  · intro j hj
    rw [List.length_modify]
    exact h.current j hj
  · intro j m hm
    obtain ⟨m', hm', e⟩ := hsame j m hm
    exact e ▸ h.once j m' hm'
  · intro j m hj hm hgauges
    obtain ⟨m', hm', e⟩ := hsame j m hm
    exact h.gauged j m' hj hm' (e ▸ hgauges)

theorem ensureGauges (h : r.GaugedOnce) : r.ensureGauges.GaugedOnce := by
  unfold Registry.ensureGauges
  split
  · exact h
  rename_i hnew
  split
  · exact h
  rename_i i hi
  refine ⟨?_, ?_, ?_⟩
  · intro j hj
    rw [List.length_modify]
    exact h.current j hj
  · intro j m hm
    rw [List.getElem?_modify] at hm
    obtain ⟨m', hm', rfl⟩ := Option.map_eq_some_iff.mp hm
    split
    · rename_i hij
      subst hij
      -- had the current meter its gauges, they would have been the last that were registered
      have hfree : m'.gauges = 0 := Decidable.byContradiction fun hgauges =>
        hnew ((h.gauged i m' hi hm' hgauges).trans hi.symm)
      show m'.gauges + 1 ≤ 1
      omega
    · exact h.once j m' hm'
  · intro j m hj _ _
    exact hi.symm.trans hj

theorem counted (c : Container) (measurement : Measurement) (h : r.GaugedOnce) :
    GaugedOnce { r with
      meters := match c.meter with
        | none => r.meters
        | some i => r.meters.modify i fun meter => meter.record c.group measurement } := by
  cases c.meter with
  | none => exact h.congr rfl rfl rfl
  | some i => exact h.modify fun m => m.record_gauges c.group measurement

end GaugedOnce

/-- What the registry keeps of the containers that were created, the newest first. -/
structure Voiced (r : Registry) (made : List Speaker) : Prop where
  keys : (r.speakers.map fun s => s.group.key?).Nodup
  newest : ∀ group serial, Speaker.of? r.speakers group = some serial →
    Speaker.of? made group = some serial
  speaks : ∀ group serial, Speaker.of? made group = some serial → (r.container? serial).isSome →
    Speaker.of? r.speakers group = some serial
  known : ∀ group serial, Speaker.of? made group = some serial → serial < r.containers.length

def voice? (r : Registry) (made : List Speaker) (group : Value) : Option Container :=
  (Speaker.of? made group).bind r.container?

theorem container?_add {r : Registry} {n : Nat} (c : Container) (h : n < r.containers.length) :
    (r.add c).2.container? n = r.container? n := by
  unfold container? add
  rw [List.getElem?_append_left h]

namespace Voiced

variable {r r' : Registry} {made : List Speaker}

theorem of_alive (h : r.Voiced made) (hspeakers : r'.speakers = r.speakers)
    (hlength : r.containers.length ≤ r'.containers.length)
    (halive : ∀ n < r.containers.length, (r'.container? n).isSome → (r.container? n).isSome) :
    r'.Voiced made where
  keys := by rw [hspeakers]; exact h.keys
  newest := by rw [hspeakers]; exact h.newest
  speaks := by
    intro group serial hmade hsome
    rw [hspeakers]
    exact h.speaks group serial hmade (halive serial (h.known group serial hmade) hsome)
  known := fun group serial hmade => Nat.lt_of_lt_of_le (h.known group serial hmade) hlength

theorem congr (h : r.Voiced made) (hspeakers : r'.speakers = r.speakers)
    (hcontainers : r'.containers = r.containers) : r'.Voiced made := by
  refine h.of_alive hspeakers (Nat.le_of_eq (by rw [hcontainers])) fun n _ hsome => ?_
  unfold container? at hsome ⊢
  rwa [hcontainers] at hsome

theorem modify {f : Option Container → Option Container} (hf : f none = none) (serial : Nat)
    (h : r.Voiced made) : Voiced { r with containers := r.containers.modify serial f } made := by
  refine h.of_alive rfl (by simp) ?_
  intro n _ hsome
  unfold container? at hsome ⊢
  rw [List.getElem?_modify] at hsome
  cases hn : r.containers[n]? with
  | none => simp [hn] at hsome
  | some c =>
    cases c with
    | none => simp [hn, hf] at hsome
    | some c => rfl

theorem reset : r.reset.Voiced [] where
  keys := .nil
  newest := by
    intro group serial h
    cases h
  speaks := by
    intro group serial h
    cases h
  known := by
    intro group serial h
    cases h

theorem add (c : Container) (h : r.Voiced made) : (r.add c).2.Voiced made := by
  refine h.of_alive rfl ?_ fun n hn => ?_
  · simp [Registry.add]
  · rw [container?_add c hn]
    exact id

theorem enlist (group : Value) (c : Container) (h : r.Voiced made) :
    Voiced { (r.add c).2 with speakers := Speaker.put group r.containers.length r.speakers }
      (⟨group, r.containers.length⟩ :: made) := by
  refine ⟨Speaker.nodup_put h.keys, ?_, ?_, ?_⟩ <;> intro other serial <;>
    by_cases hg : group.key? = other.key? <;>
    simp only [Speaker.of?_put, Speaker.of?_cons, hg, if_true, if_false]
  · exact id
  · exact h.newest other serial
  · exact fun hserial _ => hserial
  · intro hserial hsome
    apply h.speaks other serial hserial
    rw [← container?_add c (h.known other serial hserial)]
    exact hsome
  · intro hserial
    cases hserial
    simp [Registry.add]
  · intro hserial
    have hlt := h.known other serial hserial
    simp only [Registry.add, List.length_append, List.length_singleton]
    omega

theorem prune (h : r.Voiced made) : r.prune.Voiced made := by
  have hkeys : (r.prune.speakers.map fun s => s.group.key?).Nodup :=
    h.keys.sublist (List.filter_sublist.map _)
  refine ⟨hkeys, ?_, ?_, h.known⟩
  · intro group serial hserial
    obtain ⟨s, hs, hgroup⟩ := (Speaker.of?_eq_some_iff hkeys).mp hserial
    exact h.newest group serial
      ((Speaker.of?_eq_some_iff h.keys).mpr ⟨s, (List.mem_filter.mp hs).1, hgroup⟩)
  · intro group serial hmade hsome
    obtain ⟨s, hs, hgroup, rfl⟩ :=
      (Speaker.of?_eq_some_iff h.keys).mp (h.speaks group serial hmade hsome)
    exact (Speaker.of?_eq_some_iff hkeys).mpr ⟨s, List.mem_filter.mpr ⟨hs, hsome⟩, hgroup, rfl⟩

theorem voice?_eq (h : r.Voiced made) (group : Value) :
    r.voice? made group = (Speaker.of? r.speakers group).bind r.container? := by
  unfold voice?
  cases hspeaks : Speaker.of? r.speakers group with
  | some serial => rw [h.newest group serial hspeaks]
  | none =>
    cases hmade : Speaker.of? made group with
    | none => rfl
    | some serial =>
      cases hsome : r.container? serial with
      | none => exact hsome
      | some c =>
        rw [h.speaks group serial hmade (hsome ▸ rfl)] at hspeaks
        cases hspeaks

end Voiced

theorem Point.of_single (group other : Value) (reading : Reading) :
    Point.Of group ⟨[("group", other)], reading⟩ ↔ other.key? = group.key? := by
  simp [Point.Of]

theorem latest_prune (r : Registry) : r.prune.latest = r.latest := by
  unfold latest prune
  rw [List.filterMap_filter]
  congr 1
  funext s
  show (if (r.container? s.container).isSome = true then
    (r.container? s.container).map fun c => (s.group, c.snapshot) else none) = _
  cases r.container? s.container <;> rfl

theorem observed_of {r : Registry} (value : Snapshot → Value) (group : Value)
    (h : (r.speakers.map fun s => s.group.key?).Nodup) :
    ((r.observed value).filter (Point.Of group)).map Point.reading =
      ((Speaker.of? r.speakers group).bind r.container?).toList.map fun c =>
        .value (value c.snapshot) := by
  unfold observed latest
  generalize r.speakers = l at h ⊢
  induction l with
  | nil => rfl
  | cons s rest ih =>
    obtain ⟨hs, hrest⟩ := List.nodup_cons.mp h
    have ih := ih hrest
    rw [Speaker.of?_cons]
    by_cases hg : s.group.key? = group.key?
    · rw [Speaker.of?_eq_none (hg ▸ hs)] at ih
      have hothers := List.map_eq_nil_iff.mp ih
      cases hc : r.container? s.container <;> simp [hc, hg, Point.of_single, hothers]
    · rw [if_neg hg, ← ih]
      cases hc : r.container? s.container <;> simp [hc, hg, Point.of_single]

theorem exists_of_observed {r : Registry} {value : Snapshot → Value} {p : Point}
    (h : p ∈ r.observed value) : ∃ group, p.Of group := by
  obtain ⟨e, _, rfl⟩ := List.mem_map.mp h
  exact ⟨e.1, (Point.of_single _ _ _).mpr rfl⟩

end Registry

def Point.shows (p : Point) : Bool :=
  match p.reading with
  | .value v => (amountError? v).isNone
  | .spread _ => true

theorem gaugePoints_latest (r : Registry) (value : Snapshot → Value) :
    gaugePoints value r.latest = (r.observed value).takeWhile Point.shows := by
  unfold gaugePoints Registry.observed
  rw [List.takeWhile_map]
  rfl

theorem primaryValue_shows {r : Registry} {p : Point} (h : p ∈ r.observed Snapshot.primaryValue) :
    p.shows = true := by
  obtain ⟨e, _, rfl⟩ := List.mem_map.mp h
  unfold Point.shows Snapshot.primaryValue
  simp only
  split <;> decide +kernel

namespace Export

theorem points_cons (shown : Instrument × List Point) (e : Export) (i : Instrument) :
    points (shown :: e) i = (if shown.1 = i then shown.2 else []) ++ points e i := by
  unfold points
  by_cases h : shown.1 = i <;> simp [h]

theorem points_sorted (e : Export) (i : Instrument) :
    (points ((e.filter fun s => !s.2.isEmpty).map fun s => (s.1, sortPoints s.2)) i).Perm (e.points i) := by
  induction e with
  | nil => exact .refl _
  | cons shown rest ih =>
    rw [points_cons, List.filter_cons]
    split
    · rw [List.map_cons, points_cons]
      apply List.Perm.append _ ih
      split
      · exact perm_sortBy _ _
      · exact .refl _
    · rename_i hempty
      have hnil : shown.2 = [] := by simpa using hempty
      rw [hnil, ite_self, List.nil_append]
      exact ih

end Export

namespace Meter

theorem points_epoch {m : Meter} (h : m.gauges ≠ 0) (latest : List (Value × Snapshot)) :
    ((m.exported latest).points .epoch).Perm (gaugePoints Snapshot.epoch latest) := by
  refine (Export.points_sorted _ _).trans (.of_eq ?_)
  simp [Export.points, h]

theorem points_isPrimary {m : Meter} (h : m.gauges ≠ 0) (latest : List (Value × Snapshot)) :
    ((m.exported latest).points .isPrimary).Perm (gaugePoints Snapshot.primaryValue latest) := by
  refine (Export.points_sorted _ _).trans (.of_eq ?_)
  simp [Export.points, h]
  rfl

theorem settle_exported (m : Meter) (latest : List (Value × Snapshot)) :
    m.settle.exported latest = m.exported latest := by
  have htotal : ∀ a : Amounts, a.settle.total? = a.total? := fun _ => rfl
  simp only [exported, settle, List.filterMap_map, Function.comp_def, htotal]
  rfl

end Meter

namespace Registry

theorem readOn_export {r : Registry} {i : Nat} {m : Meter} (hm : r.meters[i]? = some m) :
    (r.readOn i).1 = m.exported r.latest := by
  show exported { r with watched := some i } = _
  simp only [exported, Option.bind_some, hm]
  rfl

theorem readOn_registry (r : Registry) (i : Nat) :
    (r.readOn i).2 = { r with meters := r.meters.modify i Meter.settle } ∨
      (r.readOn i).2 = { r.prune with meters := r.meters.modify i Meter.settle } := by
  unfold readOn collect
  simp only
  split
  · exact .inl rfl
  · exact .inr rfl

theorem readOn_latest (r : Registry) (i : Nat) : (r.readOn i).2.latest = r.latest := by
  rcases readOn_registry r i with h | h
  · rw [h]
    rfl
  · rw [h, ← latest_prune r]
    rfl

theorem readOn_twice {r : Registry} {i : Nat} {m : Meter} (hm : r.meters[i]? = some m) :
    ((r.readOn i).2.readOn i).1 = (r.readOn i).1 := by
  have hsettled : (r.readOn i).2.meters[i]? = some m.settle := by
    rcases readOn_registry r i with h | h <;> rw [h] <;> simp [hm]
  rw [readOn_export hsettled, readOn_export hm, readOn_latest, Meter.settle_exported]

def remember (made : List Speaker) (group : Value) (enable : Bool) : Except Error Nat → List Speaker
  | .ok serial => if enable then ⟨group, serial⟩ :: made else made
  | .error _ => made

inductive Course : Registry → List Speaker → Prop
  | begin : Course {} []
  | reset {r : Registry} {made : List Speaker} : Course r made → Course r.reset []
  | install {r : Registry} {made : List Speaker} : Course r made → Course r.install []
  | adopt {r : Registry} {made : List Speaker} (installed : Bool) :
    Course r made → Course (r.addMeter { installed }) made
  | create {r : Registry} {made : List Speaker} (group : Value) (enable : Bool) :
    Course r made → Course (r.create group enable).2 (remember made group enable (r.create group enable).1)
  | discard {r : Registry} {made : List Speaker} (serial : Nat) :
    Course r made → Course (r.discard serial) made
  | record {r : Registry} {made : List Speaker} (serial : Nat) (measurement : Measurement) :
    Course r made → Course (r.record serial measurement).2 made
  | read {r : Registry} {made : List Speaker} (i : Nat) : Course r made → Course (r.readOn i).2 made

theorem ensured (r : Registry) : ∃ meters current gauged,
    r.ensureMeter.ensureGauges = { r with meters, current, gauged } := by
  unfold ensureGauges ensureMeter
  split <;> split
  · exact ⟨_, _, _, rfl⟩
  · split <;> exact ⟨_, _, _, rfl⟩
  · exact ⟨_, _, _, rfl⟩
  · split <;> exact ⟨_, _, _, rfl⟩

structure Standing (r : Registry) (made : List Speaker) : Prop where
  available : r.available = true
  gaugedOnce : r.GaugedOnce
  voiced : r.Voiced made

namespace Standing

variable {r : Registry} {made : List Speaker}

theorem create (h : r.Standing made) (group : Value) (enable : Bool) :
    (r.create group enable).2.Standing (remember made group enable (r.create group enable).1) := by
  unfold Registry.create
  rw [h.available, Bool.and_true]
  cases enable with
  | false => exact ⟨h.available, h.gaugedOnce.congr rfl rfl rfl, h.voiced.add _⟩
  | true =>
    obtain ⟨meters, current, gauged, hready⟩ := ensured r
    have hgauged := h.gaugedOnce.ensureMeter.ensureGauges
    have hvoiced : r.ensureMeter.ensureGauges.Voiced made := by
      rw [hready]
      exact h.voiced.congr rfl rfl
    have havailable : r.ensureMeter.ensureGauges.available = true := by
      rw [hready]
      exact h.available
    simp only [if_true]
    split
    · exact ⟨havailable, hgauged, hvoiced⟩
    · exact ⟨havailable, hgauged.congr rfl rfl rfl, hvoiced.enlist group _⟩

theorem discard (h : r.Standing made) (serial : Nat) : (r.discard serial).Standing made where
  available := h.available
  gaugedOnce := h.gaugedOnce.congr rfl rfl rfl
  voiced := h.voiced.modify rfl serial

theorem record (h : r.Standing made) (serial : Nat) (measurement : Measurement) :
    (r.record serial measurement).2.Standing made := by
  unfold Registry.record
  split
  · exact h
  rename_i c _
  have hcounted := h.gaugedOnce.counted c measurement
  simp only
  split
  · exact ⟨h.available, hcounted, h.voiced.congr rfl rfl⟩
  · have hvoiced := h.voiced.modify
      (f := fun o => o.map fun c => { c with snapshot := c.snapshot.record measurement }) rfl serial
    exact ⟨h.available, hcounted.congr rfl rfl rfl, hvoiced.congr rfl rfl⟩

theorem read (h : r.Standing made) (i : Nat) : (r.readOn i).2.Standing made := by
  have hsettled := h.gaugedOnce.modify (i := i) (f := Meter.settle) fun _ => rfl
  rcases readOn_registry r i with hread | hread
  · rw [hread]
    exact ⟨h.available, hsettled, h.voiced.congr rfl rfl⟩
  · rw [hread]
    exact ⟨h.available, hsettled.congr rfl rfl rfl, h.voiced.prune.congr rfl rfl⟩

end Standing

namespace Course

variable {r : Registry} {made : List Speaker}

theorem collect (h : Course r made) : Course r.collect.2 made := by
  cases hwatched : r.watched with
  | none =>
    unfold Registry.collect
    rw [hwatched]
    exact h
  | some i =>
    rw [collect_eq_readOn hwatched]
    exact h.read i

theorem standing (h : Course r made) : r.Standing made := by
  induction h with
  | begin =>
    exact ⟨rfl, ⟨by simp, by simp, by simp⟩, ⟨.nil, fun _ _ h => h, by simp [Speaker.of?],
      by simp [Speaker.of?]⟩⟩
  | reset _ ih => exact ⟨ih.available, ih.gaugedOnce.reset, .reset⟩
  | @install r made _ ih =>
    have hgauged := ih.gaugedOnce.reset.addMeter (m := { installed := true }) rfl
    have hvoiced : r.reset.Voiced [] := .reset
    exact ⟨ih.available, hgauged.congr rfl rfl rfl, hvoiced.congr rfl rfl⟩
  | adopt _ _ ih => exact ⟨ih.available, ih.gaugedOnce.addMeter rfl, ih.voiced.congr rfl rfl⟩
  | create group enable _ ih => exact ih.create group enable
  | discard serial _ ih => exact ih.discard serial
  | record serial measurement _ ih => exact ih.record serial measurement
  | read i _ ih => exact ih.read i

/--
No meter has the gauges twice. What they observe, be it the epoch or who is primary, is for each group the
value of the container that was created last for it since the last reset, once and as long as it is there,
and nothing else; to read a meter shows this and changes nothing of it.
-/
theorem gauges_owned (h : Course r made) :
    (∀ (i : Nat) (m : Meter), r.meters[i]? = some m → m.gauges ≤ 1) ∧
    (∀ value group, ((r.observed value).filter (Point.Of group)).map Point.reading =
      (r.voice? made group).toList.map fun c => .value (value c.snapshot)) ∧
    (∀ value, ∀ p ∈ r.observed value, ∃ group, p.Of group) ∧
    ∀ (i : Nat) (m : Meter), r.meters[i]? = some m → m.gauges ≠ 0 →
      ((r.readOn i).1.points .isPrimary).Perm (r.observed Snapshot.primaryValue) ∧
      ((r.readOn i).1.points .epoch).Perm ((r.observed Snapshot.epoch).takeWhile Point.shows) ∧
      ((∀ p ∈ r.observed Snapshot.epoch, p.shows = true) →
        ((r.readOn i).1.points .epoch).Perm (r.observed Snapshot.epoch)) ∧
      (∀ value, (r.readOn i).2.observed value = r.observed value) ∧
      ((r.readOn i).2.readOn i).1 = (r.readOn i).1 := by
  have hstanding := h.standing
  refine ⟨hstanding.gaugedOnce.once, ?_, fun _ _ => exists_of_observed, ?_⟩
  · intro value group
    rw [hstanding.voiced.voice?_eq group]
    exact observed_of value group hstanding.voiced.keys
  intro i m hm hgauges
  have hepoch := Meter.points_epoch hgauges r.latest
  have hprimary := Meter.points_isPrimary hgauges r.latest
  rw [gaugePoints_latest] at hepoch hprimary
  rw [List.takeWhile_eq_self_iff.mpr fun _ => primaryValue_shows] at hprimary
  rw [readOn_export hm]
  refine ⟨hprimary, hepoch, ?_, ?_, ?_⟩
  · intro hshows
    rwa [List.takeWhile_eq_self_iff.mpr hshows] at hepoch
  · intro value
    unfold observed
    rw [readOn_latest]
  · rw [readOn_twice hm, readOn_export hm]

theorem gauges_owned_replaced :
    ∃ r made m, Course r made ∧ r.meters.map Meter.gauges = [1, 1] ∧ r.meters[0]? = some m ∧
      ((r.observed Snapshot.epoch).filter (Point.Of (.text "g"))).map Point.reading =
        [.value (.int 7)] ∧
      ((r.observed Snapshot.epoch).filter (Point.Of (.text "h"))).map Point.reading = [] ∧
      ((r.readOn 0).1.points .epoch).Perm (r.observed Snapshot.epoch) ∧
      ((r.readOn 0).2.readOn 0).1 = (r.readOn 0).1 := by
  have hinstalled : Course _ _ := Course.begin.install
  have hforgotten := ((hinstalled.create (.text "g") true).create (.text "h") true).reset
  have hreplaced := (hforgotten.create (.text "g") true).create (.text "g") true
  have hrecorded := hreplaced.record 3 (.completed (.text "OK") (.int 7) (.bool true))
  have hcourse := ((hrecorded.create (.text "h") true).create (.text "h") false).discard 4
  have howned := hcourse.gauges_owned
  have hread := howned.2.2.2 0 _ rfl (by decide)
  refine ⟨_, _, _, hcourse, by decide +kernel, rfl, ?_, ?_, hread.2.2.1 ?_, hread.2.2.2.2⟩
  · rw [howned.2.1]
    rfl
  · rw [howned.2.1]
    rfl
  · decide +kernel

end Course

end Registry

end PrimaryElection.Metrics
