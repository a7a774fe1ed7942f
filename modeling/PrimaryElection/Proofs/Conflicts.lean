import Mathlib.Data.List.Nodup
import PrimaryElection.Proofs.Hooks
import PrimaryElection.Proofs.Policy

namespace PrimaryElection

namespace Address

theorem append_cons_inj {α : Type} {a : α} {l l' rest rest' : List α} (hrest : a ∉ rest)
    (hrest' : a ∉ rest') (h : l ++ a :: rest = l' ++ a :: rest') : l = l' ∧ rest = rest' := by
  rcases List.append_eq_append_iff.mp h with ⟨front, hl, hr⟩ | ⟨front, hl, hr⟩
  · cases front with
    | nil => simp_all
    | cons b front =>
      injection hr with _ hr
      exact (hrest (by rw [hr]; simp)).elim
  · cases front with
    | nil => simp_all
    | cons b front =>
      injection hr with _ hr
      exact (hrest' (by rw [hr]; simp)).elim

theorem colon_not_mem_digits (n : Nat) : ':' ∉ Nat.toDigits 10 n := by
  intro h
  have hdigit := Nat.isDigit_of_mem_toDigits (by decide) (by decide) h
  cases hdigit

theorem toList_toText (a : Address) : a.toText.toList = a.host.toList ++ ':' :: Nat.toDigits 10 a.port := by
  simp [toText]

theorem toText_injective {a b : Address} (h : a.toText = b.toText) : a = b := by
  -- a host may well contain colons, but the port is what stands behind the last of them
  have hlists : a.host.toList ++ ':' :: Nat.toDigits 10 a.port =
      b.host.toList ++ ':' :: Nat.toDigits 10 b.port := by
    rw [← toList_toText, ← toList_toText, h]
  obtain ⟨hhost, hport⟩ :=
    append_cons_inj (colon_not_mem_digits a.port) (colon_not_mem_digits b.port) hlists
  have hread := congrArg (Nat.ofDigitChars 10 · 0) hport
  simp only [Nat.ofDigitChars_ten_toDigits] at hread
  cases a
  cases b
  congr
  exact String.toList_inj.mp hhost

end Address

namespace Election

variable {round : Roster Identity}

theorem nodup_conflicts (round : Roster Identity) : ((conflicts round).map Prod.fst).Nodup := by
  have hclaims : ((claims round.entries).map Prod.fst).Nodup := by
    rw [claims_eq, groups, List.map_map]
    exact (List.map_id _).symm ▸ nodup_eraseDups _
  rw [conflicts, List.map_map]
  exact hclaims.sublist (List.filter_sublist.map _)

def Advertises (round : Roster Identity) (id : MemberId) (a : Address) : Prop :=
  ∃ i, round.get? id = some i ∧ i.host = a.host ∧ i.port = a.port

theorem mem_claimants_iff_advertises {a : Address} {id : MemberId} :
    id ∈ claimants round a ↔ Advertises round id a := by
  rw [mem_claimants]
  constructor
  · rintro ⟨i, hi, rfl⟩
    exact ⟨i, hi, rfl, rfl⟩
  · rintro ⟨i, hi, hhost, hport⟩
    exact ⟨i, hi, by rw [Identity.address, hhost, hport]⟩

theorem pairwise_claimants (round : Roster Identity) (a : Address) :
    (claimants round a).Pairwise Precedes := by
  have hle : (claimants round a).Pairwise (· ≤ ·) := pairwise_sortIds _
  refine (hle.and (nodup_claimants round a)).imp ?_
  rintro id id' ⟨hid, hne⟩
  exact precedes_of_not_le fun hge => hne (Text.le_antisymm hid hge)

theorem one_lt_length_claimants_iff {a : Address} :
    1 < (claimants round a).length ↔
      ∃ id id', id ≠ id' ∧ Advertises round id a ∧ Advertises round id' a := by
  rw [one_lt_length_iff (nodup_claimants round a)]
  simp only [mem_claimants_iff_advertises]

theorem mem_map_fst_conflicts {a : Address} :
    a ∈ (conflicts round).map Prod.fst ↔ 1 < (claimants round a).length := by
  rw [List.mem_map]
  constructor
  · rintro ⟨⟨a, ids⟩, hc, rfl⟩
    obtain ⟨rfl, hlength⟩ := mem_conflicts.mp hc
    exact hlength
  · exact fun hlength => ⟨(a, claimants round a), mem_conflicts.mpr ⟨rfl, hlength⟩, rfl⟩

section same

variable {c c' : Address × List MemberId} (hc : c ∈ conflicts round) (hc' : c' ∈ conflicts round)

include hc hc'

theorem conflict_eq_of_fst (h : c.1 = c'.1) : c = c' := by
  have hids : c.2 = claimants round c.1 := (mem_conflicts.mp hc).1
  have hids' : c'.2 = claimants round c'.1 := (mem_conflicts.mp hc').1
  exact Prod.ext h (by rw [hids, hids', h])

theorem conflict_unique {id : MemberId} (hid : id ∈ c.2) (hid' : id ∈ c'.2) : c = c' := by
  rw [(mem_conflicts.mp hc).1, mem_claimants] at hid
  rw [(mem_conflicts.mp hc').1, mem_claimants] at hid'
  obtain ⟨i, hi, haddress⟩ := hid
  obtain ⟨i', hi', haddress'⟩ := hid'
  have hsame : i = i' := Option.some.inj (hi.symm.trans hi')
  exact conflict_eq_of_fst hc hc' (by rw [← haddress, ← haddress', hsame])

theorem conflict_eq_of_toText (h : c.1.toText = c'.1.toText) : c = c' :=
  conflict_eq_of_fst hc hc' (Address.toText_injective h)

end same

/--
The conflicts of a round are exact: an address is listed, once, when two members or more advertise it, with
all of these members and no other, in strict code-point order.
-/
theorem conflicts_exact (round : Roster Identity) :
    ((conflicts round).map Prod.fst).Nodup ∧
      (∀ a, a ∈ (conflicts round).map Prod.fst ↔
        ∃ id id', id ≠ id' ∧ Advertises round id a ∧ Advertises round id' a) ∧
      (∀ c ∈ conflicts round,
        (∀ id, id ∈ c.2 ↔ Advertises round id c.1) ∧ c.2.Nodup ∧ c.2.Pairwise Precedes) ∧
      (∀ id, ∀ c ∈ conflicts round, ∀ c' ∈ conflicts round, id ∈ c.2 → id ∈ c'.2 → c = c') ∧
      (conflicts round = [] ↔ ∀ id id' i i', round.get? id = some i → round.get? id' = some i' →
        id ≠ id' → ¬ (i.host = i'.host ∧ i.port = i'.port)) := by
  refine ⟨nodup_conflicts round, ?_, ?_, ?_, ?_⟩
  · exact fun a => mem_map_fst_conflicts.trans one_lt_length_claimants_iff
  · rintro ⟨a, ids⟩ hc
    obtain ⟨rfl, -⟩ := mem_conflicts.mp hc
    exact ⟨fun id => mem_claimants_iff_advertises, nodup_claimants round a, pairwise_claimants round a⟩
  · exact fun id c hc c' hc' => conflict_unique hc hc'
  · rw [conflicts_eq_nil_iff]
    constructor
    · rintro hnone id id' i i' hi hi' hne ⟨hhost, hport⟩
      exact hnone ⟨id, id', i, i', hne, hi, hi', hhost, hport⟩
    · rintro hdistinct ⟨id, id', i, i', hne, hi, hi', hsame⟩
      exact hdistinct id id' i i' hi hi' hne hsame

theorem entries_conflictReport (round : Roster Identity) :
    (conflictReport round).entries = (conflicts round).map fun c => (Text.ofString c.1.toText, c.2) := by
  apply Roster.entries_ofList
  have hnodup := (nodup_conflicts round).map fun _ _ h => Address.toText_injective (Text.ofString_inj.mp h)
  rw [List.map_map] at hnodup ⊢
  exact hnodup

theorem get?_conflictReport {text : Text} {ids : List MemberId} :
    (conflictReport round).get? text = some ids ↔
      ∃ a, Text.ofString a.toText = text ∧ ids = claimants round a ∧ 1 < ids.length := by
  simp only [Roster.get?_eq_some_iff, entries_conflictReport, List.mem_map, Prod.exists, Prod.mk.injEq,
    mem_conflicts]
  constructor
  · rintro ⟨a, ids, hconflict, rfl, rfl⟩
    exact ⟨a, rfl, hconflict⟩
  · rintro ⟨a, rfl, hconflict⟩
    exact ⟨a, ids, hconflict, rfl, rfl⟩

end Election

def reports (events : List Event) : List (Int × Roster (List MemberId)) :=
  events.filterMap fun
    | .logged (.conflict epoch report) => some (epoch, report)
    | _ => none

theorem reports_append (l l' : List Event) : reports (l ++ l') = reports l ++ reports l' :=
  List.filterMap_append

theorem reports_concat {e : Event} (l : List Event) (h : reports [e] = []) :
    reports (l ++ [e]) = reports l := by
  rw [reports_append, h, List.append_nil]

namespace Node

open HookM

theorem gives_exclude_reports (epoch : Int) (memberId : MemberId) (e : DecodeError) (r : Run) :
    Gives (exclude epoch memberId e) r fun _ r' => reports r'.trace = reports r.trace := by
  have hrun : exclude epoch memberId e r = .ok () { r with
      node := { r.node with metrics := r.node.metrics.record (.decodeFailure (.text e.payload)) }
      trace := r.trace ++ [.measured (.decodeFailure (.text e.payload))] ++
        [.logged (.excluding epoch memberId e.fault)] } := by
    rw [exclude, bind_eq_of_ok (measure_eq _ r), log_eq]
  exact ⟨(), _, hrun, (reports_concat _ rfl).trans (reports_concat _ rfl)⟩

theorem gives_excludeUnreadable_reports (epoch : Int) (members : List (MemberId × Payload)) (r : Run) :
    Gives (excludeUnreadable epoch members) r fun _ r' => reports r'.trace = reports r.trace := by
  induction members generalizing r with
  | nil => exact gives_pure rfl
  | cons e rest ih =>
    obtain ⟨memberId, payload⟩ := e
    unfold excludeUnreadable
    cases Identity.decode payload with
    | ok i => exact ih r
    | error e =>
      refine (gives_exclude_reports epoch memberId e r).bind ?_
      exact fun _ s hs => (ih s).mono fun _ _ ht => ht.trans hs

def verdicts (epoch : Int) (leader : Value) (members : Roster Payload) :
    List (Int × Roster (List MemberId)) :=
  if (Election.elect (readable members) leader.text?).failed then
    [(epoch, Election.conflictReport (readable members))]
  else []

theorem reports_roundEntry (epoch : Int) (leader : Value) (members : Roster Payload) :
    reports [.logged (roundEntry epoch leader members)] = verdicts epoch leader members := by
  unfold roundEntry verdicts
  dsimp only
  split <;> rfl

theorem after_broadcast_reports (epoch : Int) (leader : Value) (members : Roster Payload) (r : Run) :
    After (broadcast epoch leader members) r fun _ r' =>
      reports r'.trace = reports r.trace ++ verdicts epoch leader members := by
  obtain ⟨_, s, hexcluded, hs⟩ := gives_excludeUnreadable_reports epoch members.entries r
  apply after_broadcast_of hexcluded
  rw [reports_concat _ rfl, reports_concat _ rfl, reports_concat _ rfl, reports_append, hs,
    reports_roundEntry]

theorem Led.reports {r r' : Run} (h : Led r r') : reports r'.trace = reports r.trace := by
  obtain ⟨attributes, htrace⟩ := h.trace
  rw [htrace, reports_append]
  cases r.node.phase <;> exact List.append_nil _

theorem after_compute_reports {epoch : Int} {leader : Value} {members : Roster Payload} {r : Run}
    (hactive : r.node.phase ≠ .active) (hrevoking : r.node.phase ≠ .revoking) :
    After (compute epoch leader members) r fun _ r' =>
      reports r'.trace = reports r.trace ++ verdicts epoch leader members := by
  refine after_compute_of hactive hrevoking fun led hled => ?_
  apply (after_broadcast_reports epoch leader members led).mono
  intro _ s hs failure
  rw [reports_concat _ rfl, hs, hled.reports]

theorem after_compute_refused_reports {epoch : Int} {leader : Value} {members : Roster Payload} {r : Run}
    (h : r.node.phase = .active ∨ r.node.phase = .revoking) :
    After (compute epoch leader members) r fun _ r' => reports r'.trace = reports r.trace :=
  after_compute_refused_of h fun _ _ => (reports_concat _ rfl).trans (reports_concat _ rfl)

end Node

end PrimaryElection
