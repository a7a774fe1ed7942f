import PrimaryElection.Proofs.Electorate

/-!
The policy of an election, in terms of what is found under the names of a round and of nothing else: not of
the order in which the members came. A round fails exactly when two of its members advertise one address;
otherwise it elects its leader, if that is eligible, and else the eligible member whose id comes first. What
is found under the names also decides what becomes of an elected primary when members leave or join.
-/

namespace PrimaryElection.Election

variable {round part : Roster Identity} {leader id c c' : MemberId} {i : Identity}

def Eligible (round : Roster Identity) (id : MemberId) : Prop :=
  ∃ i, round.get? id = some i ∧ i.eligible = true

def Clash (round : Roster Identity) : Prop :=
  ∃ id id' i i', id ≠ id' ∧ round.get? id = some i ∧ round.get? id' = some i' ∧
    i.host = i'.host ∧ i.port = i'.port

def Precedes (id id' : MemberId) : Prop := List.Lex (· < ·) id.codes id'.codes

structure Chosen (round : Roster Identity) (leader c : MemberId) : Prop where
  eligible : Eligible round c
  preferred : Eligible round leader → c = leader
  first : ¬ Eligible round leader → ∀ id, Eligible round id → id ≠ c → Precedes c id

theorem precedes_of_not_le {id id' : MemberId} (h : ¬ id' ≤ id) : Precedes id id' := List.not_le.mp h

theorem Precedes.asymm {id id' : MemberId} (h : Precedes id id') : ¬ Precedes id' id := List.lt_asymm h

theorem Chosen.unique (h : Chosen round leader c) (h' : Chosen round leader c') : c = c' := by
  by_cases hleader : Eligible round leader
  · rw [h.preferred hleader, h'.preferred hleader]
  · apply Classical.byContradiction
    intro hne
    exact (h.first hleader c' h'.eligible (Ne.symm hne)).asymm (h'.first hleader c h.eligible hne)

theorem conflicts_eq_nil_iff : conflicts round = [] ↔ ¬ Clash round := by
  constructor
  · rintro hnone ⟨id, id', i, i', hne, hi, hi', hhost, hport⟩
    have haddress : i'.address = i.address := by
      rw [Identity.address, Identity.address, hhost, hport]
    have hid : id ∈ claimants round i.address := mem_claimants.mpr ⟨i, hi, rfl⟩
    have hid' : id' ∈ claimants round i.address := mem_claimants.mpr ⟨i', hi', haddress⟩
    have hlength := (one_lt_length_iff (nodup_claimants round i.address)).mpr ⟨id, id', hne, hid, hid'⟩
    have hlisted := mem_conflicts.mpr ⟨rfl, hlength⟩
    rw [hnone] at hlisted
    exact List.not_mem_nil hlisted
  · intro hclash
    apply conflicts_eq_nil
    intro id i id' i' hi hi' haddress
    apply Classical.byContradiction
    intro hne
    injection haddress with hhost hport
    exact hclash ⟨id, id', i, i', hne, hi, hi', hhost, hport⟩

theorem pairwise_sortIds (ids : List MemberId) : (sortIds ids).Pairwise (· ≤ ·) := by
  have htotal : ∀ a b : MemberId, decide (a ≤ b) = true ∨ decide (b ≤ a) = true := by
    intro a b
    simpa using Text.le_total a b
  have htrans : ∀ a b c : MemberId, decide (a ≤ b) = true → decide (b ≤ c) = true →
      decide (a ≤ c) = true := by
    intro a b c hab hbc
    simp only [decide_eq_true_eq] at hab hbc ⊢
    exact Text.le_trans hab hbc
  exact (pairwise_sortBy htotal htrans ids).imp fun h => by simpa using h

theorem first_of_head? (h : (candidates round).head? = some c) (hid : Eligible round id) (hne : id ≠ c) :
    Precedes c id := by
  obtain ⟨rest, hcandidates⟩ := List.head?_eq_some_iff.mp h
  have hsorted : (c :: rest).Pairwise (· ≤ ·) := hcandidates ▸ pairwise_sortIds _
  have hmem : id ∈ c :: rest := hcandidates ▸ mem_candidates.mpr hid
  have hle : c ≤ id := List.rel_of_pairwise_cons hsorted ((List.mem_cons.mp hmem).resolve_left hne)
  exact precedes_of_not_le fun hge => hne (Text.le_antisymm hge hle)

theorem choose?_of_eligible (h : Eligible round leader) : choose? round (some leader) = some leader := by
  have hmem : leader ∈ candidates round := mem_candidates.mpr h
  simp [choose?, Option.filter, hmem]

theorem choose?_of_not_eligible (h : ¬ Eligible round leader) :
    choose? round (some leader) = (candidates round).head? := by
  have hmem : leader ∉ candidates round := mt mem_candidates.mp h
  simp [choose?, Option.filter, hmem]

theorem chosen_of_choose? (h : choose? round (some leader) = some c) : Chosen round leader c := by
  by_cases hleader : Eligible round leader
  · rw [choose?_of_eligible hleader] at h
    cases h
    exact ⟨hleader, fun _ => rfl, fun hnot => (hnot hleader).elim⟩
  · rw [choose?_of_not_eligible hleader] at h
    refine ⟨mem_candidates.mp (List.mem_of_mem_head? h), fun heligible => (hleader heligible).elim, ?_⟩
    exact fun _ _ hid hne => first_of_head? h hid hne

theorem choose?_eq_none (h : ∀ id, ¬ Eligible round id) : choose? round (some leader) = none := by
  cases hchosen : choose? round (some leader) with
  | none => rfl
  | some c => exact (h c (chosen_of_choose? hchosen).eligible).elim

/-- What the policy asks for. -/
inductive Verdict (round : Roster Identity) (leader : MemberId) : Outcome → Prop
  | clash (clash : Clash round) : Verdict round leader .duplicateAddress
  | nobody (peace : ¬ Clash round) (none : ∀ id, ¬ Eligible round id) : Verdict round leader .noCandidate
  | chosen {c : MemberId} {i : Identity} (peace : ¬ Clash round) (chosen : Chosen round leader c)
    (found : round.get? c = some i) : Verdict round leader (.elected c i)

theorem Verdict.unique {o o' : Outcome} (h : Verdict round leader o) (h' : Verdict round leader o') :
    o = o' := by
  cases h with
  | clash hclash =>
    cases h' with
    | clash => rfl
    | nobody hpeace => exact (hpeace hclash).elim
    | chosen hpeace => exact (hpeace hclash).elim
  | nobody hpeace hnone =>
    cases h' with
    | clash hclash => exact (hpeace hclash).elim
    | nobody => rfl
    | chosen _ hchosen => exact (hnone _ hchosen.eligible).elim
  | chosen hpeace hchosen hfound =>
    cases h' with
    | clash hclash => exact (hpeace hclash).elim
    | nobody _ hnone => exact (hnone _ hchosen.eligible).elim
    | chosen _ hchosen' hfound' =>
      have hsame := hchosen.unique hchosen'
      subst hsame
      rw [hfound] at hfound'
      cases hfound'
      rfl

theorem elect_verdict (round : Roster Identity) (leader : MemberId) :
    Verdict round leader (elect round (some leader)) := by
  unfold elect
  by_cases hclash : Clash round
  · have hconflicts : conflicts round ≠ [] := fun h => conflicts_eq_nil_iff.mp h hclash
    simp only [List.isEmpty_eq_false_iff.mpr hconflicts, Bool.not_false, if_true]
    exact .clash hclash
  · rw [conflicts_eq_nil_iff.mpr hclash]
    by_cases heligible : ∃ id, Eligible round id
    · obtain ⟨id, hid⟩ := heligible
      obtain ⟨c, hc, _⟩ := exists_choose? (some leader) (List.ne_nil_of_mem (mem_candidates.mpr hid))
      have hchosen := chosen_of_choose? hc
      obtain ⟨i, hi, _⟩ := hchosen.eligible
      rw [hc, Option.bind_some, hi]
      exact .chosen hclash hchosen hi
    · have hnone := not_exists.mp heligible
      rw [choose?_eq_none hnone]
      exact .nobody hclash hnone

theorem elect_eq_iff {o : Outcome} : elect round (some leader) = o ↔ Verdict round leader o := by
  constructor
  · rintro rfl
    exact elect_verdict round leader
  · exact (elect_verdict round leader).unique

def Within (part round : Roster Identity) : Prop := ∀ id i, part.get? id = some i → round.get? id = some i

theorem Eligible.within (h : Eligible part id) (hpart : Within part round) : Eligible round id := by
  obtain ⟨i, hi, heligible⟩ := h
  exact ⟨i, hpart id i hi, heligible⟩

theorem Clash.within (h : Clash part) (hpart : Within part round) : Clash round := by
  obtain ⟨id, id', i, i', hne, hi, hi', haddress⟩ := h
  exact ⟨id, id', i, i', hne, hpart id i hi, hpart id' i' hi', haddress⟩

theorem within_of_subset (h : ∀ e ∈ part.entries, e ∈ round.entries) : Within part round := by
  intro id i hi
  rw [Roster.get?_eq_some_iff] at hi ⊢
  exact h _ hi

theorem within_erase (round : Roster Identity) (id : MemberId) : Within (round.erase id) round :=
  fun _ _ h => ((round.get?_erase _ _ _).mp h).2

theorem within_insert (h : id ∉ round.keys) (i : Identity) : Within round (round.insert id i) := by
  intro id' i' hi'
  have hne : id ≠ id' := by
    rintro rfl
    exact h (Roster.mem_keys_of_get? hi')
  rw [Roster.get?_insert, if_neg hne, hi']

theorem Verdict.within {o : Outcome} (h : Verdict part leader o) (hpart : Within part round)
    (hround : Within round part) : Verdict round leader o := by
  have hpeace : ¬ Clash part → ¬ Clash round := fun hpeace hclash => hpeace (hclash.within hround)
  cases h with
  | clash hclash => exact .clash (hclash.within hpart)
  | nobody hclash hnone => exact .nobody (hpeace hclash) fun id hid => hnone id (hid.within hround)
  | chosen hclash hchosen hfound =>
    refine .chosen (hpeace hclash) ⟨hchosen.eligible.within hpart, ?_, ?_⟩ (hpart _ _ hfound)
    · exact fun hleader => hchosen.preferred (hleader.within hround)
    · intro hleader id hid
      exact hchosen.first (fun h => hleader (h.within hpart)) id (hid.within hround)

/--
An election fails exactly when two members advertise one address, elects nobody exactly when nobody is
eligible otherwise, and else elects the leader, if that is eligible, or the first of the eligible members. The
one that is chosen is always found, and the order in which the members came does not matter.
-/
theorem elect_meets_policy (round : Roster Identity) (leader : MemberId) :
    (elect round (some leader) = .duplicateAddress ↔ Clash round) ∧
    (elect round (some leader) = .noCandidate ↔ ¬ Clash round ∧ ∀ id, ¬ Eligible round id) ∧
    (∀ c i, elect round (some leader) = .elected c i ↔
      ¬ Clash round ∧ Chosen round leader c ∧ round.get? c = some i) ∧
    (∀ c, choose? round (some leader) = some c → ∃ i, round.get? c = some i) ∧
    ∀ round' : Roster Identity, round'.entries.Perm round.entries →
      elect round' (some leader) = elect round (some leader) := by
  refine ⟨?_, ?_, ?_, ?_, ?_⟩
  · rw [elect_eq_iff]
    constructor
    · rintro ⟨hclash⟩
      exact hclash
    · exact .clash
  · rw [elect_eq_iff]
    constructor
    · rintro (_ | ⟨hpeace, hnone⟩)
      exact ⟨hpeace, hnone⟩
    · rintro ⟨hpeace, hnone⟩
      exact .nobody hpeace hnone
  · intro c i
    rw [elect_eq_iff]
    constructor
    · rintro (_ | _ | ⟨hpeace, hchosen, hfound⟩)
      exact ⟨hpeace, hchosen, hfound⟩
    · rintro ⟨hpeace, hchosen, hfound⟩
      exact .chosen hpeace hchosen hfound
  · intro c hc
    obtain ⟨i, hi, _⟩ := (chosen_of_choose? hc).eligible
    exact ⟨i, hi⟩
  · intro round' hperm
    apply elect_eq_iff.mpr
    apply (elect_verdict round leader).within
    · exact within_of_subset fun _ he => hperm.mem_iff.mpr he
    · exact within_of_subset fun _ he => hperm.mem_iff.mp he

theorem Chosen.within (h : Chosen round leader c) (hpart : Within part round) (hc : Eligible part c) :
    Chosen part leader c := by
  refine ⟨hc, fun hleader => h.preferred (hleader.within hpart), ?_⟩
  intro hleader id hid hne
  -- The leader may be missing from the part only if it was not eligible: else it was chosen and is there.
  apply h.first _ id (hid.within hpart) hne
  intro heligible
  rw [h.preferred heligible] at hc
  exact hleader hc

theorem chosen_self (h : Eligible round c) : Chosen round c c :=
  ⟨h, fun _ => rfl, fun hnot => (hnot h).elim⟩

/--
An elected primary stays the primary when other members leave, also if it leads the next round itself; and a
primary that leads the round stays the primary when others join whose addresses are new.
-/
theorem primary_stays (h : elect round (some leader) = .elected c i) :
    (∀ part, Within part round → c ∈ part.keys →
      elect part (some leader) = .elected c i ∧ elect part (some c) = .elected c i) ∧
    (c = leader → ∀ whole, Within round whole → ¬ Clash whole →
      elect whole (some leader) = .elected leader i) := by
  obtain _ | _ | ⟨hpeace, hchosen, hfound⟩ := elect_eq_iff.mp h
  obtain ⟨i', hi', heligible⟩ := hchosen.eligible
  rw [hfound] at hi'
  cases hi'
  constructor
  · intro part hpart hmem
    obtain ⟨j, hj⟩ := Option.isSome_iff_exists.mp ((part.contains_iff c).mpr hmem)
    have hsame := hpart c j hj
    rw [hfound] at hsame
    cases hsame
    have hc : Eligible part c := ⟨i, hj, heligible⟩
    have hpart' : ¬ Clash part := fun hclash => hpeace (hclash.within hpart)
    exact ⟨elect_eq_iff.mpr (.chosen hpart' (hchosen.within hpart hc) hj),
      elect_eq_iff.mpr (.chosen hpart' (chosen_self hc) hj)⟩
  · rintro rfl whole hwhole hclash
    have hc : Eligible whole c := hchosen.eligible.within hwhole
    exact elect_eq_iff.mpr (.chosen hclash (chosen_self hc) (hwhole c i hfound))

def crew : Roster Identity := .ofList [
  ("b", { host := "b", port := 8081, eligible := true }),
  ("a", { host := "a", port := 8081, eligible := true }),
  ("c", { host := "c", port := 8081, eligible := false })]

theorem primary_stays_crew :
    let i : Identity := { host := "b", port := 8081, eligible := true }
    let newcomer : Identity := { host := "A", port := 8081, eligible := true }
    elect crew (some "b") = .elected "b" i ∧
    elect (crew.erase "a") (some "b") = .elected "b" i ∧
    elect (crew.insert "A" newcomer) (some "b") = .elected "b" i := by
  intro i newcomer
  have helected : elect crew (some "b") = .elected "b" i := by decide +kernel
  obtain ⟨hleave, hjoin⟩ := primary_stays helected
  have hleft := hleave (crew.erase "a") (within_erase crew "a") (by decide +kernel)
  have hpeace : ¬ Clash (crew.insert "A" newcomer) := conflicts_eq_nil_iff.mp (by decide +kernel)
  exact ⟨helected, hleft.2, hjoin rfl _ (within_insert (by decide +kernel) newcomer) hpeace⟩

end PrimaryElection.Election
