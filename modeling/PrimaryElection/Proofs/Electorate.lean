import PrimaryElection.Proofs.Rosters
import PrimaryElection.Election

namespace PrimaryElection.Election

variable {round : Roster Identity} {leader : Option MemberId} {id id' : MemberId}

def claiming (members : List (MemberId × Identity)) (a : Address) : List MemberId :=
  (members.filter fun e => e.2.address = a).map Prod.fst

def advertised (members : List (MemberId × Identity)) : List Address :=
  (members.map fun e => e.2.address).eraseDups

def claimants (round : Roster Identity) (a : Address) : List MemberId :=
  sortIds (claiming round.entries a)

theorem claiming_concat (members : List (MemberId × Identity)) (e : MemberId × Identity) (a : Address) :
    claiming (members ++ [e]) a = claiming members a ++ if e.2.address = a then [e.1] else [] := by
  unfold claiming
  rw [List.filter_append, List.map_append]
  congr 1
  by_cases h : e.2.address = a <;> simp [h]

theorem mem_advertised {members : List (MemberId × Identity)} {a : Address} :
    a ∈ advertised members ↔ ∃ e ∈ members, e.2.address = a := by
  rw [advertised, List.mem_eraseDups, List.mem_map]

theorem claiming_eq_nil {members : List (MemberId × Identity)} {a : Address} (h : a ∉ advertised members) :
    claiming members a = [] := by
  rw [claiming, List.map_eq_nil_iff, List.filter_eq_nil_iff]
  intro e he
  simpa using fun ha => h (mem_advertised.mpr ⟨e, he, ha⟩)

theorem advertised_concat (members : List (MemberId × Identity)) (e : MemberId × Identity) :
    advertised (members ++ [e]) =
      if e.2.address ∈ advertised members then advertised members
      else advertised members ++ [e.2.address] := by
  simp only [advertised, List.map_append, List.eraseDups_append, List.mem_eraseDups]
  by_cases h : e.2.address ∈ members.map fun e => e.2.address
  · simp [h, List.removeAll]
  · simp [h, List.removeAll, List.eraseDups_cons]

theorem claim_map {addresses : List Address} (hnodup : addresses.Nodup) (group : Address → List MemberId)
    (a : Address) (id : MemberId) (hnew : a ∉ addresses → group a = []) :
    claim a id (addresses.map fun b => (b, group b)) =
      (if a ∈ addresses then addresses else addresses ++ [a]).map fun b =>
        (b, group b ++ if a = b then [id] else []) := by
  induction addresses with
  | nil => simp [claim, hnew]
  | cons first rest ih =>
    obtain ⟨hfirst, hrest⟩ := List.nodup_cons.mp hnodup
    by_cases h : first = a
    · subst h
      have hothers : ∀ b ∈ rest, ¬ first = b := fun b hb heq => hfirst (heq ▸ hb)
      simp +contextual [claim, hothers]
    · have h' : ¬ a = first := Ne.symm h
      have hmem : a ∈ first :: rest ↔ a ∈ rest := by simp [h']
      have hih := ih hrest fun ha => hnew (mt hmem.mp ha)
      rw [List.map_cons, claim, if_neg h, hih]
      by_cases ha : a ∈ rest <;> simp [ha, h']

theorem nodup_eraseDups {α : Type} [BEq α] [LawfulBEq α] (l : List α) : l.eraseDups.Nodup := by
  match l with
  | [] => exact List.nodup_nil
  | a :: rest =>
    rw [List.eraseDups_cons]
    refine List.nodup_cons.mpr ⟨?_, nodup_eraseDups _⟩
    rw [List.mem_eraseDups, List.mem_filter]
    simp
termination_by l.length
decreasing_by
  exact Nat.lt_succ_of_le (List.length_filter_le _ rest)

def groups (seen : List (MemberId × Identity)) : List (Address × List MemberId) :=
  (advertised seen).map fun a => (a, claiming seen a)

theorem claim_groups (seen : List (MemberId × Identity)) (e : MemberId × Identity) :
    claim e.2.address e.1 (groups seen) = groups (seen ++ [e]) := by
  have hnodup : (advertised seen).Nodup := nodup_eraseDups _
  rw [groups, claim_map hnodup _ _ _ claiming_eq_nil, groups, advertised_concat]
  simp only [claiming_concat]

theorem foldl_claim (rest seen : List (MemberId × Identity)) :
    rest.foldl (fun groups e => claim e.2.address e.1 groups) (groups seen) = groups (seen ++ rest) := by
  induction rest generalizing seen with
  | nil => rw [List.foldl_nil, List.append_nil]
  | cons e rest ih => rw [List.foldl_cons, claim_groups, ih, List.append_assoc, List.singleton_append]

theorem claims_eq (members : List (MemberId × Identity)) : claims members = groups members :=
  foldl_claim members []

theorem mem_sortIds {ids : List MemberId} : id ∈ sortIds ids ↔ id ∈ ids := mem_sortBy

theorem mem_names (round : Roster Identity) (p : Identity → Bool) (id : MemberId) :
    id ∈ (round.entries.filter fun e => p e.2).map Prod.fst ↔ ∃ i, round.get? id = some i ∧ p i = true := by
  simp only [List.mem_map, List.mem_filter, round.get?_eq_some_iff]
  constructor
  · rintro ⟨e, ⟨he, hp⟩, rfl⟩
    exact ⟨e.2, he, hp⟩
  · rintro ⟨i, hi, hp⟩
    exact ⟨(id, i), ⟨hi, hp⟩, rfl⟩

theorem mem_candidates :
    id ∈ candidates round ↔ ∃ i, round.get? id = some i ∧ i.eligible = true := by
  rw [candidates, mem_sortIds, mem_names round Identity.eligible]

theorem mem_claimants {a : Address} :
    id ∈ claimants round a ↔ ∃ i, round.get? id = some i ∧ i.address = a := by
  rw [claimants, claiming, mem_sortIds, mem_names round fun i => decide (i.address = a)]
  simp only [decide_eq_true_eq]

theorem length_claimants (round : Roster Identity) (a : Address) :
    (claimants round a).length = (claiming round.entries a).length := (perm_sortBy _ _).length_eq

theorem mem_conflicts {a : Address} {ids : List MemberId} :
    (a, ids) ∈ conflicts round ↔ ids = claimants round a ∧ 1 < ids.length := by
  simp only [conflicts, claims_eq, groups, List.mem_map, List.mem_filter, decide_eq_true_eq, Prod.mk.injEq]
  constructor
  · rintro ⟨_, ⟨⟨a, _, rfl⟩, hlength⟩, rfl, rfl⟩
    exact ⟨rfl, (length_claimants round a).symm ▸ hlength⟩
  · rintro ⟨rfl, hlength⟩
    rw [length_claimants] at hlength
    refine ⟨_, ⟨⟨a, ?_, rfl⟩, hlength⟩, rfl, rfl⟩
    apply Classical.byContradiction
    intro hnone
    rw [claiming_eq_nil hnone] at hlength
    exact Nat.not_lt_zero _ hlength

theorem nodup_claimants (round : Roster Identity) (a : Address) : (claimants round a).Nodup := by
  apply (perm_sortBy _ _).nodup_iff.mpr
  exact round.nodup.sublist (List.filter_sublist.map _)

theorem one_lt_length_iff {l : List MemberId} (hnodup : l.Nodup) :
    1 < l.length ↔ ∃ id id', id ≠ id' ∧ id ∈ l ∧ id' ∈ l := by
  constructor
  · intro hlength
    match l with
    | [] | [_] => simp at hlength
    | id :: id' :: rest => exact ⟨id, id', fun heq => by simp [heq] at hnodup, by simp, by simp⟩
  · rintro ⟨id, id', hne, hid, hid'⟩
    apply Classical.byContradiction
    intro hshort
    obtain ⟨only, rfl⟩ := List.length_eq_one_iff.mp
      (Nat.le_antisymm (Nat.not_lt.mp hshort) (List.length_pos_of_mem hid))
    exact hne ((List.mem_singleton.mp hid).trans (List.mem_singleton.mp hid').symm)

theorem conflicts_eq_nil (h : ∀ id i id' i', round.get? id = some i → round.get? id' = some i' →
    i.address = i'.address → id = id') : conflicts round = [] := by
  rw [List.eq_nil_iff_forall_not_mem]
  rintro ⟨a, ids⟩ hc
  obtain ⟨rfl, hlength⟩ := mem_conflicts.mp hc
  obtain ⟨id, id', hne, hid, hid'⟩ := (one_lt_length_iff (nodup_claimants round a)).mp hlength
  obtain ⟨i, hi, ha⟩ := mem_claimants.mp hid
  obtain ⟨i', hi', ha'⟩ := mem_claimants.mp hid'
  exact hne (h id i id' i' hi hi' (ha.trans ha'.symm))

theorem exists_choose? (leader : Option MemberId) (h : candidates round ≠ []) :
    ∃ id, choose? round leader = some id ∧ id ∈ candidates round := by
  obtain ⟨first, rest, hcandidates⟩ := List.exists_cons_of_ne_nil h
  have hfirst : first ∈ candidates round := by rw [hcandidates]; exact List.mem_cons_self
  unfold choose?
  cases hleader : leader.filter (· ∈ candidates round) with
  | none => exact ⟨first, by rw [hcandidates]; rfl, hfirst⟩
  | some l =>
    have hl := (Option.filter_eq_some_iff.mp hleader).2
    exact ⟨l, rfl, by simpa using hl⟩

theorem exists_elected {i : Identity} (hconflicts : conflicts round = []) (hid : round.get? id = some i)
    (heligible : i.eligible = true) : ∃ c i', elect round leader = .elected c i' := by
  have hcandidate : id ∈ candidates round := mem_candidates.mpr ⟨i, hid, heligible⟩
  obtain ⟨c, hchosen, hc⟩ := exists_choose? leader (List.ne_nil_of_mem hcandidate)
  obtain ⟨i', hi', _⟩ := mem_candidates.mp hc
  refine ⟨c, i', ?_⟩
  unfold elect
  rw [hconflicts, hchosen, Option.bind_some, hi']
  rfl

end PrimaryElection.Election
