import PrimaryElection.Proofs.Electorate
import PrimaryElection.Proofs.Rounds

namespace PrimaryElection

namespace Group

variable {ι : Type} [DecidableEq ι]

def World.Configured (w : World ι) (id : MemberId) (i : Identity) : Prop :=
  ∃ m, w.group.members.get? id = some m ∧ (w.nodes m.node).node.config.identity = .ok i

section electorate

omit [DecidableEq ι]

variable {w : World ι}

theorem get?_submissions (w : World ι) (id : MemberId) (p : Payload) :
    w.submissions.get? id = some p ↔
      ∃ m, w.group.members.get? id = some m ∧ (w.submission (id, m)).2 = p := by
  simp only [Roster.get?_eq_some_iff, entries_submissions, List.mem_map]
  constructor
  · rintro ⟨e, he, heq⟩
    have hid : e.1 = id := congrArg Prod.fst heq
    subst hid
    exact ⟨e.2, he, congrArg Prod.snd heq⟩
  · rintro ⟨m, hm, rfl⟩
    exact ⟨_, hm, rfl⟩

theorem get?_readable_submissions (hfit : Fit w) (hunaltered : w.Unaltered) (id : MemberId)
    (i : Identity) : (Node.readable w.submissions).get? id = some i ↔ w.Configured id i := by
  have hread : ∀ m, w.group.members.get? id = some m →
      (Identity.decode (w.submission (id, m)).2 = .ok i ↔
        (w.nodes m.node).node.config.identity = .ok i) := by
    intro m hm
    have hmem := (w.group.members.get?_eq_some_iff id m).mp hm
    have hnone := (hunaltered id (Roster.mem_keys_of_get? hm)).1
    obtain ⟨i', hidentity, hdecode⟩ := Session.decode_submitted (hfit.writable_of_mem hmem)
    rw [World.submission, hnone, Option.getD_none, hdecode, hidentity, Except.ok.injEq, Except.ok.injEq]
  simp only [Node.get?_readable, get?_submissions]
  constructor
  · rintro ⟨p, ⟨m, hm, rfl⟩, hdecode⟩
    exact ⟨m, hm, (hread m hm).mp hdecode⟩
  · rintro ⟨m, hm, hidentity⟩
    exact ⟨_, ⟨m, hm, rfl⟩, (hread m hm).mpr hidentity⟩

theorem exists_elected (hfit : Fit w) (hunaltered : w.Unaltered)
    (hdistinct : ∀ id i id' i', w.Configured id i → w.Configured id' i' → i.address = i'.address →
      id = id')
    (heligible : ∃ id i, w.Configured id i ∧ i.eligible = true) (l : MemberId) :
    ∃ c i, w.outcome l = .elected c i ∧ c ∈ w.group.members.keys := by
  obtain ⟨id, i, hconfigured, heligible⟩ := heligible
  simp only [← get?_readable_submissions hfit hunaltered] at hdistinct hconfigured
  obtain ⟨c, i', helected⟩ :=
    Election.exists_elected (Election.conflicts_eq_nil hdistinct) hconfigured heligible
  refine ⟨c, i', helected, ?_⟩
  have hget := (get?_readable_submissions hfit hunaltered c i').mp (Election.get?_of_elected helected)
  obtain ⟨m, hm, _⟩ := hget
  exact Roster.mem_keys_of_get? hm

end electorate

omit [DecidableEq ι] in
theorem leaderOf_text {g : Group ι} {l : MemberId} (hl : l ∈ g.members.keys) (hnamed : l ≠ "") :
    ∃ m, leaderOf g (.text l) = .ok (l, m) := by
  obtain ⟨m, hm⟩ := Option.isSome_iff_exists.mp ((g.members.contains_iff l).mpr hl)
  have hmem := (g.members.get?_eq_some_iff l m).mp hm
  refine ⟨m, ?_⟩
  unfold leaderOf
  split
  · rename_i hnil
    rw [hnil] at hmem
    cases hmem
  · simp [Value.isBlank, Value.key?, Value.text?, hnamed, hm]

/--
A round under a member as its leader reaches every member. Where no address is configured twice and
somebody may be elected, exactly one of the members ends as primary.
-/
theorem Course.round_delivered {groupId : Value} {nodes : ι → Session} {w : World ι}
    (hnew : ∀ i, ∃ config, nodes i = .start config {})
    (h : Course Operation.Driven ⟨{ groupId := groupId }, nodes, []⟩ w) (hfit : Fit w) {l : MemberId}
    (hl : l ∈ w.group.members.keys) (hnamed : l ≠ "") :
    ∃ round w', rebalance (.text l) false w = .ok round w' ∧ round.epoch = w.group.epoch + 1 ∧
      w'.group.epoch = round.epoch ∧ round.leader = l ∧ round.delivered = true ∧
      (∀ id m, w.group.members.get? id = some m →
        let before := (w.nodes m.node).node
        let after := (w'.nodes m.node).node
        (w.group.assignmentOverrides.get? id = none → after.Holds ⟨round.epoch, id, w.outcome l⟩) ∧
        (∀ p o, w.group.assignmentOverrides.get? id = some p → Outcome.decode p = .ok o →
          after.Holds ⟨round.epoch, id, o⟩) ∧
        (∀ p e, w.group.assignmentOverrides.get? id = some p → Outcome.decode p = .error e →
          before.Waits after) ∧
        told m.node w'.trace = told m.node w.trace ++ (if before.phase = .active then [.revoked] else []) ++
          ((w.received (w.outcome l) id).map fun o => Notice.assigned o round.epoch).toList) ∧
      (∀ i, i ∉ w.group.members.values.map Handler.node → w'.view i = w.view i) ∧
      (w.Unaltered → (∀ id i id' i', w.Configured id i → w.Configured id' i' → i.address = i'.address →
        id = id') → (∃ id i, w.Configured id i ∧ i.eligible = true) →
        ∃ c ∈ w.group.members.keys, (w.outcome l).primaryId? = some c ∧
          ∀ id m, w.group.members.get? id = some m →
            (w'.nodes m.node).node.isPrimary = some (decide (id = c))) := by
  obtain ⟨chosen, hleader⟩ := leaderOf_text hl hnamed
  obtain ⟨round, w', hrun, hround⟩ := gives_rebalance (h.atRest hnew) hfit hleader
  have hlater : ∀ i, (w.nodes i).node.epoch < round.epoch := by
    intro i
    have hle : (w.nodes i).node.epoch ≤ w.group.epoch := h.epoch_view_le hnew i
    rw [hround.epoch]
    omega
  have hmem : ∀ id m, w.group.members.get? id = some m → (id, m) ∈ w.group.members.entries :=
    fun id m => (w.group.members.get?_eq_some_iff id m).mp
  have hkept : ∀ id m, w.group.members.get? id = some m → w.group.assignmentOverrides.get? id = none →
      (w'.nodes m.node).node.Holds ⟨round.epoch, id, w.outcome l⟩ := by
    intro id m hm hnone
    exact hround.holds (hmem id m hm) (World.received_of_none hnone) (hlater _)
  refine ⟨round, w', hrun, hround.epoch, by rw [hround.group], hround.leader, hround.delivered, ?_,
    hround.others, ?_⟩
  · intro id m hm
    refine ⟨hkept id m hm, ?_, ?_, hround.told (hmem id m hm) (hlater _)⟩
    · intro p o hp ho
      exact hround.holds (hmem id m hm) (by rw [World.received_of_some hp, ho]; rfl) (hlater _)
    · intro p e hp he
      exact hround.waits_unread (hmem id m hm) (by rw [World.received_of_some hp, he]; rfl)
  · intro hunaltered hdistinct heligible
    obtain ⟨c, i, helected, hc⟩ := exists_elected hfit hunaltered hdistinct heligible l
    refine ⟨c, hc, by rw [helected]; rfl, ?_⟩
    intro id m hm
    have hnone := (hunaltered id (Roster.mem_keys_of_get? hm)).2
    obtain ⟨hactive, haccepted, _⟩ := hkept id m hm hnone
    rw [Node.isPrimary_of_accepted hactive haccepted, helected]
    simp [Outcome.primaryId?, Outcome.primary?, eq_comm]

def disturbedTrio : World (Fin 3) :=
  [.overrideMetadata "a" (.foreign .null), .overrideAssignment "b" (.bytes [0, 0]),
    .overrideAssignment "c" (.bytes [0, 0, 0, 0, 0, 0])].foldl (fun w op => left (operate op) w) joinedTrio

theorem course_joinedTrio : Course Operation.Driven trio joinedTrio :=
  Course.begin.operateAll (by simp [Operation.Driven])

theorem course_disturbedTrio : Course Operation.Driven trio disturbedTrio :=
  course_joinedTrio.operateAll (by simp [Operation.Driven])

theorem distinct_joinedTrio (id : MemberId) (i : Identity) (id' : MemberId) (i' : Identity)
    (h : joinedTrio.Configured id i) (h' : joinedTrio.Configured id' i') (heq : i.address = i'.address) :
    id = id' := by
  have haddresses : ∀ e ∈ joinedTrio.group.members.entries, ∀ e' ∈ joinedTrio.group.members.entries,
      ((joinedTrio.nodes e.2.node).node.config.identity.toOption.map Identity.address) =
        ((joinedTrio.nodes e'.2.node).node.config.identity.toOption.map Identity.address) →
      e.1 = e'.1 := by decide +kernel
  obtain ⟨m, hm, hidentity⟩ := h
  obtain ⟨m', hm', hidentity'⟩ := h'
  apply haddresses _ ((Roster.get?_eq_some_iff _ id m).mp hm) _ ((Roster.get?_eq_some_iff _ id' m').mp hm')
  simp only [hidentity, hidentity', Except.toOption, Option.map_some, heq]

theorem eligible_joinedTrio : ∃ id i, joinedTrio.Configured id i ∧ i.eligible = true := by
  have hsome : ∃ e ∈ joinedTrio.group.members.entries,
      (joinedTrio.nodes e.2.node).node.config.identity.toOption.map Identity.eligible = some true := by
    decide +kernel
  obtain ⟨e, he, heligible⟩ := hsome
  have hm := (Roster.get?_eq_some_iff _ e.1 e.2).mpr he
  cases hidentity : (joinedTrio.nodes e.2.node).node.config.identity with
  | error violations =>
    rw [hidentity] at heligible
    cases heligible
  | ok i =>
    rw [hidentity] at heligible
    exact ⟨e.1, i, ⟨e.2, hm, hidentity⟩, Option.some.inj heligible⟩

theorem Course.round_delivered_trio :
    disturbedTrio.group.assignmentOverrides.entries.map (fun e => (e.1, (Outcome.decode e.2).toOption)) =
      ([("b", none), ("c", some .noCandidate)] : List (MemberId × Option Outcome)) ∧
    (∃ round w', rebalance (.text "a") false disturbedTrio = .ok round w' ∧ round.epoch = 3 ∧
      ∀ id m, disturbedTrio.group.members.get? id = some m →
        (disturbedTrio.group.assignmentOverrides.get? id = none →
          (w'.nodes m.node).node.Holds ⟨round.epoch, id, disturbedTrio.outcome "a"⟩) ∧
        (∀ p o, disturbedTrio.group.assignmentOverrides.get? id = some p → Outcome.decode p = .ok o →
          (w'.nodes m.node).node.Holds ⟨round.epoch, id, o⟩) ∧
        ∀ p e, disturbedTrio.group.assignmentOverrides.get? id = some p → Outcome.decode p = .error e →
          (disturbedTrio.nodes m.node).node.Waits (w'.nodes m.node).node) ∧
    ∃ round w', rebalance (.text "a") false joinedTrio = .ok round w' ∧
      ∃ c ∈ joinedTrio.group.members.keys, (joinedTrio.outcome "a").primaryId? = some c ∧
        ∀ id m, joinedTrio.group.members.get? id = some m →
          (w'.nodes m.node).node.isPrimary = some (decide (id = c)) := by
  have hnew : ∀ i, ∃ config, trio.nodes i = .start config {} := fun _ => ⟨_, rfl⟩
  refine ⟨by decide +kernel, ?_, ?_⟩
  · have hfit : Fit disturbedTrio := by decide +kernel
    have hl : ("a" : MemberId) ∈ disturbedTrio.group.members.keys := by decide +kernel
    have hepoch : disturbedTrio.group.epoch + 1 = 3 := by decide +kernel
    obtain ⟨round, w', hrun, hround, _, _, _, hmembers, _⟩ :=
      course_disturbedTrio.round_delivered hnew hfit hl (by decide)
    refine ⟨round, w', hrun, hround.trans hepoch, ?_⟩
    intro id m hm
    obtain ⟨hkept, hread, hunread, _⟩ := hmembers id m hm
    exact ⟨hkept, hread, hunread⟩
  · have hfit : Fit joinedTrio := by decide +kernel
    have hl : ("a" : MemberId) ∈ joinedTrio.group.members.keys := by decide +kernel
    obtain ⟨round, w', hrun, _, _, _, _, _, _, hprimary⟩ :=
      course_joinedTrio.round_delivered hnew hfit hl (by decide)
    have hunaltered : ∀ id ∈ joinedTrio.group.members.keys,
        joinedTrio.group.metadataOverrides.get? id = none ∧
          joinedTrio.group.assignmentOverrides.get? id = none := by decide +kernel
    exact ⟨round, w', hrun, hprimary hunaltered distinct_joinedTrio eligible_joinedTrio⟩

end Group

end PrimaryElection
