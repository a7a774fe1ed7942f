import PrimaryElection.Proofs.Listening

namespace PrimaryElection

def epochs (told : List Notice) : List Int :=
  told.filterMap fun
    | .assigned _ epoch => some epoch
    | .revoked => none

theorem epochs_append (l l' : List Notice) : epochs (l ++ l') = epochs l ++ epochs l' :=
  List.filterMap_append

namespace Node

/-- An active node owes its listener a revocation, and the last epoch that was told is its own. -/
structure InTurn (n : Node) (told : List Notice) : Prop where
  rests : n.phase.Rests
  start : noEpoch ≤ n.epoch
  active : n.phase = .active ↔ told.length % 2 = 1
  turns : ∀ i notice, told[i]? = some notice → (notice.kind = .assigned ↔ i % 2 = 0)
  bounds : ∀ e ∈ epochs told, 0 ≤ e ∧ e ≤ n.epoch
  increasing : (epochs told).Pairwise (· < ·)

theorem inTurn_start (config : Config) (script : Script) :
    (Session.start config script).node.InTurn [] where
  rests := .inl rfl
  start := Int.le_refl _
  active := iff_of_false (by simp [Session.start]) (by decide)
  turns := by
    intro i notice h
    cases h
  bounds := by
    intro e h
    cases h
  increasing := .nil

namespace InTurn

theorem turns_append {told : List Notice} {notice : Notice}
    (h : ∀ i n, told[i]? = some n → (n.kind = .assigned ↔ i % 2 = 0))
    (hnotice : notice.kind = .assigned ↔ told.length % 2 = 0) :
    ∀ i n, (told ++ [notice])[i]? = some n → (n.kind = .assigned ↔ i % 2 = 0) := by
  intro i n hn
  by_cases hi : i < told.length
  · rw [List.getElem?_append_left hi] at hn
    exact h i n hn
  · rw [List.getElem?_append_right (Nat.not_lt.mp hi)] at hn
    have hlast : i - told.length = 0 := by
      obtain ⟨hlt, _⟩ := List.getElem?_eq_some_iff.mp hn
      simpa using hlt
    rw [hlast] at hn
    have hn : notice = n := Option.some.inj hn
    have hi : i = told.length := by omega
    rw [← hn, hi]
    exact hnotice

theorem assigned {n n' : Node} {told : List Notice} {a : Acceptance} (h : n.InTurn told)
    (hfree : n.phase ≠ .active) (hlater : n.epoch < a.epoch) (hactive : n'.phase = .active)
    (haccepted : n'.accepted = some a) : n'.InTurn (told ++ [.assigned a.outcome a.epoch]) := by
  have hepoch : n'.epoch = a.epoch := by
    rw [epoch, haccepted]
    rfl
  have hparity : told.length % 2 = 0 := by
    have hodd := mt h.active.mpr hfree
    omega
  have hstart := h.start
  unfold noEpoch at hstart
  refine ⟨.inr (.inr hactive), ?_, ?_, turns_append h.turns ?_, ?_, ?_⟩
  · unfold noEpoch
    omega
  · rw [List.length_append, List.length_singleton]
    exact ⟨fun _ => by omega, fun _ => hactive⟩
  · exact ⟨fun _ => hparity, fun _ => rfl⟩
  · intro e he
    rw [epochs_append, List.mem_append] at he
    rcases he with he | he
    · have hbounds := h.bounds e he
      omega
    · have he : e = a.epoch := List.mem_singleton.mp he
      omega
  · rw [epochs_append]
    refine List.pairwise_append.mpr ⟨h.increasing, List.pairwise_singleton _ _, ?_⟩
    intro e he e' he'
    have he' : e' = a.epoch := List.mem_singleton.mp he'
    have hbounds := h.bounds e he
    omega

theorem revoked {n n' : Node} {told : List Notice} (h : n.InTurn told) (hactive : n.phase = .active)
    (hjoining : n'.phase = .joining) (haccepted : n'.accepted = n.accepted) :
    n'.InTurn (told ++ [.revoked]) := by
  have hepoch : n'.epoch = n.epoch := by rw [epoch, haccepted, epoch]
  have hparity := h.active.mp hactive
  have hepochs : epochs (told ++ [.revoked]) = epochs told := by
    rw [epochs_append]
    exact List.append_nil _
  refine ⟨.inl hjoining, by rw [hepoch]; exact h.start, ?_, turns_append h.turns ?_, ?_, ?_⟩
  · rw [List.length_append, List.length_singleton, hjoining]
    exact iff_of_false (by decide) (by omega)
  · exact iff_of_false (by decide) (by omega)
  · rw [hepochs, hepoch]
    exact h.bounds
  · rw [hepochs]
    exact h.increasing

theorem step {may : Acceptance → Prop} {n n' : Node} {told given : List Notice} (h : n.InTurn told)
    (heffect : Effect may n n' given) : n'.InTurn (told ++ given) := by
  cases heffect with
  | silent haccepted hrests hactive _ =>
    have hepoch : n'.epoch = n.epoch := by rw [epoch, haccepted, epoch]
    rw [List.append_nil]
    refine ⟨hrests, by rw [hepoch]; exact h.start, hactive.trans h.active, h.turns, ?_, h.increasing⟩
    rw [hepoch]
    exact h.bounds
  | assigned a _ hfree hlater hactive haccepted => exact h.assigned hfree hlater hactive haccepted
  | revoked hactive hjoining haccepted _ => exact h.revoked hactive hjoining haccepted

end InTurn

end Node

namespace Session

theorem runAs_effect {s : Session} {l : Conduct} (c : Call) (hl : l.Only Patient)
    (hrests : s.node.phase.Rests) :
    ∃ given, Effect (c.Offers s.broadcast) s.node
        (s.runAs l fun tell => perform tell c).session.node given ∧
      notices (s.runAs l fun tell => perform tell c).events = given := by
  have heffective : After (perform l.tell c) ⟨s, []⟩ fun _ r' =>
      Effective (fun _ => True) (c.Offers s.broadcast) ⟨s, []⟩ r' :=
    after_perform_effective (Conduct.heeds hl) trivial hrests
  obtain ⟨_, given, heffect, hnotices⟩ :=
    runAs_of_after (fun tell => perform tell c) heffective
  exact ⟨given, heffect, hnotices⟩

theorem Course.inTurn {config : Config} {script : Script} {s : Session} {events : List Event}
    (h : Course Patient (.start config script) s events) : s.node.InTurn (notices events) := by
  induction h with
  | begin => exact Node.inTurn_start config script
  | call l c _ hl ih =>
    obtain ⟨given, heffect, hnotices⟩ := runAs_effect c hl ih.rests
    rw [notices_append, hnotices]
    exact ih.step heffect

/-- The listener of a node is told by turns, of an assignment first and under ever later epochs. -/
theorem Course.told_by_turns {config : Config} {script : Script} {s : Session} {events : List Event}
    (h : Course Patient (.start config script) s events) :
    (∀ i notice, (notices events)[i]? = some notice → (notice.kind = .assigned ↔ i % 2 = 0)) ∧
      (epochs (notices events)).Pairwise (· < ·) ∧ ∀ e ∈ epochs (notices events), 0 ≤ e :=
  ⟨h.inTurn.turns, h.inTurn.increasing, fun e he => (h.inTurn.bounds e he).1⟩

def restless : Conduct :=
  .answers (fun _ r => r.listener)
    (fun _ _ => [.call .revoke true, .call (.complete 9 "other" (.outcome .noCandidate)) true,
      .raise "no"]) fun _ _ => .silent

theorem restless_only : restless.Only Patient := by
  intro notice r
  refine ⟨?_, trivial⟩
  intro c caught hmem _
  simp only [List.mem_cons, List.not_mem_nil, reduceCtorEq, or_false, Action.call.injEq] at hmem
  rcases hmem with ⟨rfl, _⟩ | ⟨rfl, _⟩ <;> rfl

theorem Course.told_by_turns_restless :
    ∃ s events, Course Patient (.start default {}) s events ∧
      notices events = [.assigned .noCandidate 0, .revoked, .assigned .noCandidate 5] ∧
      (∀ i notice, (notices events)[i]? = some notice → (notice.kind = .assigned ↔ i % 2 = 0)) ∧
      (epochs (notices events)).Pairwise (· < ·) ∧ ∀ e ∈ epochs (notices events), 0 ≤ e := by
  have hbegin : Course Patient (.start default {}) (.start default {}) [] := .begin
  have hfirst := hbegin.call restless (.complete 0 "me" (.outcome .noCandidate)) restless_only
  have hrevoked := hfirst.call restless .revoke restless_only
  have hstale := hrevoked.call restless (.complete 0 "me" (.outcome .noCandidate)) restless_only
  have hcourse := hstale.call restless (.complete 5 "me" (.outcome .noCandidate)) restless_only
  refine ⟨_, _, hcourse, ?_, hcourse.told_by_turns⟩
  decide +kernel

end Session

end PrimaryElection
