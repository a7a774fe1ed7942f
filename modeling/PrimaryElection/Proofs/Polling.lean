import PrimaryElection.Proofs.Rounds

namespace PrimaryElection

structure Node.CatchesUp (n n' : Node) (a : Acceptance) : Prop where
  earlier : n.epoch < a.epoch → n'.Holds a
  later : a.epoch ≤ n.epoch → n.Waits n'

theorem View.completed_config (epoch : Int) (memberId : MemberId) (taken : Option Outcome) (v : View) :
    (v.completed epoch memberId taken).config = v.config := by
  cases taken with
  | none => rfl
  | some o =>
    unfold View.completed
    dsimp only
    split <;> rfl

namespace Group

variable {ι : Type} [DecidableEq ι]

def Wanted (w : World ι) : Prop := ∃ m ∈ w.group.members.values, (w.nodes m.node).node.rejoinNeeded = true

def polled : Nat → World ι → World ι
  | 0, w => w
  | n + 1, w => polled n (left poll w)

structure Pollable (w : World ι) (l : MemberId) : Prop where
  rest : AtRest w
  fit : Fit w
  unaltered : w.Unaltered
  first : w.group.members.keys.head? = some l

omit [DecidableEq ι] in
theorem leaderOf_null {g : Group ι} {l : MemberId} (h : g.members.keys.head? = some l) :
    ∃ m, leaderOf g .null = .ok (l, m) := by
  unfold leaderOf
  split
  · rename_i hnil
    rw [Roster.keys, hnil] at h
    cases h
  · rename_i first rest hentries
    rw [Roster.keys, hentries] at h
    cases h
    exact ⟨first.2, rfl⟩

namespace Rounded

variable {w w' : World ι} {l : MemberId} {round : Round}

theorem view_cases (h : Rounded w l round w') (i : ι) : w'.view i = w.view i ∨
    ∃ epoch id taken, w'.view i = (w.view i).revoked.completed epoch id taken := by
  by_cases hi : i ∈ w.group.members.values.map Handler.node
  · obtain ⟨m, hm, rfl⟩ := List.mem_map.mp hi
    obtain ⟨e, he, rfl⟩ := List.mem_map.mp hm
    exact .inr ⟨_, _, _, h.view e he⟩
  · exact .inl (h.others i hi)

theorem config (h : Rounded w l round w') (i : ι) :
    (w'.nodes i).node.config = (w.nodes i).node.config := by
  rcases h.view_cases i with hsame | ⟨epoch, id, taken, hview⟩
  · exact congrArg View.config hsame
  · exact (congrArg View.config hview).trans (View.completed_config _ _ _ _)

theorem atRest (h : Rounded w l round w') (hrest : AtRest w) : AtRest w' := by
  intro i
  rcases h.view_cases i with hsame | ⟨epoch, id, taken, hview⟩
  · rw [hsame]
    exact hrest i
  · rw [hview]
    exact (hrest i).revoked.completed epoch id taken

theorem pollable (h : Rounded w l round w') (hw : Pollable w l) : Pollable w' l := by
  refine ⟨h.atRest hw.rest, ⟨?_, ?_, ?_, ?_⟩, ?_, ?_⟩
  · rw [h.group]
    exact hw.fit.once
  · rw [h.group]
    exact hw.fit.whole
  · rw [h.group]
    exact hw.fit.named
  · rw [h.group]
    intro m hm
    rw [h.config]
    exact hw.fit.writable m hm
  · unfold World.Unaltered
    rw [h.group]
    exact hw.unaltered
  · rw [h.group]
    exact hw.first

theorem outcome (h : Rounded w l round w') (hfit : Fit w) (leader : MemberId) :
    w'.outcome leader = w.outcome leader := by
  have hsubmissions : w'.submissions = w.submissions := by
    have hsame : w.group.members.entries.map w'.submission =
        w.group.members.entries.map w.submission := by
      apply List.map_congr_left
      intro e he
      exact submission_congr (hfit.writable_of_mem he) (by rw [h.group]) (h.config _)
    rw [World.submissions, h.group, hsame, World.submissions]
  rw [World.outcome, hsubmissions, World.outcome]

theorem catchesUp (h : Rounded w l round w') (hunaltered : w.Unaltered) {id : MemberId}
    {m : Handler ι} (hm : w.group.members.get? id = some m) :
    (w.nodes m.node).node.CatchesUp (w'.nodes m.node).node ⟨round.epoch, id, w.outcome l⟩ := by
  have hmem := (w.group.members.get?_eq_some_iff id m).mp hm
  have hnone := (hunaltered id (Roster.mem_keys_of_get? hm)).2
  exact ⟨h.holds hmem (World.received_of_none hnone), h.waits_stale hmem⟩

end Rounded

section poll

variable {w : World ι} {l : MemberId}

omit [DecidableEq ι] in
theorem wanted_iff : Wanted w ↔
    w.group.members.values.any (fun m => (w.nodes m.node).node.rejoinNeeded) = true :=
  List.any_eq_true.symm

theorem poll_eq (w : World ι) : poll w =
    (if w.group.members.values.any (fun m => (w.nodes m.node).node.rejoinNeeded) = true then do
      return some (← rebalance .null false)
    else return none : GroupM ι (Option Round)) w := rfl

theorem poll_idle (h : ¬ Wanted w) : poll w = .ok none w := by
  rw [poll_eq, if_neg (mt wanted_iff.mpr h)]
  rfl

theorem gives_poll (hw : Pollable w l) (h : Wanted w) :
    ∃ round w', poll w = .ok (some round) w' ∧ Rounded w l round w' := by
  obtain ⟨chosen, hleader⟩ := leaderOf_null hw.first
  obtain ⟨round, w', hrun, hround⟩ := gives_rebalance hw.rest hw.fit hleader
  refine ⟨round, w', ?_, hround⟩
  rw [poll_eq, if_pos (wanted_iff.mp h)]
  simp only [bind, EStateM.bind, hrun]
  rfl

theorem active_of_not_wanted (hrest : AtRest w) (h : ¬ Wanted w) :
    ∀ m ∈ w.group.members.values, (w.nodes m.node).node.phase = .active := by
  intro m hm
  by_cases hactive : (w.nodes m.node).node.phase = .active
  · exact hactive
  · exact (h ⟨m, hm, (hrest m.node).rejoin hactive⟩).elim

end poll

structure CaughtUp (w : World ι) (l : MemberId) (n : Nat) : Prop where
  rounds : ∀ k, k < n → ∃ round, poll (polled k w) = .ok (some round) (polled (k + 1) w) ∧
    round.epoch = w.group.epoch + k + 1 ∧ ∀ id m, w.group.members.get? id = some m →
      ((polled k w).nodes m.node).node.CatchesUp ((polled (k + 1) w).nodes m.node).node
        ⟨round.epoch, id, w.outcome l⟩
  holds : ∀ id m, w.group.members.get? id = some m →
    ((polled n w).nodes m.node).node.Holds ⟨w.group.epoch + n, id, w.outcome l⟩
  idle : poll (polled n w) = .ok none (polled n w)

section catchUp

variable {w w' : World ι} {l : MemberId} {round : Round} {n : Nat} {K : Int}

theorem caughtUp_zero (h : ∀ id m, w.group.members.get? id = some m →
    (w.nodes m.node).node.Holds ⟨w.group.epoch, id, w.outcome l⟩) : CaughtUp w l 0 := by
  refine ⟨?_, ?_, ?_⟩
  · intro k hk
    cases hk
  · intro id m hm
    simpa [polled] using h id m hm
  · rw [polled]
    apply poll_idle
    rintro ⟨m, hm, hrejoin⟩
    obtain ⟨id, hid⟩ := Roster.mem_values_iff.mp hm
    rw [(h id m hid).settled] at hrejoin
    cases hrejoin

theorem CaughtUp.of_round (hw : Pollable w l) (hrun : poll w = .ok (some round) w')
    (hround : Rounded w l round w') (h : CaughtUp w' l n) : CaughtUp w l (n + 1) := by
  have hfirst : ∀ k, polled (k + 1) w = polled k w' := by
    intro k
    rw [polled, left, hrun]
  have hmembers : w'.group.members = w.group.members := by rw [hround.group]
  have hepoch : w'.group.epoch = w.group.epoch + 1 := by rw [hround.group, hround.epoch]
  have houtcome := hround.outcome hw.fit l
  refine ⟨?_, ?_, ?_⟩
  · intro k hk
    cases k with
    | zero =>
      refine ⟨round, ?_, ?_, fun id m hm => ?_⟩
      · rw [hfirst]
        exact hrun
      · rw [hround.epoch]
        simp
      · rw [hfirst]
        exact hround.catchesUp hw.unaltered hm
    | succ k =>
      obtain ⟨later, hlater, hlaterEpoch, hcatch⟩ := h.rounds k (Nat.lt_of_succ_lt_succ hk)
      rw [hfirst, hfirst]
      refine ⟨later, hlater, ?_, ?_⟩
      · rw [hlaterEpoch, hepoch]
        omega
      · rw [← houtcome, ← hmembers]
        exact hcatch
  · intro id m hm
    rw [hfirst, ← houtcome]
    have hepochs : w.group.epoch + (n + 1 : Nat) = w'.group.epoch + n := by omega
    rw [hepochs]
    rw [← hmembers] at hm
    exact h.holds id m hm
  · rw [hfirst]
    exact h.idle

theorem caughtUp_of_gap (hw : Pollable w l) (hwanted : Wanted w)
    (hlast : ∃ m ∈ w.group.members.values, (w.nodes m.node).node.epoch = K)
    (hbound : ∀ m ∈ w.group.members.values, (w.nodes m.node).node.epoch ≤ K)
    (hgap : (K - w.group.epoch).toNat = n) : CaughtUp w l (n + 1) := by
  -- The induction is on how far the group is behind the last round that a member accepted.
  induction n generalizing w with
  | zero =>
    obtain ⟨round, w', hrun, hround⟩ := gives_poll hw hwanted
    apply CaughtUp.of_round hw hrun hround
    apply caughtUp_zero
    intro id m hm
    rw [hround.group] at hm
    have hle := hbound m (Roster.mem_values_iff.mpr ⟨id, hm⟩)
    have hlater : (w.nodes m.node).node.epoch < round.epoch := by
      rw [hround.epoch]
      omega
    rw [hround.outcome hw.fit, hround.group]
    exact (hround.catchesUp hw.unaltered hm).earlier hlater
  | succ n ih =>
    obtain ⟨round, w', hrun, hround⟩ := gives_poll hw hwanted
    have hepoch := hround.epoch
    have hmembers : w'.group.members = w.group.members := by rw [hround.group]
    have hahead : round.epoch ≤ K := by omega
    obtain ⟨last, hmem, hK⟩ := hlast
    obtain ⟨lastId, hlastId⟩ := Roster.mem_values_iff.mp hmem
    have hwaits := (hround.catchesUp hw.unaltered hlastId).later (by rw [hK]; exact hahead)
    apply CaughtUp.of_round hw hrun hround
    apply ih (hround.pollable hw)
    · exact ⟨last, hmembers ▸ hmem, hwaits.rejoin⟩
    · refine ⟨last, hmembers ▸ hmem, ?_⟩
      rw [← hK, Node.epoch, hwaits.accepted, Node.epoch]
    · intro m hm
      rw [hmembers] at hm
      obtain ⟨id, hid⟩ := Roster.mem_values_iff.mp hm
      have hcatch := hround.catchesUp hw.unaltered hid
      by_cases hlater : (w.nodes m.node).node.epoch < round.epoch
      · rw [Node.epoch, (hcatch.earlier hlater).accepted]
        exact hahead
      · rw [Node.epoch, (hcatch.later (Int.not_lt.mp hlater)).accepted]
        exact hbound m hm
    · have hgroup : w'.group.epoch = round.epoch := by rw [hround.group]
      omega

end catchUp

/--
Polls find nothing to do exactly when no member wants another round. Otherwise they run rounds until the
group is past the last round that a member accepted, whoever drove that member to it.
-/
theorem Course.polls_catch_up {allowed : Operation ι → Prop} {groupId : Value} {nodes : ι → Session}
    {w : World ι} (hnew : ∀ i, ∃ config, nodes i = .start config {})
    (h : Course allowed ⟨{ groupId := groupId }, nodes, []⟩ w) (hfit : Fit w)
    (hunaltered : w.Unaltered) {l : MemberId} (hfirst : w.group.members.keys.head? = some l) :
    (¬ Wanted w → poll w = .ok none w ∧
      ∀ m ∈ w.group.members.values, (w.nodes m.node).node.phase = .active) ∧
    (Wanted w → ∃ round w', poll w = .ok (some round) w' ∧ round.epoch = w.group.epoch + 1 ∧
      ∀ id m, w.group.members.get? id = some m →
        (w.nodes m.node).node.CatchesUp (w'.nodes m.node).node ⟨round.epoch, id, w.outcome l⟩) ∧
    ∀ K, (∃ m ∈ w.group.members.values, (w.nodes m.node).node.epoch = K) →
      (∀ m ∈ w.group.members.values, (w.nodes m.node).node.epoch ≤ K) → Wanted w →
      CaughtUp w l (max 1 (K - w.group.epoch + 1)).toNat := by
  have hw : Pollable w l := ⟨h.atRest hnew, hfit, hunaltered, hfirst⟩
  refine ⟨?_, ?_, ?_⟩
  · intro hidle
    exact ⟨poll_idle hidle, active_of_not_wanted hw.rest hidle⟩
  · intro hwanted
    obtain ⟨round, w', hrun, hround⟩ := gives_poll hw hwanted
    exact ⟨round, w', hrun, hround.epoch, fun id m => hround.catchesUp hunaltered⟩
  · intro K hlast hbound hwanted
    have hcount : (max 1 (K - w.group.epoch + 1)).toNat = (K - w.group.epoch).toNat + 1 := by omega
    rw [hcount]
    exact caughtUp_of_gap hw hwanted hlast hbound rfl

theorem course_staleTrio : Course (fun _ => True) trio staleTrio :=
  Course.begin.operateAll fun _ _ => trivial

theorem Course.polls_catch_up_staleTrio :
    staleTrio.group.epoch = 1 ∧ Wanted staleTrio ∧ CaughtUp staleTrio "a" 3 := by
  have hnew : ∀ i, ∃ config, trio.nodes i = .start config {} := fun _ => ⟨_, rfl⟩
  have hfit : Fit staleTrio := by decide +kernel
  have hunaltered : ∀ id ∈ staleTrio.group.members.keys,
      staleTrio.group.metadataOverrides.get? id = none ∧
        staleTrio.group.assignmentOverrides.get? id = none := by decide +kernel
  have hfirst : staleTrio.group.members.keys.head? = some "a" := by decide +kernel
  have hepoch : staleTrio.group.epoch = 1 := by decide +kernel
  have hwanted : ∃ m ∈ staleTrio.group.members.values,
      (staleTrio.nodes m.node).node.rejoinNeeded = true := by decide +kernel
  have hlast : ∃ m ∈ staleTrio.group.members.values, (staleTrio.nodes m.node).node.epoch = 3 := by
    decide +kernel
  have hbound : ∀ m ∈ staleTrio.group.members.values, (staleTrio.nodes m.node).node.epoch ≤ 3 := by
    decide +kernel
  have hcaught := (course_staleTrio.polls_catch_up hnew hfit hunaltered hfirst).2.2 3 hlast hbound hwanted
  have hcount : (max 1 ((3 : Int) - 1 + 1)).toNat = 3 := by decide
  rw [hepoch, hcount] at hcaught
  exact ⟨hepoch, hwanted, hcaught⟩

end Group

end PrimaryElection
