import PrimaryElection.Proofs.Turns

namespace PrimaryElection

structure Node.Settled (n : Node) : Prop where
  rests : n.phase.Rests
  rejoin : n.phase ≠ .active → n.rejoinNeeded = true

theorem Node.Settled.step {may : Acceptance → Prop} {n n' : Node} {given : List Notice}
    (h : n.Settled) (heffect : Effect may n n' given) : n'.Settled := by
  cases heffect with
  | silent _ hrests hactive hrejoin =>
    exact ⟨hrests, fun hfree => hrejoin (h.rejoin (mt hactive.mpr hfree))⟩
  | assigned _ _ _ _ hactive _ => exact ⟨.inr (.inr hactive), fun hfree => (hfree hactive).elim⟩
  | revoked _ hjoining _ hrejoin => exact ⟨.inl hjoining, fun _ => hrejoin⟩

theorem Node.settled_start (config : Config) (script : Script) :
    (Session.start config script).node.Settled :=
  ⟨.inl rfl, fun _ => rfl⟩

namespace Session

/-- The listener was last told of an assignment when a call completed this round. -/
inductive LastCompleted (first s : Session) (events : List Event) (a : Acceptance) : Prop
  | intro (before : Session) (earlier later : List Event) (l : Conduct) (data : Source) (p : Payload)
    (reached : Course Patient first before earlier)
    (patient : l.Only Patient)
    (resolved : data.resolve before.broadcast = .ok p)
    (decoded : Outcome.decode p = .ok a.outcome)
    (told : notices (before.runAs l fun tell =>
      perform tell (.complete a.epoch a.memberId data)).events = [.assigned a.outcome a.epoch])
    (onwards : Course Patient (before.runAs l fun tell =>
      perform tell (.complete a.epoch a.memberId data)).session s later)
    (since : ∀ notice ∈ notices later, notice = .revoked)
    (events_eq : events = earlier ++ ((before.runAs l fun tell =>
      perform tell (.complete a.epoch a.memberId data)).events ++ later))

theorem LastCompleted.told_of {first s : Session} {events : List Event} {a : Acceptance}
    (h : LastCompleted first s events a) : .assigned a.outcome a.epoch ∈ notices events := by
  obtain ⟨before, earlier, later, l, data, p, _, _, _, _, htold, _, _, rfl⟩ := h
  rw [notices_append, notices_append, htold]
  simp

theorem LastCompleted.call {first s : Session} {events : List Event} {a : Acceptance}
    (h : LastCompleted first s events a) (l : Conduct) (c : Call) (hl : l.Only Patient)
    (hgiven : ∀ notice ∈ notices (s.runAs l fun tell => perform tell c).events, notice = .revoked) :
    LastCompleted first (s.runAs l fun tell => perform tell c).session
      (events ++ (s.runAs l fun tell => perform tell c).events) a := by
  obtain ⟨before, earlier, later, l', data, p, hreached, hpatient, hresolved, hdecoded, htold, honwards,
    hsince, rfl⟩ := h
  refine ⟨before, earlier, _, l', data, p, hreached, hpatient, hresolved, hdecoded, htold,
    honwards.call l c hl, ?_, by simp only [List.append_assoc]⟩
  intro notice hmem
  rw [notices_append, List.mem_append] at hmem
  rcases hmem with hmem | hmem
  · exact hsince notice hmem
  · exact hgiven notice hmem

theorem LastCompleted.of_offers {first s : Session} {events : List Event} {l : Conduct} {c : Call}
    {a : Acceptance} (hcourse : Course Patient first s events) (hl : l.Only Patient)
    (hoffers : c.Offers s.broadcast a)
    (htold : notices (s.runAs l fun tell => perform tell c).events = [.assigned a.outcome a.epoch]) :
    LastCompleted first (s.runAs l fun tell => perform tell c).session
      (events ++ (s.runAs l fun tell => perform tell c).events) a := by
  cases c with
  | complete epoch memberId data =>
    obtain ⟨rfl, rfl, p, hresolved, hdecoded⟩ := hoffers
    exact ⟨s, events, [], l, data, p, hcourse, hl, hresolved, hdecoded, htold, .begin,
      by simp [notices], by rw [List.append_nil]⟩
  | _ => exact hoffers.elim

structure Accounted (first s : Session) (events : List Event) : Prop where
  settled : s.node.Settled
  active : s.node.phase = .active ↔ (notices events).getLast?.map Notice.kind = some .assigned
  unassigned : s.node.accepted = none → ∀ notice ∈ notices events, notice = .revoked
  completed : ∀ a, s.node.accepted = some a → LastCompleted first s events a

theorem accounted_start (config : Config) (script : Script) :
    Accounted (.start config script) (.start config script) [] := by
  refine ⟨Node.settled_start config script, iff_of_false (by simp [Session.start]) (by simp [notices]),
    ?_, ?_⟩
  · intro _ notice hmem
    cases hmem
  · intro a ha
    cases ha

theorem Course.accounted {config : Config} {script : Script} {s : Session} {events : List Event}
    (h : Course Patient (.start config script) s events) :
    Accounted (.start config script) s events := by
  induction h with
  | begin => exact accounted_start config script
  | @call s events l c hcourse hl ih =>
    obtain ⟨given, heffect, hnotices⟩ := runAs_effect c hl ih.settled.rests
    have hsettled := ih.settled.step heffect
    cases heffect with
    | silent haccepted _ hactive _ =>
      refine ⟨hsettled, ?_, ?_, ?_⟩
      · rw [notices_append, hnotices, List.append_nil]
        exact hactive.trans ih.active
      · rw [notices_append, hnotices, List.append_nil, haccepted]
        exact ih.unassigned
      · intro a ha
        apply (ih.completed a (haccepted.symm.trans ha)).call l c hl
        rw [hnotices]
        simp
    | assigned a hoffers _ _ hactive haccepted =>
      refine ⟨hsettled, ?_, ?_, ?_⟩
      · rw [notices_append, hnotices, List.getLast?_append]
        exact iff_of_true hactive rfl
      · rw [haccepted]
        intro hfalse
        cases hfalse
      · intro a' ha'
        rw [haccepted] at ha'
        cases ha'
        exact .of_offers hcourse hl hoffers hnotices
    | revoked _ hjoining haccepted _ =>
      refine ⟨hsettled, ?_, ?_, ?_⟩
      · rw [notices_append, hnotices, List.getLast?_append, hjoining]
        exact iff_of_false (by decide) (by simp [Notice.kind])
      · intro hnone notice hmem
        rw [notices_append, hnotices, List.mem_append, List.mem_singleton] at hmem
        rw [haccepted] at hnone
        exact hmem.elim (ih.unassigned hnone notice) id
      · intro a ha
        apply (ih.completed a (haccepted.symm.trans ha)).call l c hl
        rw [hnotices]
        simp

/--
A node is never stuck: whenever a call from outside has ended, it rests, it wants another round unless
it is active, and what it reports of its last round is what the last assignment was about.
-/
theorem Course.never_stuck {config : Config} {script : Script} {s : Session} {events : List Event}
    (h : Course Patient (.start config script) s events) :
    (s.node.phase = .joining ∨ s.node.phase = .leading ∨ s.node.phase = .active) ∧
    (s.node.phase ≠ .active → s.node.rejoinNeeded = true) ∧
    (s.node.phase = .active ↔ (notices events).getLast?.map Notice.kind = some .assigned) ∧
    ((∀ notice ∈ notices events, notice.kind ≠ .assigned) →
      s.node.epoch = -1 ∧ s.node.memberId = none ∧ s.node.outcome = none) ∧
    ((∃ notice ∈ notices events, notice.kind = .assigned) →
      ∃ a, LastCompleted (.start config script) s events a ∧
        s.node.epoch = a.epoch ∧ s.node.memberId = some a.memberId ∧ s.node.outcome = some a.outcome) := by
  have haccounted := h.accounted
  refine ⟨haccounted.settled.rests, haccounted.settled.rejoin, haccounted.active, ?_, ?_⟩
  · intro hnever
    cases haccepted : s.node.accepted with
    | none => simp [Node.epoch, Node.memberId, Node.outcome, haccepted, noEpoch]
    | some a => exact (hnever _ (haccounted.completed a haccepted).told_of rfl).elim
  · rintro ⟨notice, hmem, hkind⟩
    cases haccepted : s.node.accepted with
    | none =>
      rw [haccounted.unassigned haccepted notice hmem] at hkind
      cases hkind
    | some a =>
      refine ⟨a, haccounted.completed a haccepted, ?_⟩
      simp [Node.epoch, Node.memberId, Node.outcome, haccepted]

theorem Course.never_stuck_restless :
    ∃ s events, Course Patient (.start default {}) s events ∧
      notices events = [.assigned .noCandidate 3, .revoked] ∧ s.node.phase = .joining ∧
      s.node.epoch = 3 ∧
      (s.node.phase = .joining ∨ s.node.phase = .leading ∨ s.node.phase = .active) ∧
      (s.node.phase ≠ .active → s.node.rejoinNeeded = true) ∧
      (s.node.phase = .active ↔ (notices events).getLast?.map Notice.kind = some .assigned) ∧
      ∃ a, LastCompleted (.start default {}) s events a ∧
        s.node.epoch = a.epoch ∧ s.node.memberId = some a.memberId ∧ s.node.outcome = some a.outcome := by
  have hbegin : Course Patient (.start default {}) (.start default {}) [] := .begin
  have hcompleted := hbegin.call restless (.complete 3 "me" (.outcome .noCandidate)) restless_only
  have hrevoked := hcompleted.call restless .revoke restless_only
  have hled := hrevoked.call restless (.compute 4 (.text "me") []) restless_only
  have hcourse := hled.call restless (.complete 3 "you" (.outcome .duplicateAddress)) restless_only
  have hstuck := hcourse.never_stuck
  refine ⟨_, _, hcourse, ?_, ?_, ?_, hstuck.1, hstuck.2.1, hstuck.2.2.1, hstuck.2.2.2.2 ?_⟩ <;>
    decide +kernel

end Session

end PrimaryElection
