import PrimaryElection.Proofs.Held
import PrimaryElection.Proofs.Reentrance

namespace PrimaryElection

open HookM

def Stands (given : List Notice) (r r' : Run) : Prop :=
  r'.node.phase.Rests ∨ ∃ asked, Humoured given asked r r'

section assigned

variable {tell : Notice → HookM Unit} {r : Run}

theorem after_act_stands {a : Action} (hphase : r.node.phase = .synced) :
    After (act tell .assigned a) r fun _ r' => Stands [] r r' := by
  have hpatient : (∀ c caught, a = .call c caught → Patient .assigned c) →
      After (act tell .assigned a) r fun _ r' => Stands [] r r' := by
    intro ha
    have hkind : r.node.phase = Notice.Kind.assigned.phase := hphase
    exact (after_act_humoured hkind ha).mono fun _ _ h => .inr h
  cases a with
  | raise message => exact hpatient nofun
  | call c caught =>
    cases c with
    | compute epoch leader members =>
      apply after_act_call
      apply after_perform_compute
      · intro _ _
        apply (Node.after_compute_synced hphase).mono
        rintro _ s ⟨_, hs⟩
        exact .inl (.inr (.inl hs.leading))
      · intro e he
        have hplain : Plain (.compute epoch leader members) r r := .of_quiet rfl rfl (.refl r)
        refine .inr ⟨_, .of_plain hplain ?_⟩
        rintro ⟨pairs, hpairs⟩
        rw [he] at hpairs
        cases hpairs
    | _ =>
      apply hpatient
      rintro _ _ ⟨⟩ _
      rfl

theorem after_actAll_stands {actions : List Action} (hphase : r.node.phase = .synced)
    (htell : Conserves tell) : After (actAll tell .assigned actions) r fun _ r' => Stands [] r r' := by
  apply after_actAll_of (I := Stands [] r) _ (.inr ⟨[], .of_quiet rfl (.refl r)⟩)
  rintro a _ s (hrests | ⟨asked, hs⟩)
  -- Once astray, the node comes to no phase in which the listener's further wishes would count.
  · apply (after_act_keeps hrests.not_following htell).mono
    exact fun _ _ ht => .inl (ht.rests hrests)
  · apply (after_act_stands (hs.phase.trans hphase)).mono
    rintro _ t (hrests | ⟨asked', ht⟩)
    · exact .inl hrests
    · exact .inr ⟨asked ++ asked', hs.trans ht⟩

theorem after_tell_stands (l : Conduct) {o : Outcome} {epoch : Int} (hphase : r.node.phase = .synced) :
    After (l.tell (.assigned o epoch)) r fun _ r' => Stands [.assigned o epoch] r r' := by
  cases l with
  | silent =>
    apply (told_hear _ r).after
    rintro _ s ⟨_, hs⟩
    exact .inr ⟨[], .of_told hs⟩
  | answers keeps actions inner =>
    apply Conduct.after_told
    intro s t ht
    apply (after_actAll_stands (by rw [ht.node]; exact hphase) (Conduct.conserves _)).mono
    rintro _ u (hrests | ⟨asked, hu⟩)
    · exact .inl hrests
    · exact .inr ⟨asked, (Humoured.of_told ht).trans hu⟩

theorem after_complete_asked (l : Conduct) {epoch : Int} {memberId : MemberId} {data : Payload}
    {o : Outcome} (hphase : r.node.phase = .joining ∨ r.node.phase = .leading)
    (hdata : Outcome.decode data = .ok o) (hlater : r.node.epoch < epoch) :
    After (Node.complete l.tell epoch memberId data) r fun result r' => result = .ok () →
      ∃ asked, answers r'.trace = answers r.trace ++ asked ∧
        r'.node.rejoinNeeded = asked.any fun a => a.call.asksRound .synced := by
  refine Node.after_complete_accepted hphase hdata hlater fun entered he hqe => ?_
  have hsynced : entered.node.phase = .synced := by rw [he]
  have htold : Gives (tellSafely l.tell (.assigned o epoch)) entered
      fun _ s => Stands [.assigned o epoch] entered s := by
    apply gives_tellSafely
    apply (after_tell_stands l hsynced).mono
    rintro _ s (hrests | ⟨asked, hs⟩) s' hs' hq
    · exact .inl (by rw [hs']; exact hrests)
    · exact .inr ⟨asked ++ [], hs.trans (.of_quiet hs' hq)⟩
  refine htold.bind_after ?_
  rintro _ s (hrests | ⟨asked, hs⟩)
  · apply after_of_error (Node.move_eq_error hrests.not_to_active)
    rintro closed _ _ ⟨⟩
  · apply (Node.gives_move (by rw [hs.phase, hsynced]; rfl)).after
    rintro _ t ⟨ht, hqt⟩ closed hclosed hqc _
    refine ⟨asked, ?_, ?_⟩
    · rw [hqc.answers, hqt.answers, hs.answers, hqe.answers]
    · rw [hclosed, ht, hs.node, hsynced, he, Bool.false_or]

theorem after_complete_wish (l : Conduct) {epoch : Int} {memberId : MemberId} {data : Payload}
    (hfollowing : r.node.phase ≠ .following) :
    After (Node.complete l.tell epoch memberId data) r fun result r' => result = .ok () →
      ∃ asked, answers r'.trace = answers r.trace ++ asked ∧
        (r'.node.rejoinNeeded = true ↔
          (∀ o, Outcome.decode data = .ok o → epoch ≤ r.node.epoch) ∨
          ∃ a ∈ asked, a.call = .revoke ∨ ∃ reason, a.call = .requestRejoin reason) := by
  by_cases hrefused : r.node.phase = .synced ∨ r.node.phase = .active ∨ r.node.phase = .revoking
  · apply (Node.after_complete_refused hrefused).mono
    rintro _ s ⟨rfl, _⟩ ⟨⟩
  have hphase := Phase.free_of_not_refused hfollowing hrefused
  cases hdecode : Outcome.decode data with
  | error e =>
    apply (Node.after_complete_undecodable hphase hdecode).mono
    rintro _ s ⟨_, hs, hq⟩ _
    have hwants : s.node.rejoinNeeded = true := by rw [hs]
    exact ⟨[], by rw [hq.answers, List.append_nil], iff_of_true hwants (.inl nofun)⟩
  | ok o =>
    by_cases hstale : epoch ≤ r.node.epoch
    · apply (Node.after_complete_stale hphase hdecode hstale).mono
      rintro _ s ⟨_, hs, hq⟩ _
      have hwants : s.node.rejoinNeeded = true := by rw [hs]
      exact ⟨[], by rw [hq.answers, List.append_nil], iff_of_true hwants (.inl fun _ _ => hstale)⟩
    · apply (after_complete_asked l hphase hdecode (Int.not_le.mp hstale)).mono
      intro _ s hs hok
      obtain ⟨asked, hanswers, hwish⟩ := hs hok
      refine ⟨asked, hanswers, ?_⟩
      rw [hwish, List.any_eq_true]
      simp only [Call.asksRound_synced]
      constructor
      · exact .inr
      · rintro (hall | hasked)
        · exact (hstale (hall o rfl)).elim
        · exact hasked

end assigned

namespace Session

variable {config : Config} {script : Script} {s : Session} {events : List Event}

theorem Course.request_idle (h : Course (fun _ _ => True) (.start config script) s events)
    (hfree : s.node.phase ≠ .active) (l : Conduct) (reason : Value) :
    (s.runAs l fun _ => Node.requestRejoin reason).session = s := by
  have hrequest : After (Node.requestRejoin reason) ⟨s, []⟩ fun _ r' =>
      r'.node = { s.node with rejoinNeeded := true } ∧ Quiet ⟨s, []⟩ r' :=
    (Node.gives_requestRejoin reason ⟨s, []⟩).after fun _ _ h => h
  obtain ⟨hnode, hq⟩ := runAs_of_after (l := l) (fun _ => Node.requestRejoin reason) hrequest
  apply eq_of_quiet _ hq
  rw [hnode, ← h.rejoin hfree]

/--
A node that holds no assignment takes no notice of a request for another round. Once a round is completed it
wants another one exactly if it had to drop the round, or if its listener asked for one while it was told of
the assignment.
-/
theorem Course.late_request_kept (h : Course (fun _ _ => True) (.start config script) s events) :
    (s.node.phase ≠ .active → ∀ (l : Conduct) (reason : Value),
      (s.runAs l fun _ => Node.requestRejoin reason).session = s) ∧
    ∀ (l : Conduct) (epoch : Int) (memberId : MemberId) (data : Payload),
      let ended := s.runAs l fun tell => Node.complete tell epoch memberId data
      ended.result = .ok () →
        (ended.session.node.rejoinNeeded = true ↔
          (∀ o, Outcome.decode data = .ok o → epoch ≤ s.node.epoch) ∨
          ∃ a ∈ answers ended.events, a.call = .revoke ∨ ∃ reason, a.call = .requestRejoin reason) := by
  refine ⟨h.request_idle, ?_⟩
  intro l epoch memberId data ended hok
  have hended := runAs_of_after (fun tell => Node.complete tell epoch memberId data)
    (after_complete_wish (r := ⟨s, []⟩) l h.rests.not_following)
  obtain ⟨asked, hanswers, hwish⟩ := hended hok
  rw [hanswers]
  exact hwish

theorem Course.late_request_kept_restless :
    ∃ s events, Course (fun _ _ => True) (.start default {}) s events ∧ s.node.phase = .leading ∧
      (s.runAs .silent fun _ => Node.requestRejoin .null).session = s ∧
      let ended := s.runAs restless fun tell => Node.complete tell 5 "me" (.bytes [0, 0, 0, 0, 0, 0])
      notices ended.events = [.assigned .noCandidate 5] ∧ ended.session.node.rejoinNeeded = true ∧
      ∃ a ∈ answers ended.events, a.call = .revoke ∨ ∃ reason, a.call = .requestRejoin reason := by
  have hbegin : Course (fun _ _ => True) (.start default {}) (.start default {}) [] := .begin
  have hcourse := hbegin.call restless (.compute 5 (.text "me") []) restless.only_any
  obtain ⟨hidle, hkept⟩ := hcourse.late_request_kept
  have hwants := hkept restless 5 "me" (.bytes [0, 0, 0, 0, 0, 0])
    (eq_ok_of_failure? (by decide +kernel))
  refine ⟨_, _, hcourse, by decide +kernel, hidle (by decide +kernel) .silent .null, ?_, ?_, ?_⟩
  · decide +kernel
  · decide +kernel
  · apply (hwants.mp (by decide +kernel)).resolve_left
    intro hall
    exact absurd (hall .noCandidate rfl) (by decide +kernel)

theorem early_request_lost :
    let led := (Session.start default {}).runAs .silent fun _ => Node.compute 1 (.text "me") .empty
    let asked := led.session.runAs .silent fun _ => Node.requestRejoin (.text "moved")
    let ended := asked.session.runAs .silent fun tell =>
      Node.complete tell 1 "me" (.bytes [0, 0, 0, 0, 0, 0])
    led.session.node.phase = .leading ∧ asked.session.node.rejoinNeeded = true ∧
      failure? ended.result = none ∧ notices ended.events = [.assigned .noCandidate 1] ∧
      ended.session.node.rejoinNeeded = false := by
  decide +kernel

end Session

end PrimaryElection
