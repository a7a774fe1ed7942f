import PrimaryElection.Proofs.Resting
import PrimaryElection.Proofs.Turns

namespace PrimaryElection

open HookM

def Call.Barred (c : Call) (p : Phase) : Prop :=
  ∀ (tell : Notice → HookM Unit) (r : Run), r.node.phase = p → c.Leads r.broadcast →
    After (perform tell c) r fun result r' =>
      (∃ target, result = .error (.transition p target)) ∧ r'.node = r.node ∧ Quiet r r'

theorem Call.barred {kind : Notice.Kind} {c : Call} (hc : Patient kind c) : c.Barred kind.phase :=
  fun _ _ hphase hleads => (after_perform_refused hphase hc).mono fun _ _ h => h.2 hleads

def Answer.Refused (broadcast : Roster Bytes) (a : Answer) : Prop :=
  a.call.Leads broadcast →
    (∃ target, a.result = .error (.transition a.during.phase target)) ∧
      a.phase = a.during.phase ∧ a.call.Barred a.during.phase

/-- The listener was told of `given` and asked for all of this; its node is as before but for that. -/
structure Humoured (given : List Notice) (asked : List Answer) (r r' : Run) : Prop where
  node : r'.node = { r.node with
    rejoinNeeded := r.node.rejoinNeeded || asked.any fun a => a.call.asksRound r.node.phase }
  broadcast : r'.broadcast = r.broadcast
  notices : notices r'.trace = notices r.trace ++ given
  answers : answers r'.trace = answers r.trace ++ asked
  refused : ∀ a ∈ asked, a.Refused r.broadcast

namespace Humoured

variable {given : List Notice} {asked asked' : List Answer} {r r' r'' : Run}

theorem of_quiet (hnode : r'.node = r.node) (h : Quiet r r') : Humoured [] [] r r' where
  node := by simp [hnode]
  broadcast := h.broadcast
  notices := by rw [h.notices, List.append_nil]
  answers := by rw [h.answers, List.append_nil]
  refused := by simp

theorem of_told {notice : Notice} (h : Told notice r r') : Humoured [notice] [] r r' where
  node := by simp [h.node]
  broadcast := h.broadcast
  notices := h.notices
  answers := by rw [h.answers, List.append_nil]
  refused := by simp

theorem of_plain {kind : Notice.Kind} {c : Call} {result : Except Failure Reply} {s : Run}
    (h : Plain c r s) (hrefused : Answer.Refused r.broadcast ⟨kind, c, result, s.node.phase⟩) :
    Humoured [] [⟨kind, c, result, s.node.phase⟩] r
      { s with trace := s.trace ++ [.answered ⟨kind, c, result, s.node.phase⟩] } where
  node := by simp [h.node]
  broadcast := h.broadcast
  notices := by
    rw [notices_append, h.notices]
    rfl
  answers := by
    rw [answers_append, h.answers]
    rfl
  refused := by
    intro a ha
    rw [List.mem_singleton.mp ha]
    exact hrefused

theorem phase (h : Humoured given asked r r') : r'.node.phase = r.node.phase := by
  rw [h.node]

theorem trans (h : Humoured given asked r r') (h' : Humoured [] asked' r' r'') :
    Humoured given (asked ++ asked') r r'' where
  node := by rw [h'.node, h.node, List.any_append, Bool.or_assoc]
  broadcast := h'.broadcast.trans h.broadcast
  notices := by rw [h'.notices, h.notices, List.append_nil]
  answers := by rw [h'.answers, h.answers, List.append_assoc]
  refused := by
    intro a ha
    rcases List.mem_append.mp ha with ha | ha
    · exact h.refused a ha
    · exact h.broadcast ▸ h'.refused a ha

end Humoured

section listeners

variable {tell : Notice → HookM Unit} {kind : Notice.Kind} {r : Run}

theorem after_act_humoured {a : Action} (hphase : r.node.phase = kind.phase)
    (ha : ∀ c caught, a = .call c caught → Patient kind c) :
    After (act tell kind a) r fun _ r' => ∃ asked, Humoured [] asked r r' := by
  cases a with
  | raise message => exact after_throw ⟨[], .of_quiet rfl (.refl r)⟩
  | call c caught =>
    have hc := ha c caught rfl
    refine after_act_call ((after_perform_refused hphase hc).mono ?_)
    rintro result s ⟨hplain, hrefused⟩
    have hstays : s.node.phase = kind.phase := by rw [hplain.node]; exact hphase
    exact ⟨_, .of_plain hplain fun hleads => ⟨(hrefused hleads).1, hstays, Call.barred hc⟩⟩

theorem after_actAll_humoured {actions : List Action} (hphase : r.node.phase = kind.phase)
    (hactions : ∀ c caught, Action.call c caught ∈ actions → Patient kind c) :
    After (actAll tell kind actions) r fun _ r' => ∃ asked, Humoured [] asked r r' := by
  apply after_actAll_of (I := fun s => ∃ asked, Humoured [] asked r s) _ ⟨[], .of_quiet rfl (.refl r)⟩
  rintro a ha s ⟨asked, hs⟩
  refine (after_act_humoured (hs.phase.trans hphase) ?_).mono ?_
  · rintro c caught rfl
    exact hactions c caught ha
  · rintro _ t ⟨asked', ht⟩
    exact ⟨asked ++ asked', hs.trans ht⟩

def Humours (tell : Notice → HookM Unit) : Prop :=
  ∀ notice r, r.node.phase = notice.kind.phase →
    After (tell notice) r fun _ r' => ∃ asked, Humoured [notice] asked r r'

theorem Conduct.humours {l : Conduct} (h : l.Only Patient) : Humours l.tell := by
  intro notice r hphase
  cases l with
  | silent =>
    apply (told_hear notice r).after
    rintro _ s ⟨_, hs⟩
    exact ⟨[], .of_told hs⟩
  | answers keeps actions inner =>
    apply after_told
    intro s t ht
    apply (after_actAll_humoured (by rw [ht.node]; exact hphase) (h notice s).1).mono
    rintro _ u ⟨asked, hu⟩
    exact ⟨asked, (Humoured.of_told ht).trans hu⟩

theorem gives_tellSafely_humoured {notice : Notice} (htell : Humours tell)
    (hphase : r.node.phase = notice.kind.phase) :
    Gives (tellSafely tell notice) r fun _ r' => ∃ asked, Humoured [notice] asked r r' := by
  apply gives_tellSafely
  apply (htell notice r hphase).mono
  rintro _ s ⟨asked, hs⟩ s' hs' hq
  have hlogged := hs.trans (.of_quiet hs' hq)
  rw [List.append_nil] at hlogged
  exact ⟨asked, hlogged⟩

end listeners

structure Ends (r : Run) (result : Except Failure Reply) (node : Node) (given : List Notice)
    (result' : Except Failure Reply) (r' : Run) : Prop where
  result : result' = result
  told : notices r'.trace = notices r.trace ++ given
  asked : ∃ asked, answers r'.trace = answers r.trace ++ asked ∧ (∀ a ∈ asked, a.Refused r.broadcast) ∧
    (given = [] → asked = []) ∧ r'.node = { node with
      rejoinNeeded := node.rejoinNeeded || asked.any fun a => a.call.asksRound .synced }

theorem Ends.of_untold {r r' : Run} {result : Except Failure Reply} {node : Node}
    (hnode : r'.node = node) (hnotices : notices r'.trace = notices r.trace)
    (hanswers : answers r'.trace = answers r.trace) : Ends r result node [] result r' where
  result := rfl
  told := by rw [hnotices, List.append_nil]
  asked := ⟨[], by rw [hanswers, List.append_nil], by simp, fun _ => rfl, by simp [hnode]⟩

inductive Foreseen (node : Node) : List Notice → Prop
  | untold : Foreseen node []
  | assigned (o : Outcome) (e : Int) (content : node.rejoinNeeded = false) :
    Foreseen node [.assigned o e]
  | revoked (wanting : node.rejoinNeeded = true) : Foreseen node [.revoked]

theorem Foreseen.length_le {node : Node} {given : List Notice} (h : Foreseen node given) :
    given.length ≤ 1 := by
  cases h <;> simp

theorem Call.asksRound_synced (c : Call) :
    c.asksRound .synced = true ↔ c = .revoke ∨ ∃ reason, c = .requestRejoin reason := by
  cases c <;> simp [asksRound]

namespace Ends

variable {r r' : Run} {result result' : Except Failure Reply} {node : Node} {given : List Notice}

theorem node_eq (h : Ends r result node given result' r') :
    r'.node = { node with rejoinNeeded := r'.node.rejoinNeeded } := by
  obtain ⟨asked, _, _, _, hnode⟩ := h.asked
  rw [hnode]

theorem node_eq_of_not_assigned (h : Ends r result node given result' r')
    (hforeseen : Foreseen node given) (hnot : ∀ o e, given ≠ [.assigned o e]) : r'.node = node := by
  obtain ⟨asked, _, _, hnone, hnode⟩ := h.asked
  cases hforeseen with
  | untold => simp [hnode, hnone rfl]
  | assigned o e _ => exact absurd rfl (hnot o e)
  | revoked wanting =>
    rw [hnode, wanting, Bool.true_or, ← wanting]

theorem wants_iff (h : Ends r result node given result' r') (hquiet : answers r.trace = [])
    (hcontent : node.rejoinNeeded = false) :
    r'.node.rejoinNeeded = true ↔
      ∃ a ∈ answers r'.trace, a.call = .revoke ∨ ∃ reason, a.call = .requestRejoin reason := by
  obtain ⟨asked, hanswers, _, _, hnode⟩ := h.asked
  rw [hnode, hanswers, hquiet, hcontent, List.nil_append, Bool.false_or, List.any_eq_true]
  simp only [Call.asksRound_synced]

theorem refused (h : Ends r result node given result' r') (hquiet : answers r.trace = []) :
    ∀ a ∈ answers r'.trace, a.Refused r.broadcast := by
  obtain ⟨asked, hanswers, hrefused, _, _⟩ := h.asked
  rw [hanswers, hquiet, List.nil_append]
  exact hrefused

end Ends

def Settled (c : Call) (r : Run) : Prop :=
  ∃ result node given, Foreseen node given ∧
    ∀ tell, Humours tell → After (perform tell c) r (Ends r result node given)

section calls

variable {r : Run}

theorem settled_of_same {c : Call} (hsame : ∀ tell, perform tell c = perform hear c)
    (huntold : After (perform hear c) r fun _ r' =>
      notices r'.trace = notices r.trace ∧ answers r'.trace = answers r.trace) : Settled c r := by
  unfold After at huntold
  split at huntold
  · rename_i reply s hrun
    refine ⟨.ok reply, s.node, [], .untold, fun tell _ => ?_⟩
    rw [hsame tell]
    exact after_of_ok hrun (.of_untold rfl huntold.1 huntold.2)
  · rename_i e s hrun
    refine ⟨.error e, s.node, [], .untold, fun tell _ => ?_⟩
    rw [hsame tell]
    exact after_of_error hrun (.of_untold rfl huntold.1 huntold.2)

theorem settled_compute {epoch : Int} {leader : Value} {members : List (MemberId × Source)} :
    Settled (.compute epoch leader members) r := by
  have hsame : ∀ tell, perform tell (.compute epoch leader members) =
      perform hear (.compute epoch leader members) := fun _ => rfl
  apply settled_of_same hsame
  refine after_perform_compute ?_ fun _ _ => ⟨rfl, rfl⟩
  intro pairs _
  apply (Node.after_compute_quiet epoch leader (.ofList pairs) r).mono
  exact fun _ _ hq => ⟨hq.notices, hq.answers⟩

theorem settled_of_complete {epoch : Int} {memberId : MemberId} {data : Source} {payload : Payload}
    (result : Except Failure Unit) {node : Node} {given : List Notice}
    (hdata : data.resolve r.broadcast = .ok payload) (hforeseen : Foreseen node given)
    (h : ∀ tell, Humours tell → After (Node.complete tell epoch memberId payload) r fun result' r' =>
      Ends r (result.map fun _ => .done) node given (result'.map fun _ => .done) r') :
    Settled (.complete epoch memberId data) r := by
  refine ⟨result.map fun _ => .done, node, given, hforeseen, fun tell htell => ?_⟩
  apply after_perform_complete
  · intro payload' hpayload'
    rw [hdata] at hpayload'
    cases hpayload'
    exact h tell htell
  · intro e he
    rw [hdata] at he
    cases he

theorem after_told_ends {tell : Notice → HookM Unit} {entered : Run} {node : Node} {notice : Notice}
    {target : Phase} (htell : Humours tell) (hquiet : Quiet r entered)
    (hphase : entered.node.phase = notice.kind.phase)
    (hmove : notice.kind.phase.canMoveTo target = true)
    (hnode : node = { entered.node with phase := target })
    (hwish : notice.kind.phase = .synced ∨ node.rejoinNeeded = true) :
    After (do
      tellSafely tell notice
      Node.move target) entered fun result r' =>
        ∀ closed, closed.node = r'.node → Quiet r' closed →
          Ends r (.ok .done) node [notice] (result.map fun _ => .done) closed := by
  refine (gives_tellSafely_humoured htell hphase).bind_after ?_
  rintro _ s ⟨asked, hs⟩
  apply (Node.gives_move (by rw [hs.phase, hphase]; exact hmove)).after
  rintro _ t ⟨ht, hqt⟩ closed hclosed hqc
  have hq := hqt.trans hqc
  refine ⟨rfl, by rw [hq.notices, hs.notices, hquiet.notices], asked, ?_, ?_, by simp, ?_⟩
  · rw [hq.answers, hs.answers, hquiet.answers]
  · exact hquiet.broadcast ▸ hs.refused
  · rw [hclosed, ht, hs.node, hphase, hnode]
    rcases hwish with hsynced | hwanted
    · rw [hsynced]
    · have hentered : entered.node.rejoinNeeded = true := by
        rw [hnode] at hwanted
        exact hwanted
      simp only [hentered, Bool.true_or]

theorem settled_complete_accepted {epoch : Int} {memberId : MemberId} {data : Source} {payload : Payload}
    {o : Outcome} (hdata : data.resolve r.broadcast = .ok payload)
    (hphase : r.node.phase = .joining ∨ r.node.phase = .leading)
    (hdecode : Outcome.decode payload = .ok o) (hlater : r.node.epoch < epoch) :
    Settled (.complete epoch memberId data) r := by
  let node : Node := { r.node with
    phase := .active
    accepted := some ⟨epoch, memberId, o⟩
    rejoinNeeded := false
    metrics := r.node.metrics.record (Node.completedMeasurement ⟨epoch, memberId, o⟩) }
  have hforeseen : Foreseen node [.assigned o epoch] := .assigned o epoch rfl
  apply settled_of_complete (.ok ()) hdata hforeseen
  intro tell htell
  refine Node.after_complete_accepted hphase hdecode hlater fun entered he hqe => ?_
  apply after_told_ends htell hqe (by rw [he]; rfl) rfl (by rw [he])
  exact .inl rfl

theorem settled_complete {epoch : Int} {memberId : MemberId} {data : Source}
    (hrests : r.node.phase.Rests) : Settled (.complete epoch memberId data) r := by
  cases hdata : data.resolve r.broadcast with
  | error e =>
    refine ⟨.error e, r.node, [], .untold, fun tell _ => ?_⟩
    apply after_perform_complete
    · intro payload hpayload
      rw [hdata] at hpayload
      cases hpayload
    · intro e' he'
      rw [hdata] at he'
      cases he'
      exact .of_untold rfl rfl rfl
  | ok payload =>
    by_cases hactive : r.node.phase = .active
    · apply settled_of_complete (.error (.transition r.node.phase .synced)) hdata .untold
      intro tell _
      apply (Node.after_complete_refused (.inr (.inl hactive))).mono
      rintro _ s ⟨rfl, hs, hq⟩
      exact .of_untold hs hq.notices hq.answers
    have hphase := hrests.eq_of_ne_active hactive
    cases hdecode : Outcome.decode payload with
    | error e =>
      apply settled_of_complete (.ok ()) hdata .untold
      intro tell _
      apply (Node.after_complete_undecodable hphase hdecode).mono
      rintro _ s ⟨rfl, hs, hq⟩
      exact .of_untold hs hq.notices hq.answers
    | ok o =>
      by_cases hstale : epoch ≤ r.node.epoch
      · apply settled_of_complete (.ok ()) hdata .untold
        intro tell _
        apply (Node.after_complete_stale hphase hdecode hstale).mono
        rintro _ s ⟨rfl, hs, hq⟩
        exact .of_untold hs hq.notices hq.answers
      · exact settled_complete_accepted hdata hphase hdecode (Int.not_le.mp hstale)

theorem settled_revoke (hrests : r.node.phase.Rests) : Settled .revoke r := by
  by_cases hactive : r.node.phase = .active
  · let node : Node := { r.node with
      phase := .joining
      rejoinNeeded := true
      metrics := r.node.metrics.record .revoked }
    refine ⟨.ok .done, node, [.revoked], .revoked rfl, fun tell htell => after_perform_revoke ?_⟩
    refine Node.after_revoke_active hactive fun entered he hqe => ?_
    apply after_told_ends htell hqe (by rw [he]; rfl) rfl (by rw [he])
    exact .inr rfl
  · let node : Node := { r.node with phase := .joining, rejoinNeeded := true }
    refine ⟨.ok .done, node, [], .untold, fun tell _ => after_perform_revoke ?_⟩
    apply (Node.after_revoke_idle (hrests.eq_of_ne_active hactive)).mono
    rintro _ s ⟨rfl, hs, hq⟩
    exact .of_untold hs hq.notices hq.answers

theorem settled_idle {c : Call} (hidle : c.idle = true) : Settled c r := by
  apply settled_of_same
  · intro tell
    cases c with
    | compute epoch leader members => cases hidle
    | complete epoch memberId data => cases hidle
    | revoke => cases hidle
    | _ => rfl
  · exact (after_perform_plain hidle r).mono fun _ _ h => ⟨h.notices, h.answers⟩

theorem settled_of_rests (hrests : r.node.phase.Rests) (c : Call) : Settled c r := by
  cases hidle : c.idle with
  | true => exact settled_idle hidle
  | false =>
    cases c with
    | compute epoch leader members => exact settled_compute
    | complete epoch memberId data => exact settled_complete hrests
    | revoke => exact settled_revoke hrests
    | _ => cases hidle

end calls

namespace Session

/--
A listener that calls its node again while it is told of something does no harm, as long as it computes no
round while it is told of an assignment: it is told of one thing at most, is refused whatever would lead
its node through a round, and all is as if it had only listened, but for a wish for another round.
-/
theorem Course.reentrance_harmless {config : Config} {script : Script} {s : Session}
    {events : List Event} (h : Course (fun _ _ => True) (.start config script) s events) (c : Call)
    {l : Conduct} (hl : l.Only Patient) :
    let ended := s.runAs l fun tell => perform tell c
    let passive := s.runAs .silent fun tell => perform tell c
    (notices ended.events).length ≤ 1 ∧
    (∀ a ∈ answers ended.events, a.Refused s.broadcast) ∧
    ended.result = passive.result ∧
    ended.session.node =
      { passive.session.node with rejoinNeeded := ended.session.node.rejoinNeeded } ∧
    notices ended.events = notices passive.events ∧
    (∀ o e, notices ended.events = [.assigned o e] →
      (ended.session.node.rejoinNeeded = true ↔ ∃ a ∈ answers ended.events,
        a.call = .revoke ∨ ∃ reason, a.call = .requestRejoin reason)) ∧
    ((∀ o e, notices ended.events ≠ [.assigned o e]) → ended.session.node = passive.session.node) := by
  intro ended passive
  obtain ⟨result, node, given, hforeseen, hsettled⟩ := settled_of_rests (r := ⟨s, []⟩) h.rests c
  have hended : Ends ⟨s, []⟩ result node given ended.result ⟨ended.session, ended.events⟩ :=
    runAs_of_after (fun tell => perform tell c) (hsettled l.tell (Conduct.humours hl))
  have hpassive : Ends ⟨s, []⟩ result node given passive.result ⟨passive.session, passive.events⟩ :=
    runAs_of_after (fun tell => perform tell c)
      (hsettled (Conduct.tell .silent) (Conduct.humours (l := .silent) trivial))
  have htold : notices ended.events = given := hended.told
  have htold' : notices passive.events = given := hpassive.told
  refine ⟨htold ▸ hforeseen.length_le, hended.refused rfl, hended.result.trans hpassive.result.symm,
    ?_, htold.trans htold'.symm, ?_, ?_⟩
  · rw [hpassive.node_eq]
    exact hended.node_eq
  · intro o e hassigned
    rw [htold] at hassigned
    subst hassigned
    cases hforeseen with
    | assigned _ _ content => exact hended.wants_iff rfl content
  · intro hnot
    rw [htold] at hnot
    exact (hended.node_eq_of_not_assigned hforeseen hnot).trans
      (hpassive.node_eq_of_not_assigned hforeseen hnot).symm

theorem Course.reentrance_harmless_restless :
    ∃ s events, Course (fun _ _ => True) (.start default {}) s events ∧ restless.Only Patient ∧
      let c : Call := .complete 5 "me" (.outcome .noCandidate)
      let ended := s.runAs restless fun tell => perform tell c
      let passive := s.runAs .silent fun tell => perform tell c
      notices ended.events = [.assigned .noCandidate 5] ∧
      (answers ended.events).map (fun a => failure? a.result) =
        [none, some (.transition .synced .synced)] ∧
      (∀ a ∈ answers ended.events, a.Refused s.broadcast) ∧
      ended.result = passive.result ∧
      ended.session.node =
        { passive.session.node with rejoinNeeded := ended.session.node.rejoinNeeded } ∧
      ended.session.node.rejoinNeeded = true ∧ passive.session.node.rejoinNeeded = false ∧
      ∃ a ∈ answers ended.events, a.call = .revoke ∨ ∃ reason, a.call = .requestRejoin reason := by
  have hbegin : Course (fun _ _ => True) (.start default {}) (.start default {}) [] := .begin
  have hcompleted :=
    hbegin.call restless (.complete 3 "me" (.outcome .noCandidate)) restless.only_any
  have hcourse := hcompleted.call restless .revoke restless.only_any
  have hharmless :=
    hcourse.reentrance_harmless (.complete 5 "me" (.outcome .noCandidate)) restless_only
  refine ⟨_, _, hcourse, restless_only, ?_, ?_, hharmless.2.1, hharmless.2.2.1, hharmless.2.2.2.1,
    ?_, ?_, (hharmless.2.2.2.2.2.1 .noCandidate 5 ?_).mp ?_⟩ <;> decide +kernel

end Session

end PrimaryElection
