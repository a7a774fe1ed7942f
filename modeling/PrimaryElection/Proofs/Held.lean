import PrimaryElection.Proofs.Settled

namespace PrimaryElection

open HookM

structure Strayed (given : List Notice) (r r' : Run) : Prop where
  leading : r'.node.phase = .leading
  accepted : r'.node.accepted = r.node.accepted
  notices : notices r'.trace = notices r.trace ++ given

theorem Node.after_compute_synced {epoch : Int} {leader : Value} {members : Roster Payload} {r : Run}
    (hphase : r.node.phase = .synced) :
    After (compute epoch leader members) r fun result r' =>
      Lawful result ∧ Strayed [] r r' := by
  apply (after_compute (by rw [hphase]; decide) (by rw [hphase]; decide)).mono
  rintro _ s ⟨rfl, hs, hq⟩
  exact ⟨lawful_mapError (fun _ => rfl) _, by rw [hs], by rw [hs], by rw [hq.notices, List.append_nil]⟩

def Conduct.leads (epoch : Int) (leader : Value) (members : List (MemberId × Source)) : Conduct :=
  .answers (fun _ r => r.listener) (fun _ _ => [.call (.compute epoch leader members) true])
    fun _ _ => .silent

section leads

variable {epoch : Int} {leader : Value} {members : List (MemberId × Source)}
  {pairs : List (MemberId × Payload)} {r : Run}

theorem after_actAll_leads {tell : Notice → HookM Unit} {kind : Notice.Kind}
    (hphase : r.node.phase = .synced) (hpairs : Source.resolveAll r.broadcast members = .ok pairs) :
    After (actAll tell kind [.call (.compute epoch leader members) true]) r
      fun _ r' => Strayed [] r r' := by
  have hperform : After (perform tell (.compute epoch leader members)) r fun _ s => Strayed [] r s := by
    apply after_perform_compute
    · intro _ _
      apply (Node.after_compute_synced hphase).mono
      rintro result s ⟨_, hs⟩
      exact ⟨hs.leading, hs.accepted, hs.notices⟩
    · intro e he
      rw [hpairs] at he
      cases he
  refine After.bind (after_act_call (Q := fun _ => Strayed [] r) ?_) ?_ fun _ _ h => h
  · apply hperform.mono
    intro _ s hs
    refine ⟨hs.leading, hs.accepted, ?_⟩
    rw [notices_append, hs.notices]
    exact List.append_nil _
  · intro _ s hs
    exact after_pure hs

theorem after_tell_leads {notice : Notice} (hphase : r.node.phase = .synced)
    (hpairs : Source.resolveAll r.broadcast members = .ok pairs) :
    After ((Conduct.leads epoch leader members).tell notice) r fun _ r' => Strayed [notice] r r' := by
  apply Conduct.after_answers
  intro _ t ht hheard
  apply (after_actAll_leads (by rw [ht]; exact hphase) (by rw [hheard.broadcast]; exact hpairs)).mono
  intro _ u hu
  exact ⟨hu.leading, by rw [hu.accepted, ht], by rw [hu.notices, hheard.notices, List.append_nil]⟩

theorem after_complete_leads {epoch' : Int} {memberId : MemberId} {data : Payload} {o : Outcome}
    (hphase : r.node.phase = .joining ∨ r.node.phase = .leading)
    (hdata : Outcome.decode data = .ok o) (hlater : r.node.epoch < epoch')
    (hpairs : Source.resolveAll r.broadcast members = .ok pairs) :
    After (Node.complete (Conduct.leads epoch leader members).tell epoch' memberId data) r
      fun result r' => result = .error (.transition .leading .active) ∧ r'.node.phase = .leading ∧
        r'.node.accepted = some ⟨epoch', memberId, o⟩ ∧
        notices r'.trace = notices r.trace ++ [.assigned o epoch'] := by
  apply Node.after_complete_accepted hphase hdata hlater
  intro entered he hqe
  have htell : After ((Conduct.leads epoch leader members).tell (.assigned o epoch')) entered
      fun _ s => Strayed [.assigned o epoch'] entered s :=
    after_tell_leads (by rw [he]) (by rw [hqe.broadcast]; exact hpairs)
  refine Gives.bind_after (P := fun _ s => Strayed [.assigned o epoch'] entered s) ?_ ?_
  · apply gives_tellSafely
    apply htell.mono
    intro _ s hs s' hs' hq
    exact ⟨by rw [hs']; exact hs.leading, by rw [hs']; exact hs.accepted, hq.notices.trans hs.notices⟩
  · intro _ s hs
    have hmove : s.node.phase.canMoveTo .active = false := by
      rw [hs.leading]
      rfl
    apply after_of_error (Node.move_eq_error hmove)
    intro closed hclosed hqc
    refine ⟨by rw [hs.leading], by rw [hclosed]; exact hs.leading, ?_, ?_⟩
    · rw [hclosed, hs.accepted, he]
    · rw [hqc.notices, hs.notices, hqe.notices]

end leads

namespace Session

theorem compute_refused {s : Session} (h : s.node.phase = .active) (l : Conduct) (epoch : Int)
    (leader : Value) (members : Roster Payload) :
    (s.runAs l fun _ => Node.compute epoch leader members).result =
        .error (.transition .active .leading) ∧
      (s.runAs l fun _ => Node.compute epoch leader members).session = s ∧
      notices (s.runAs l fun _ => Node.compute epoch leader members).events = [] := by
  obtain ⟨hresult, hnode, hq⟩ := runAs_of_after (l := l) (fun _ => Node.compute epoch leader members)
    (Node.after_compute_refused (r := ⟨s, []⟩) (.inl h))
  refine ⟨by rw [hresult, h], ?_, hq.notices⟩
  exact eq_of_quiet hnode hq

theorem complete_refused {s : Session} {l : Conduct} {epoch : Int} {memberId : MemberId}
    {data : Payload} {source target : Phase} (hrests : s.node.phase.Rests) (hl : l.Only Patient)
    (h : (s.runAs l fun tell => Node.complete tell epoch memberId data).result =
      .error (.transition source target)) :
    (s.runAs l fun tell => Node.complete tell epoch memberId data).session = s ∧
      notices (s.runAs l fun tell => Node.complete tell epoch memberId data).events = [] := by
  by_cases hactive : s.node.phase = .active
  · obtain ⟨_, hnode, hq⟩ := runAs_of_after (fun tell => Node.complete tell epoch memberId data)
      (Node.after_complete_refused (r := ⟨s, []⟩) (.inr (.inl hactive)))
    exact ⟨eq_of_quiet hnode hq, hq.notices⟩
  · have hok := runAs_of_after (fun tell => Node.complete tell epoch memberId data)
      (after_complete_ok (r := ⟨s, []⟩) (Conduct.heeds hl) trivial (hrests.eq_of_ne_active hactive))
    rw [h] at hok
    cases hok

/--
As long as its listener computes no round while it is told of an assignment, a node refuses to compute one
from then on until it is revoked, no call fails for the phase of the node once the listener has heard of
an assignment, and no assignment follows upon another.
-/
theorem Course.held_until_revoked {config : Config} {script : Script} {s : Session}
    {events : List Event} (h : Course Patient (.start config script) s events) :
    ((notices events).getLast?.map Notice.kind = some .assigned →
      ∀ (l : Conduct) (epoch : Int) (leader : Value) (members : Roster Payload),
        let ended := s.runAs l fun _ => Node.compute epoch leader members
        ended.result = .error (.transition .active .leading) ∧ ended.session = s ∧
          notices ended.events = []) ∧
    (∀ (l : Conduct) (epoch : Int) (memberId : MemberId) (data : Payload) (source target : Phase),
      l.Only Patient →
        let ended := s.runAs l fun tell => Node.complete tell epoch memberId data
        ended.result = .error (.transition source target) →
          ended.session = s ∧ notices ended.events = []) ∧
    ∀ i notice notice', (notices events)[i]? = some notice → (notices events)[i + 1]? = some notice' →
      notice.kind = .assigned → notice'.kind = .revoked := by
  refine ⟨?_, ?_, ?_⟩
  · intro hlast l epoch leader members
    exact compute_refused (h.accounted.active.mpr hlast) l epoch leader members
  · intro l epoch memberId data source target hl ended hended
    exact complete_refused h.accounted.settled.rests hl hended
  · intro i notice notice' hnotice hnotice' hassigned
    have heven := (h.inTurn.turns i notice hnotice).mp hassigned
    have hturn := h.inTurn.turns (i + 1) notice' hnotice'
    cases hkind : notice'.kind with
    | revoked => rfl
    | assigned =>
      have hodd := hturn.mp hkind
      omega

theorem Course.held_until_revoked_restless :
    ∃ s events, Course Patient (.start default {}) s events ∧
      (notices events).map Notice.kind = [.assigned, .revoked, .assigned] ∧
      (s.runAs restless fun _ => Node.compute 9 (.text "me") .empty).result =
        .error (.transition .active .leading) ∧
      (s.runAs restless fun _ => Node.compute 9 (.text "me") .empty).session = s ∧
      (s.runAs restless fun tell => Node.complete tell 9 "me" (.bytes [])).session = s ∧
      ∀ i notice notice', (notices events)[i]? = some notice → (notices events)[i + 1]? = some notice' →
        notice.kind = .assigned → notice'.kind = .revoked := by
  have hbegin : Course Patient (.start default {}) (.start default {}) [] := .begin
  have hfirst := hbegin.call restless (.complete 0 "me" (.outcome .noCandidate)) restless_only
  have hrevoked := hfirst.call restless .revoke restless_only
  have hcourse := hrevoked.call restless (.complete 5 "me" (.outcome .noCandidate)) restless_only
  have hheld := hcourse.held_until_revoked
  have hcomputed := hheld.1 (by decide +kernel) restless 9 (.text "me") .empty
  have hcompleted := hheld.2.1 restless 9 "me" (.bytes []) .active .synced restless_only
    (failure?_eq_some.mp (by decide +kernel))
  refine ⟨_, _, hcourse, ?_, hcomputed.1, hcomputed.2.1, hcompleted.1, hheld.2.2⟩
  decide +kernel

theorem held_until_revoked_fails :
    let ended := (Session.start default {}).runAs (.leads 2 (.text "me") []) fun tell =>
      Node.complete tell 1 "me" (.bytes [0, 0, 0, 0, 0, 0])
    failure? ended.result = some (.transition .leading .active) ∧
      notices ended.events = [.assigned .noCandidate 1] ∧ ended.session.node.phase = .leading ∧
      (answers ended.events).map (fun a => failure? a.result) = [none] := by
  intro ended
  have hdata : Outcome.decode (.bytes [0, 0, 0, 0, 0, 0]) = .ok .noCandidate := rfl
  have hpairs : Source.resolveAll (Session.start default {}).broadcast [] = .ok [] := rfl
  obtain ⟨hresult, hphase, _, hnotices⟩ := runAs_of_after (l := .leads 2 (.text "me") [])
    (fun tell => Node.complete tell 1 "me" (.bytes [0, 0, 0, 0, 0, 0]))
    (after_complete_leads (r := ⟨Session.start default {}, []⟩) (.inl rfl) hdata (by decide) hpairs)
  refine ⟨failure?_eq_some.mpr hresult, hnotices, hphase, ?_⟩
  decide +kernel

end Session

end PrimaryElection
