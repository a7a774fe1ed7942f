import PrimaryElection.Proofs.Resting

namespace PrimaryElection

open HookM

theorem Conduct.after_tell_revoked (l : Conduct) {r : Run} (hphase : r.node.phase = .revoking) :
    After (l.tell .revoked) r fun _ r' => Heard .revoked r r' := by
  cases l with
  | silent => exact (gives_hear .revoked r).after fun _ _ hs => hs.2.2
  | answers keeps actions inner =>
    -- To be patient asks nothing of a listener that is told of a revocation.
    exact after_answers_heard hphase fun _ _ _ _ hkind => by cases hkind

namespace Session

structure Returned (s : Session) (ended : Ended Unit) : Prop where
  result : ended.result = .ok ()
  node : ended.session.node = { s.node with
    phase := .joining
    rejoinNeeded := true
    metrics := if s.node.phase = .active then s.node.metrics.record .revoked else s.node.metrics }
  told : notices ended.events = if s.node.phase = .active then [.revoked] else []

section revocation

variable {s : Session} (l : Conduct)

theorem returned_of_active (hactive : s.node.phase = .active) :
    s.Returned (s.runAs l fun tell => Node.revoke tell) := by
  let own : Script → Prop := fun _ => True
  have htell : ∀ r : Run, own r.listener.script → r.node.phase = .revoking →
      After (l.tell .revoked) r fun _ r' => Heard .revoked r r' ∧ own r'.listener.script :=
    fun _ _ hphase => (l.after_tell_revoked hphase).mono fun _ _ hs => ⟨hs, trivial⟩
  obtain ⟨hresult, _, hnode, _, hnotices, _⟩ := runAs_of_after (fun tell => Node.revoke tell)
    (after_revoke_heeded (r := ⟨s, []⟩) htell trivial hactive)
  refine ⟨hresult, ?_, ?_⟩
  · rw [if_pos hactive]
    exact hnode
  · rw [if_pos hactive]
    exact hnotices

theorem returned_of_free (hfree : s.node.phase = .joining ∨ s.node.phase = .leading) :
    s.Returned (s.runAs l fun tell => Node.revoke tell) := by
  obtain ⟨hresult, hnode, hq⟩ := runAs_of_after (l := l) (fun tell => Node.revoke tell)
    (Node.after_revoke_idle (r := ⟨s, []⟩) hfree)
  have hactive := Phase.not_active_of_free hfree
  refine ⟨hresult, ?_, ?_⟩
  · rw [if_neg hactive]
    exact hnode
  · rw [if_neg hactive]
    exact hq.notices

theorem returned (hrests : s.node.phase.Rests) :
    s.Returned (s.runAs l fun tell => Node.revoke tell) := by
  by_cases hactive : s.node.phase = .active
  · exact returned_of_active l hactive
  · exact returned_of_free l (hrests.eq_of_ne_active hactive)

theorem revoke_returned {ended : Ended Unit} (h : s.Returned ended) :
    let again := ended.session.runAs l fun tell => Node.revoke tell
    again.result = .ok () ∧ again.session = ended.session ∧ notices again.events = [] := by
  have hjoining : ended.session.node.phase = .joining := by rw [h.node]
  have hrejoin : ended.session.node.rejoinNeeded = true := by rw [h.node]
  obtain ⟨hresult, hnode, hq⟩ := runAs_of_after (l := l) (fun tell => Node.revoke tell)
    (Node.after_revoke_idle (r := ⟨ended.session, []⟩) (.inl hjoining))
  refine ⟨hresult, eq_of_quiet ?_ hq, hq.notices⟩
  rw [hnode, ← hjoining, ← hrejoin]

end revocation

/--
Whatever has happened to a node and whatever its listeners do, revoking it brings it back to joining, and
keeps the round that it remembers. Its listener hears of it once if there was an assignment to give up, and
not at all otherwise. Revoking it once more changes nothing.
-/
theorem Course.brought_home {config : Config} {script : Script} {s : Session} {events : List Event}
    (h : Course (fun _ _ => True) (.start config script) s events) (l l' : Conduct) :
    let ended := s.runAs l fun tell => Node.revoke tell
    let again := ended.session.runAs l' fun tell => Node.revoke tell
    s.Returned ended ∧ again.result = .ok () ∧ again.session = ended.session ∧
      notices again.events = [] := by
  intro ended again
  have hreturned : s.Returned ended := returned l h.rests
  exact ⟨hreturned, revoke_returned l' hreturned⟩

def unruly : Conduct :=
  .answers (fun _ r => r.listener)
    (fun _ _ => [.call .revoke true, .call (.complete 9 "me" (.outcome .noCandidate)) true,
      .call (.compute 9 (.text "me") []) true, .call (.requestRejoin .null) true, .raise "no"])
    fun _ _ => .silent

theorem Course.brought_home_unruly :
    ∃ s events, Course (fun _ _ => True) (.start default {}) s events ∧
      s.node.phase = .active ∧ s.node.epoch = 4 ∧
      let ended := s.runAs unruly fun tell => Node.revoke tell
      s.Returned ended ∧ notices ended.events = [.revoked] ∧
      (answers ended.events).map (fun a => failure? a.result) =
        [none, some (.transition .revoking .synced), some (.transition .revoking .leading), none] ∧
      (ended.session.runAs unruly fun tell => Node.revoke tell).session = ended.session := by
  have hbegin : Course (fun _ _ => True) (.start default {}) (.start default {}) [] := .begin
  have hlost := hbegin.call unruly (.complete 3 "me" (.outcome .noCandidate)) unruly.only_any
  have hcourse := hlost.call .silent (.complete 4 "me" (.outcome .noCandidate)) trivial
  obtain ⟨hreturned, _, hagain, _⟩ := hcourse.brought_home unruly unruly
  refine ⟨_, _, hcourse, ?_, ?_, hreturned, ?_, ?_, hagain⟩ <;> decide +kernel

end Session

end PrimaryElection
