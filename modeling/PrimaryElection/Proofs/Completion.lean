import PrimaryElection.Proofs.Resting

namespace PrimaryElection

open HookM

def Conduct.Aloof (l : Conduct) : Prop := l.Only fun _ _ => False

theorem Told.then_quiet {notice : Notice} {r r' r'' : Run} (h : Told notice r r')
    (hnode : r''.node = r'.node) (hq : Quiet r' r'') : Told notice r r'' where
  node := hnode.trans h.node
  broadcast := hq.broadcast.trans h.broadcast
  notices := hq.notices.trans h.notices
  answers := hq.answers.trans h.answers

theorem after_actAll_aloof {tell : Notice → HookM Unit} {kind : Notice.Kind} {actions : List Action}
    {r : Run} (h : ∀ c caught, Action.call c caught ∉ actions) :
    After (actAll tell kind actions) r fun _ r' => r' = r := by
  cases actions with
  | nil => exact after_pure rfl
  | cons a rest =>
    cases a with
    | call c caught => exact (h c caught List.mem_cons_self).elim
    | raise message => exact after_of_error (bind_eq_of_error rfl) rfl

namespace Conduct.Aloof

variable {l : Conduct} {r : Run}

theorem after_tell (h : l.Aloof) (notice : Notice) (r : Run) :
    After (l.tell notice) r fun _ r' => Told notice r r' := by
  cases l with
  | silent => exact (told_hear notice r).after fun _ _ hs => hs.2
  | answers keeps actions inner =>
    apply after_told
    intro s t ht
    apply (after_actAll_aloof (h notice s).1).mono
    rintro _ _ rfl
    exact ht

theorem gives_tellSafely (h : l.Aloof) (notice : Notice) (r : Run) :
    Gives (tellSafely l.tell notice) r fun _ r' => Told notice r r' := by
  apply HookM.gives_tellSafely
  exact (h.after_tell notice r).mono fun _ _ hs _ hnode hq => hs.then_quiet hnode hq

theorem after_complete (h : l.Aloof) {epoch : Int} {memberId : MemberId} {data : Payload} {o : Outcome}
    (hphase : r.node.phase = .joining ∨ r.node.phase = .leading)
    (hdata : Outcome.decode data = .ok o) (hlater : r.node.epoch < epoch) :
    After (Node.complete l.tell epoch memberId data) r fun result r' =>
      result = .ok () ∧
      r'.node = { r.node with
        phase := .active
        accepted := some ⟨epoch, memberId, o⟩
        rejoinNeeded := false
        metrics := r.node.metrics.record (Node.completedMeasurement ⟨epoch, memberId, o⟩) } ∧
      notices r'.trace = notices r.trace ++ [.assigned o epoch] := by
  refine Node.after_complete_accepted hphase hdata hlater fun entered he hqe => ?_
  refine (h.gives_tellSafely _ entered).bind_after ?_
  intro _ s hs
  apply (Node.gives_move (by rw [hs.node, he]; rfl)).after
  rintro _ t ⟨ht, hqt⟩ closed hclosed hqc
  refine ⟨rfl, by rw [hclosed, ht, hs.node, he], ?_⟩
  rw [hqc.notices, hqt.notices, hs.notices, hqe.notices]

end Conduct.Aloof

namespace Session

structure Dropped (s : Session) (metrics : Metrics.Snapshot) (ended : Ended Unit) : Prop where
  result : ended.result = .ok ()
  session : ended.session =
    { s with node := { s.node with phase := .joining, rejoinNeeded := true, metrics := metrics } }
  untold : notices ended.events = []

structure Entered (s : Session) (a : Acceptance) (ended : Ended Unit) : Prop where
  result : ended.result = .ok ()
  node : ended.session.node = { s.node with
    phase := .active
    accepted := some a
    rejoinNeeded := false
    metrics := s.node.metrics.record (Node.completedMeasurement a) }
  told : notices ended.events = [.assigned a.outcome a.epoch]

section completion

variable {s : Session} {l : Conduct} {epoch : Int} {memberId : MemberId} {data : Payload}

theorem refused_of_active (hactive : s.node.phase = .active) :
    let ended := s.runAs l fun tell => Node.complete tell epoch memberId data
    ended.result = .error (.transition .active .synced) ∧ ended.session = s ∧
      notices ended.events = [] := by
  obtain ⟨hresult, hnode, hq⟩ := runAs_of_after (l := l)
    (fun tell => Node.complete tell epoch memberId data)
    (Node.after_complete_refused (r := ⟨s, []⟩) (.inr (.inl hactive)))
  exact ⟨by rw [hresult, hactive], eq_of_quiet hnode hq, hq.notices⟩

theorem dropped_of_unread {e : DecodeError}
    (hphase : s.node.phase = .joining ∨ s.node.phase = .leading) (hdata : Outcome.decode data = .error e) :
    s.Dropped { s.node.metrics with decodeFailures := s.node.metrics.decodeFailures + 1 }
      (s.runAs l fun tell => Node.complete tell epoch memberId data) := by
  obtain ⟨hresult, hnode, hq⟩ := runAs_of_after (l := l)
    (fun tell => Node.complete tell epoch memberId data)
    (Node.after_complete_undecodable (r := ⟨s, []⟩) hphase hdata)
  exact ⟨hresult, eq_with_of_quiet hnode hq, hq.notices⟩

theorem dropped_of_stale {o : Outcome}
    (hphase : s.node.phase = .joining ∨ s.node.phase = .leading) (hdata : Outcome.decode data = .ok o)
    (hstale : epoch ≤ s.node.epoch) :
    s.Dropped s.node.metrics (s.runAs l fun tell => Node.complete tell epoch memberId data) := by
  obtain ⟨hresult, hnode, hq⟩ := runAs_of_after (l := l)
    (fun tell => Node.complete tell epoch memberId data)
    (Node.after_complete_stale (r := ⟨s, []⟩) hphase hdata hstale)
  exact ⟨hresult, eq_with_of_quiet hnode hq, hq.notices⟩

theorem entered_of_later {o : Outcome} (hl : l.Aloof)
    (hphase : s.node.phase = .joining ∨ s.node.phase = .leading) (hdata : Outcome.decode data = .ok o)
    (hlater : s.node.epoch < epoch) :
    s.Entered ⟨epoch, memberId, o⟩ (s.runAs l fun tell => Node.complete tell epoch memberId data) := by
  obtain ⟨hresult, hnode, hnotices⟩ := runAs_of_after
    (fun tell => Node.complete tell epoch memberId data)
    (hl.after_complete (r := ⟨s, []⟩) hphase hdata hlater)
  exact ⟨hresult, hnode, hnotices⟩

end completion

/--
A completed round is refused exactly by a node that holds an assignment, and that leaves everything as it
was. Else it is dropped if its outcome cannot be read, which is counted, or if its epoch is not later than
the one that was accepted last; and otherwise it is taken in, whether its listener fails or not.
-/
theorem Course.completion_rule {config : Config} {script : Script} {s : Session} {events : List Event}
    (h : Course (fun _ _ => True) (.start config script) s events) {l : Conduct} (hl : l.Aloof)
    (epoch : Int) (memberId : MemberId) (data : Payload) :
    let ended := s.runAs l fun tell => Node.complete tell epoch memberId data
    ((∃ source target, ended.result = .error (.transition source target)) ↔ s.node.phase = .active) ∧
    (s.node.phase = .active → ended.session = s ∧ notices ended.events = []) ∧
    (s.node.phase ≠ .active →
      (∀ e, Outcome.decode data = .error e →
        s.Dropped { s.node.metrics with decodeFailures := s.node.metrics.decodeFailures + 1 } ended) ∧
      (∀ o, Outcome.decode data = .ok o → epoch ≤ s.node.epoch → s.Dropped s.node.metrics ended) ∧
      ∀ o, Outcome.decode data = .ok o → s.node.epoch < epoch →
        s.Entered ⟨epoch, memberId, o⟩ ended) := by
  intro ended
  by_cases hactive : s.node.phase = .active
  · obtain ⟨hresult, hsession, hnotices⟩ : ended.result = .error (.transition .active .synced) ∧
        ended.session = s ∧ notices ended.events = [] := refused_of_active hactive
    exact ⟨iff_of_true ⟨_, _, hresult⟩ hactive, fun _ => ⟨hsession, hnotices⟩,
      fun hfree => (hfree hactive).elim⟩
  · have hphase := h.rests.eq_of_ne_active hactive
    refine ⟨iff_of_false ?_ hactive, fun hfalse => (hactive hfalse).elim, fun _ => ⟨?_, ?_, ?_⟩⟩
    · rintro ⟨source, target, hresult⟩
      have hok : ended.result = .ok () := by
        cases hdata : Outcome.decode data with
        | error e => exact (dropped_of_unread hphase hdata).result
        | ok o =>
          by_cases hstale : epoch ≤ s.node.epoch
          · exact (dropped_of_stale hphase hdata hstale).result
          · exact (entered_of_later hl hphase hdata (Int.not_le.mp hstale)).result
      rw [hresult] at hok
      cases hok
    · exact fun _ hdata => dropped_of_unread hphase hdata
    · exact fun _ hdata hstale => dropped_of_stale hphase hdata hstale
    · exact fun _ hdata hlater => entered_of_later hl hphase hdata hlater

def fails : Conduct :=
  .answers (fun _ r => r.listener) (fun _ _ => [.raise "no"]) fun _ _ => .silent

theorem fails_aloof : fails.Aloof := by
  intro notice r
  refine ⟨?_, trivial⟩
  intro c caught hmem
  cases List.mem_singleton.mp hmem

theorem Course.completion_rule_fails :
    ∃ s events t later, Course (fun _ _ => True) (.start default {}) s events ∧
      Course (fun _ _ => True) (.start default {}) t later ∧ fails.Aloof ∧
      s.node.phase = .leading ∧ s.node.epoch = 3 ∧ t.node.phase = .active ∧
      s.Entered ⟨5, "me", .noCandidate⟩
        (s.runAs fails fun tell => Node.complete tell 5 "me" (.bytes [0, 0, 0, 0, 0, 0])) ∧
      s.Dropped s.node.metrics
        (s.runAs fails fun tell => Node.complete tell 3 "me" (.bytes [0, 0, 0, 0, 0, 0])) ∧
      s.Dropped { s.node.metrics with decodeFailures := s.node.metrics.decodeFailures + 1 }
        (s.runAs fails fun tell => Node.complete tell 5 "me" (.bytes [])) ∧
      (t.runAs fails fun tell => Node.complete tell 5 "me" (.bytes [])).session = t := by
  have hbegin : Course (fun _ _ => True) (.start default {}) (.start default {}) [] := .begin
  have hcompleted := hbegin.call fails (.complete 3 "me" (.outcome .noCandidate)) fails.only_any
  have hrevoked := hcompleted.call fails .revoke fails.only_any
  have hled := hrevoked.call fails (.compute 4 (.text "me") []) fails.only_any
  obtain ⟨s, events, hs, hleading, hthree⟩ : ∃ s events,
      Course (fun _ _ => True) (.start default {}) s events ∧ s.node.phase = .leading ∧
        s.node.epoch = 3 := by
    refine ⟨_, _, hled, ?_, ?_⟩ <;> decide +kernel
  obtain ⟨t, later, ht, hactive⟩ : ∃ t later,
      Course (fun _ _ => True) (.start default {}) t later ∧ t.node.phase = .active := by
    refine ⟨_, _, hcompleted, ?_⟩
    decide +kernel
  have hfree : s.node.phase ≠ .active := by rw [hleading]; decide
  have hnext := (hs.completion_rule fails_aloof 5 "me" (.bytes [0, 0, 0, 0, 0, 0])).2.2 hfree
  have hlate := (hs.completion_rule fails_aloof 3 "me" (.bytes [0, 0, 0, 0, 0, 0])).2.2 hfree
  have hunread := (hs.completion_rule fails_aloof 5 "me" (.bytes [])).2.2 hfree
  have hrefused := (ht.completion_rule fails_aloof 5 "me" (.bytes [])).2.1 hactive
  exact ⟨s, events, t, later, hs, ht, fails_aloof, hleading, hthree, hactive,
    hnext.2.2 .noCandidate rfl (by rw [hthree]; decide), hlate.2.1 .noCandidate rfl (Int.le_of_eq hthree.symm),
    hunread.1 _ rfl, hrefused.1⟩

end Session

end PrimaryElection
