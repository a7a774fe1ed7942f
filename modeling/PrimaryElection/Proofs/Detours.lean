import PrimaryElection.Proofs.Broadcast
import PrimaryElection.Proofs.Held
import PrimaryElection.Proofs.Indifference

namespace PrimaryElection

open HookM

/-- A call that ends no round of a session whose node is joining or leading. -/
def Call.Futile (s : Session) : Call → Prop
  | .compute _ _ _ => True
  | .complete epoch _ data => ∀ p o, data.resolve s.broadcast = .ok p → Outcome.decode p = .ok o →
    epoch ≤ s.node.epoch
  | .revoke => True
  | .requestRejoin _ => True
  | .metadata => True
  | _ => False

structure Detoured (s t : Session) : Prop where
  node : t.node = { s.node with
    phase := t.node.phase
    rejoinNeeded := true
    metrics := t.node.metrics }
  free : t.node.phase = .joining ∨ t.node.phase = .leading
  completed : t.node.metrics.roundsCompleted = s.node.metrics.roundsCompleted
  revocations : t.node.metrics.revocations = s.node.metrics.revocations
  listener : t.listener = s.listener

namespace Detoured

variable {s t u : Session}

theorem refl (hfree : s.node.phase = .joining ∨ s.node.phase = .leading)
    (hrejoin : s.node.rejoinNeeded = true) : Detoured s s where
  node := by rw [← hrejoin]
  free := hfree
  completed := rfl
  revocations := rfl
  listener := rfl

theorem trans (h : Detoured s t) (h' : Detoured t u) : Detoured s u where
  node := by rw [h'.node, h.node]
  free := h'.free
  completed := h'.completed.trans h.completed
  revocations := h'.revocations.trans h.revocations
  listener := h'.listener.trans h.listener

theorem rejoin (h : Detoured s t) : t.node.rejoinNeeded = true := by
  rw [h.node]

theorem accepted (h : Detoured s t) : t.node.accepted = s.node.accepted := by
  rw [h.node]

theorem epoch (h : Detoured s t) : t.node.epoch = s.node.epoch := by
  rw [Node.epoch, h.accepted, Node.epoch]

theorem isPrimary (h : Detoured s t) : t.node.isPrimary = none :=
  if_neg (Phase.not_active_of_free h.free)

end Detoured

theorem detoured_of_quiet {r r' : Run} {phase : Phase} {metrics : Metrics.Snapshot} (hq : Quiet r r')
    (hnode : r'.node = { r.node with phase := phase, rejoinNeeded := true, metrics := metrics })
    (hphase : phase = .joining ∨ phase = .leading)
    (hcompleted : metrics.roundsCompleted = r.node.metrics.roundsCompleted)
    (hrevocations : metrics.revocations = r.node.metrics.revocations) :
    Detoured r.toSession r'.toSession ∧ notices r'.trace = notices r.trace := by
  refine ⟨⟨?_, ?_, ?_, ?_, hq.listener⟩, hq.notices⟩ <;> rw [hnode]
  · exact hphase
  · exact hcompleted
  · exact hrevocations

theorem after_perform_futile {tell : Notice → HookM Unit} {c : Call} {r : Run}
    (hfree : r.node.phase = .joining ∨ r.node.phase = .leading) (hrejoin : r.node.rejoinNeeded = true)
    (hc : c.Futile r.toSession) :
    After (perform tell c) r fun _ r' =>
      Detoured r.toSession r'.toSession ∧ notices r'.trace = notices r.trace := by
  cases c with
  | metadata =>
    have hstays : ∀ r' : Run, r'.node = r.node → Quiet r r' →
        Detoured r.toSession r'.toSession ∧ notices r'.trace = notices r.trace := by
      intro r' hr' hq
      exact detoured_of_quiet hq (by rw [hr', ← hrejoin]) hfree rfl rfl
    refine (Node.after_metadata r).bind ?_ ?_
    · rintro bytes s ⟨_, hs, hq⟩
      exact after_pure (hstays s hs hq)
    · rintro e s ⟨_, hs, hq⟩
      exact hstays s hs hq
  | compute epoch leader members =>
    refine after_perform_compute ?_ fun _ _ => ⟨.refl hfree hrejoin, rfl⟩
    intro pairs _
    have hrests : r.node.phase.Rests := hfree.imp_right .inl
    apply (Node.after_compute (Phase.not_active_of_free hfree) hrests.not_revoking).mono
    rintro result s ⟨_, hs, hq⟩
    rw [hrejoin, Bool.true_or] at hs
    obtain ⟨hdetoured, hnotices⟩ := detoured_of_quiet hq hs (.inr rfl) rfl rfl
    exact ⟨⟨hdetoured.node, hdetoured.free, hdetoured.completed, hdetoured.revocations,
      hdetoured.listener⟩, hnotices⟩
  | complete epoch memberId data =>
    refine after_perform_complete ?_ fun _ _ => ⟨.refl hfree hrejoin, rfl⟩
    intro p hp
    cases hdata : Outcome.decode p with
    | error e =>
      apply (Node.after_complete_undecodable hfree hdata).mono
      rintro _ s ⟨_, hs, hq⟩
      exact detoured_of_quiet hq hs (.inl rfl) rfl rfl
    | ok o =>
      apply (Node.after_complete_stale hfree hdata (hc p o hp hdata)).mono
      rintro _ s ⟨_, hs, hq⟩
      exact detoured_of_quiet hq hs (.inl rfl) rfl rfl
  | revoke =>
    apply after_perform_revoke
    apply (Node.after_revoke_idle hfree).mono
    rintro _ s ⟨_, hs, hq⟩
    exact detoured_of_quiet hq hs (.inl rfl) rfl rfl
  | requestRejoin reason =>
    refine (Node.gives_requestRejoin reason r).bind_after ?_
    rintro _ s ⟨hs, hq⟩
    exact after_pure (detoured_of_quiet hq hs hfree rfl rfl)
  | _ => exact hc.elim

theorem after_complete_alike {tell : Notice → HookM Unit} {epoch : Int} {memberId : MemberId}
    {data : Payload} {r u : Run} {o : Outcome} (htell : ∀ notice, Indifferent (tell notice))
    (hfree : r.node.phase = .joining ∨ r.node.phase = .leading)
    (hdetoured : Detoured r.toSession u.toSession) (hnotices : notices u.trace = notices r.trace)
    (hdata : Outcome.decode data = .ok o) (hlater : r.node.epoch < epoch) :
    After (Node.complete tell epoch memberId data) r fun result s =>
      After (Node.complete tell epoch memberId data) u fun result' s' =>
        result' = result ∧ Alike s s' := by
  have hfinish : Indifferent (do
      tellSafely tell (.assigned o epoch)
      Node.move .active) :=
    (indifferent_tellSafely (htell _)).bind fun _ => Node.indifferent_move _
  -- The two nodes may be in different phases before, but not once they have taken the round in.
  refine Node.after_complete_accepted hfree hdata hlater fun entered he hqe => ?_
  apply (hfinish entered).mono
  intro result s hs closed hclosed hqc
  have hlater' : u.node.epoch < epoch := hdetoured.epoch ▸ hlater
  refine Node.after_complete_accepted hdetoured.free hdata hlater' fun entered' he' hqe' => ?_
  have halike : Alike entered entered' := by
    refine ⟨?_, ?_, ?_⟩
    · rw [he', he, hdetoured.node]
    · rw [hqe'.listener, hqe.listener, hdetoured.listener]
    · rw [hqe'.notices, hqe.notices, hnotices]
  apply (hs entered' halike).mono
  rintro result' s' ⟨hresult, hs'⟩ closed' hclosed' hqc'
  exact ⟨hresult, hs'.of_quiet (f := id) hclosed hqc hclosed' hqc' fun _ m => ⟨m, rfl⟩⟩

theorem Conduct.steady_leads {epoch : Int} {leader : Value} {members : List (MemberId × Source)}
    (h : ∀ e ∈ members, e.2.Fresh) : (leads epoch leader members).Steady := by
  intro notice r
  refine ⟨fun r' halike => ⟨halike.listener, rfl, rfl⟩, ?_, trivial⟩
  intro c caught hmem
  cases List.mem_singleton.mp hmem
  exact h

namespace Session

inductive Detour (s : Session) : Session → List Event → Prop
  | here : Detour s s []
  | call {t : Session} {events : List Event} (l : Conduct) (c : Call) :
    Detour s t events → c.Futile t →
      Detour s (t.runAs l fun tell => perform tell c).session
        (events ++ (t.runAs l fun tell => perform tell c).events)

theorem Detour.detoured {s t : Session} {events : List Event} (h : Detour s t events)
    (hfree : s.node.phase = .joining ∨ s.node.phase = .leading) (hrejoin : s.node.rejoinNeeded = true) :
    Detoured s t ∧ notices events = [] := by
  induction h with
  | here => exact ⟨.refl hfree hrejoin, rfl⟩
  | @call t events l c _ hc ih =>
    obtain ⟨hdetoured, hnotices⟩ := ih
    obtain ⟨hstep, hgiven⟩ := runAs_of_after (fun tell => perform tell c)
      (after_perform_futile (r := ⟨t, []⟩) hdetoured.free hdetoured.rejoin hc)
    refine ⟨hdetoured.trans hstep, ?_⟩
    rw [notices_append, hnotices]
    exact hgiven

structure Ended.Agrees (e e' : Ended Unit) : Prop where
  result : e'.result = e.result
  phase : e'.session.node.phase = e.session.node.phase
  accepted : e'.session.node.accepted = e.session.node.accepted
  notices : PrimaryElection.notices e'.events = PrimaryElection.notices e.events

section agreement

variable {s t : Session} {l : Conduct} {epoch : Int} {memberId : MemberId} {data : Payload} {o : Outcome}

theorem agrees_of_patient (hl : l.Only Patient)
    (hfree : s.node.phase = .joining ∨ s.node.phase = .leading) (hdetoured : Detoured s t)
    (hdata : Outcome.decode data = .ok o) (hlater : s.node.epoch < epoch) :
    (s.runAs l fun tell => Node.complete tell epoch memberId data).Agrees
      (t.runAs l fun tell => Node.complete tell epoch memberId data) := by
  have hlater' : t.node.epoch < epoch := hdetoured.epoch ▸ hlater
  obtain ⟨hok, _, hnode, _, hnotices, _⟩ := runAs_of_after
    (fun tell => Node.complete tell epoch memberId data)
    (after_complete_heeded (r := ⟨s, []⟩) (Conduct.heeds hl) trivial hfree hdata hlater)
  obtain ⟨hok', _, hnode', _, hnotices', _⟩ := runAs_of_after
    (fun tell => Node.complete tell epoch memberId data)
    (after_complete_heeded (r := ⟨t, []⟩) (Conduct.heeds hl) trivial hdetoured.free hdata hlater')
  dsimp only at hnode hnode'
  exact ⟨hok'.trans hok.symm, by rw [hnode, hnode'], by rw [hnode, hnode'],
    hnotices'.trans hnotices.symm⟩

theorem agrees_of_steady (hl : l.Steady)
    (hfree : s.node.phase = .joining ∨ s.node.phase = .leading) (hdetoured : Detoured s t)
    (hdata : Outcome.decode data = .ok o) (hlater : s.node.epoch < epoch) :
    (s.runAs l fun tell => Node.complete tell epoch memberId data).Agrees
      (t.runAs l fun tell => Node.complete tell epoch memberId data) := by
  have halike := runAs_of_after (fun tell => Node.complete tell epoch memberId data)
    (after_complete_alike (r := ⟨s, []⟩) (u := ⟨t, []⟩) hl.indifferent hfree hdetoured rfl hdata hlater)
  obtain ⟨hresult, hended⟩ := runAs_of_after (fun tell => Node.complete tell epoch memberId data) halike
  have hnode := hended.node
  dsimp only at hnode
  exact ⟨hresult, by rw [hnode], by rw [hnode], hended.notices⟩

end agreement

/--
Rounds that a node led and dropped, and outcomes that it refused, leave the round that it remembers and
its listener as they were, and the next outcome that it can take in is taken in as it would have been
without them. A listener that computes rounds while it is told of an assignment can make a difference of
its own, if it goes by what the node has measured or computed.
-/
theorem Course.detour_leaves_no_trace {config : Config} {script : Script} {s t : Session}
    {events detour : List Event} (hs : Course (fun _ _ => True) (.start config script) s events)
    (hactive : s.node.phase ≠ .active) (ht : Detour s t detour) :
    t.node.epoch = s.node.epoch ∧ t.node.memberId = s.node.memberId ∧
    t.node.outcome = s.node.outcome ∧
    t.node.metrics.roundsCompleted = s.node.metrics.roundsCompleted ∧
    t.node.metrics.revocations = s.node.metrics.revocations ∧
    notices detour = [] ∧ t.listener = s.listener ∧
    t.node.isPrimary = none ∧ t.node.rejoinNeeded = true ∧
    ∀ (epoch : Int) (memberId : MemberId) (data : Payload) (o : Outcome),
      Outcome.decode data = .ok o → s.node.epoch < epoch → ∀ l : Conduct,
        TakesIn l ⟨epoch, memberId, o⟩ (s.runAs l fun tell => Node.complete tell epoch memberId data) ∧
        TakesIn l ⟨epoch, memberId, o⟩ (t.runAs l fun tell => Node.complete tell epoch memberId data) ∧
        (l.Only Patient ∨ l.Steady →
          (s.runAs l fun tell => Node.complete tell epoch memberId data).Agrees
            (t.runAs l fun tell => Node.complete tell epoch memberId data)) := by
  have hfree := hs.rests.eq_of_ne_active hactive
  obtain ⟨hdetoured, hnotices⟩ := ht.detoured hfree (hs.rejoin hactive)
  refine ⟨hdetoured.epoch, ?_, ?_, hdetoured.completed, hdetoured.revocations, hnotices,
    hdetoured.listener, hdetoured.isPrimary, hdetoured.rejoin, ?_⟩
  · rw [Node.memberId, hdetoured.accepted, Node.memberId]
  · rw [Node.outcome, hdetoured.accepted, Node.outcome]
  · intro epoch memberId data o hdata hlater l
    have hrests : t.node.phase.Rests := hdetoured.free.imp_right .inl
    refine ⟨takesIn_of_decode hs.rests hactive hdata hlater l,
      takesIn_of_decode hrests (Phase.not_active_of_free hdetoured.free) hdata
        (hdetoured.epoch ▸ hlater) l, ?_⟩
    rintro (hl | hl)
    · exact agrees_of_patient hl hfree hdetoured hdata hlater
    · exact agrees_of_steady hl hfree hdetoured hdata hlater

def released : Session :=
  (((start default {}).runAs .silent fun tell =>
    perform tell (.complete 3 "me" (.outcome .noCandidate))).session.runAs .silent fun tell =>
      perform tell .revoke).session

theorem Course.detour_leaves_no_trace_leads :
    ∃ s events t detour, Course (fun _ _ => True) (.start default {}) s events ∧ Detour s t detour ∧
      s.node.phase = .joining ∧ s.node.epoch = 3 ∧ t.node.phase = .leading ∧ t.node.epoch = 3 ∧
      notices detour = [] ∧ t.node.isPrimary = none ∧ t.node.rejoinNeeded = true ∧
      TakesIn (.leads 8 (.text "me") []) ⟨7, "me", .noCandidate⟩ (t.runAs (.leads 8 (.text "me") [])
        fun tell => Node.complete tell 7 "me" (.bytes [0, 0, 0, 0, 0, 0])) ∧
      (s.runAs (.leads 8 (.text "me") [])
        fun tell => Node.complete tell 7 "me" (.bytes [0, 0, 0, 0, 0, 0])).Agrees
      (t.runAs (.leads 8 (.text "me") [])
        fun tell => Node.complete tell 7 "me" (.bytes [0, 0, 0, 0, 0, 0])) := by
  have hbegin : Course (fun _ _ => True) (.start default {}) (.start default {}) [] := .begin
  have hcompleted := hbegin.call .silent (.complete 3 "me" (.outcome .noCandidate)) trivial
  have hrevoked := hcompleted.call .silent .revoke trivial
  have hled := (Detour.here (s := released)).call .silent (.compute 4 (.text "me") []) trivial
  have hlate := hled.call .silent (.complete 2 "me" (.outcome .noCandidate)) fun _ _ _ _ => by
    decide +kernel
  have hunreadable := hlate.call .silent (.complete 9 "me" (.payload (.foreign .null))) <| by
    intro p o hp ho
    cases hp
    cases ho
  have hdetour := hunreadable.call .silent (.compute 5 (.text "you") []) trivial
  obtain ⟨s, events, t, detour, hs, ht, hjoining, hthree, hleading⟩ :
      ∃ s events t detour, Course (fun _ _ => True) (.start default {}) s events ∧ Detour s t detour ∧
        s.node.phase = .joining ∧ s.node.epoch = 3 ∧ t.node.phase = .leading := by
    refine ⟨released, _, _, _, hrevoked, hdetour, ?_, ?_, ?_⟩ <;> decide +kernel
  have hactive : s.node.phase ≠ .active := by rw [hjoining]; decide
  obtain ⟨hepoch, _, _, _, _, hnotices, _, hprimary, hrejoin, hnext⟩ :=
    hs.detour_leaves_no_trace hactive ht
  have hdata : Outcome.decode (.bytes [0, 0, 0, 0, 0, 0]) = .ok .noCandidate :=
    Outcome.decode_eq_ok_iff.mpr rfl
  have hlater : s.node.epoch < 7 := by rw [hthree]; decide
  obtain ⟨_, htaken, hagrees⟩ := hnext 7 "me" _ _ hdata hlater (.leads 8 (.text "me") [])
  have hsteady : (Conduct.leads 8 (.text "me") []).Steady := Conduct.steady_leads (by simp)
  exact ⟨s, events, t, detour, hs, ht, hjoining, hthree, hleading, hepoch.trans hthree, hnotices, hprimary,
    hrejoin, htaken, hagrees (.inr hsteady)⟩

end Session

end PrimaryElection
