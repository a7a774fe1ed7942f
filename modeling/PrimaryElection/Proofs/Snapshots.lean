import PrimaryElection.Proofs.Resting
import PrimaryElection.Proofs.Turns

namespace PrimaryElection

open HookM

structure Status.Coherent (st : Status) : Prop where
  known : st.isPrimary.isSome ↔ st.phase = .active
  self : st.isPrimary = some true →
    st.memberId.isSome ∧ st.memberId = st.primaryId ∧ st.failed = false ∧ st.primaryUrl.isSome
  located : st.primaryId = none ↔ st.primaryUrl = none
  failure : st.failed = true → st.primaryId = none ∧ st.primaryUrl = none
  fresh : st.memberId = none ↔ st.epoch = noEpoch

structure Status.Announces (st : Status) (scheme : String) (o : Outcome) (epoch : Int) : Prop where
  epoch : st.epoch = epoch
  primaryId : st.primaryId = o.primaryId?
  primaryUrl : st.primaryUrl = o.primaryIdentity?.map fun i => i.url scheme
  failed : st.failed = o.failed
  isPrimary : st.isPrimary = none

namespace Outcome

theorem primaryIdentity?_eq_none_iff (o : Outcome) : o.primaryIdentity? = none ↔ o.primaryId? = none := by
  cases o <;> simp [primaryIdentity?, primaryId?, primary?]

theorem primaryId?_of_failed {o : Outcome} (h : o.failed = true) : o.primaryId? = none := by
  cases o with
  | duplicateAddress => rfl
  | _ => cases h

theorem primaryId?_of_isPrimary {o : Outcome} {memberId : MemberId}
    (h : o.isPrimary (some memberId) = true) : o.primaryId? = some memberId := by
  simpa [isPrimary] using h

end Outcome

namespace Node

theorem primaryId_eq_none_iff (n : Node) : n.status.primaryId = none ↔ n.status.primaryUrl = none := by
  cases houtcome : n.outcome with
  | none => simp [status, houtcome]
  | some o => simp [status, houtcome, o.primaryIdentity?_eq_none_iff]

theorem primaryId_of_failed {n : Node} (h : n.status.failed = true) : n.status.primaryId = none := by
  cases houtcome : n.outcome with
  | none => simp [status, houtcome] at h
  | some o =>
    have hfailed : o.failed = true := by simpa [status, houtcome] using h
    simpa [status, houtcome] using Outcome.primaryId?_of_failed hfailed

theorem primaryId_of_isPrimary {n : Node} (h : n.status.isPrimary = some true) :
    ∃ a, n.accepted = some a ∧ n.status.primaryId = some a.memberId := by
  cases haccepted : n.accepted with
  | none => simp [status, isPrimary, outcome, haccepted] at h
  | some a =>
    have houtcome : n.outcome = some a.outcome := by rw [outcome, haccepted]; rfl
    have hprimary : a.outcome.isPrimary (some a.memberId) = true := by
      by_cases hactive : n.phase = .active <;>
        simp_all [status, isPrimary, memberId]
    refine ⟨a, rfl, ?_⟩
    simpa [status, houtcome] using Outcome.primaryId?_of_isPrimary hprimary

end Node

structure Node.Founded (n : Node) : Prop where
  held : n.phase = .active → n.accepted.isSome
  later : ∀ a, n.accepted = some a → noEpoch < a.epoch

inductive Node.Meets (n : Node) : Notice → Node → Prop
  | assigned (a : Acceptance) (metrics : Metrics.Snapshot) (later : n.epoch < a.epoch) :
    n.Meets (.assigned a.outcome a.epoch) { n with
      phase := .synced
      accepted := some a
      rejoinNeeded := false
      metrics := metrics }
  | revoked (metrics : Metrics.Snapshot) :
    n.Meets .revoked { n with
      phase := .revoking
      rejoinNeeded := true
      metrics := metrics }

namespace Node

namespace Founded

variable {n n' : Node}

theorem start (config : Config) (script : Script) : (Session.start config script).node.Founded where
  held := nofun
  later := nofun

theorem le_epoch (h : n.Founded) : noEpoch ≤ n.epoch := by
  unfold epoch
  cases haccepted : n.accepted with
  | none => exact Int.le_refl _
  | some a => exact Int.le_of_lt (h.later a haccepted)

theorem step {may : Acceptance → Prop} {given : List Notice} (h : n.Founded)
    (heffect : Effect may n n' given) : n'.Founded := by
  cases heffect with
  | silent haccepted _ hactive _ =>
    refine ⟨fun hp => ?_, ?_⟩ <;> rw [haccepted]
    · exact h.held (hactive.mp hp)
    · exact h.later
  | assigned a _ _ hlater _ haccepted =>
    refine ⟨fun _ => by rw [haccepted]; rfl, fun b hb => ?_⟩
    rw [haccepted] at hb
    cases hb
    exact Int.lt_of_le_of_lt h.le_epoch hlater
  | revoked _ hjoining haccepted _ =>
    refine ⟨fun hp => ?_, by rw [haccepted]; exact h.later⟩
    rw [hjoining] at hp
    cases hp

theorem meets {notice : Notice} (h : n.Founded) (hmeets : n.Meets notice n') : n'.Founded := by
  cases hmeets with
  | assigned a metrics hlater =>
    refine ⟨fun _ => rfl, fun b hb => ?_⟩
    cases hb
    exact Int.lt_of_le_of_lt h.le_epoch hlater
  | revoked metrics => exact ⟨nofun, h.later⟩

theorem rejoin (h : n.Founded) (wish : Bool) : Founded { n with rejoinNeeded := wish } :=
  ⟨h.held, h.later⟩

theorem isPrimary_isSome_iff (h : n.Founded) : n.isPrimary.isSome ↔ n.phase = .active := by
  unfold isPrimary outcome
  by_cases hactive : n.phase = .active
  · simp [hactive, h.held hactive]
  · simp [hactive]

theorem memberId_eq_none_iff (h : n.Founded) : n.memberId = none ↔ n.epoch = noEpoch := by
  unfold memberId epoch
  cases haccepted : n.accepted with
  | none => simp
  | some a => simp [Int.ne_of_gt (h.later a haccepted)]

theorem coherent (h : n.Founded) : n.status.Coherent where
  known := h.isPrimary_isSome_iff
  self := by
    intro hprimary
    obtain ⟨a, haccepted, hid⟩ := primaryId_of_isPrimary hprimary
    have hmember : n.status.memberId = some a.memberId := by simp [status, memberId, haccepted]
    refine ⟨by rw [hmember]; rfl, by rw [hmember, hid], ?_, ?_⟩
    · rw [← Bool.not_eq_true]
      intro hfailed
      rw [primaryId_of_failed hfailed] at hid
      cases hid
    · rw [Option.isSome_iff_ne_none, ne_eq, ← primaryId_eq_none_iff, hid]
      exact Option.some_ne_none _
  located := n.primaryId_eq_none_iff
  failure := fun hfailed =>
    ⟨primaryId_of_failed hfailed, n.primaryId_eq_none_iff.mp (primaryId_of_failed hfailed)⟩
  fresh := h.memberId_eq_none_iff

end Founded

theorem Meets.phase {n found : Node} {notice : Notice} (h : n.Meets notice found) :
    found.phase = notice.kind.phase := by
  cases h <;> rfl

theorem Meets.announces {n found : Node} {o : Outcome} {epoch : Int}
    (h : n.Meets (.assigned o epoch) found) (wish : Bool) :
    Status.Announces { found with rejoinNeeded := wish }.status n.config.scheme.name o epoch := by
  cases h
  constructor <;> rfl

end Node

structure Answer.Candid (kind : Notice.Kind) (found : Node) (a : Answer) : Prop where
  during : a.during = kind
  status : a.call = .status →
    ∃ wish, a.result = .ok (.status { found with rejoinNeeded := wish }.status)

structure Shown (kind : Notice.Kind) (found : Node) (r : Run) : Prop where
  node : r.node = { found with rejoinNeeded := r.node.rejoinNeeded }
  candid : ∀ a ∈ answers r.trace, a.Candid kind found

theorem after_perform_status {tell : Notice → HookM Unit} (c : Call) (r : Run) :
    After (perform tell c) r fun result _ => c = .status → result = .ok (.status r.node.status) := by
  cases c with
  | status => exact after_of_ok rfl fun _ => rfl
  | _ =>
    refine After.mono (P := fun _ _ => True) ?_ (by simp)
    exact after_left.mpr trivial

section listeners

variable {tell : Notice → HookM Unit} {kind : Notice.Kind} {found : Node} {r : Run}

theorem Shown.answered {c : Call} {result : Except Failure Reply} {s : Run} (h : Shown kind found r)
    (hplain : Plain c r s) (hstatus : c = .status → result = .ok (.status r.node.status)) :
    Shown kind found { s with trace := s.trace ++ [.answered ⟨kind, c, result, s.node.phase⟩] } where
  node := by rw [hplain.node, h.node]
  candid := by
    intro a ha
    rw [answers_append, hplain.answers, List.mem_append] at ha
    rcases ha with ha | ha
    · exact h.candid a ha
    · rw [List.mem_singleton.mp ha]
      refine ⟨rfl, fun hc => ⟨r.node.rejoinNeeded, ?_⟩⟩
      rw [← h.node]
      exact hstatus hc

theorem after_act_shown {a : Action} (h : Shown kind found r) (hphase : found.phase = kind.phase)
    (ha : ∀ c caught, a = .call c caught → Patient kind c) :
    After (act tell kind a) r fun _ r' => Shown kind found r' := by
  cases a with
  | raise message => exact after_throw h
  | call c caught =>
    have hentered : r.node.phase = kind.phase := by rw [h.node]; exact hphase
    apply after_act_call
    apply ((after_perform_refused hentered (ha c caught rfl)).and (after_perform_status c r)).mono
    rintro result s ⟨⟨hs, _⟩, hstatus⟩
    exact h.answered hs hstatus

theorem after_actAll_shown {actions : List Action} (h : Shown kind found r)
    (hphase : found.phase = kind.phase)
    (hactions : ∀ c caught, Action.call c caught ∈ actions → Patient kind c) :
    After (actAll tell kind actions) r fun _ r' => Shown kind found r' := by
  apply after_actAll_of _ h
  intro a ha s hs
  apply after_act_shown hs hphase
  rintro c caught rfl
  exact hactions c caught ha

theorem after_tell_shown {l : Conduct} (hl : l.Only Patient) {notice : Notice}
    (hphase : r.node.phase = notice.kind.phase) (hnone : answers r.trace = []) :
    After (l.tell notice) r fun _ r' => Shown notice.kind r.node r' := by
  have htold : ∀ t : Run, Told notice r t → Shown notice.kind r.node t := by
    intro t ht
    refine ⟨by rw [ht.node], ?_⟩
    rw [ht.answers, hnone]
    exact fun _ ha => (List.not_mem_nil ha).elim
  cases l with
  | silent => exact (told_hear notice r).after fun _ t ht => htold t ht.2
  | answers keeps actions inner =>
    apply Conduct.after_told
    intro s t ht
    exact after_actAll_shown (htold t ht) hphase (hl notice s).1

end listeners

inductive Glimpsed (n : Node) (r : Run) : Prop
  | unseen (untold : answers r.trace = [])
  | seen (notice : Notice) (found : Node) (meets : n.Meets notice found)
    (told : notices r.trace = [notice]) (candid : ∀ a ∈ answers r.trace, a.Candid notice.kind found)

section calls

variable {l : Conduct} {r : Run}

theorem after_told_glimpsed {n : Node} {notice : Notice} {target : Phase} (hl : l.Only Patient)
    (hmeets : n.Meets notice r.node) (hmove : notice.kind.phase.canMoveTo target = true)
    (hanswers : answers r.trace = []) (hnotices : notices r.trace = []) :
    After (do
      tellSafely l.tell notice
      Node.move target) r fun _ r' =>
        ∀ closed, closed.node = r'.node → Quiet r' closed → Glimpsed n closed := by
  have htell := (Conduct.heeds hl notice r trivial hmeets.phase).and
    (after_tell_shown hl hmeets.phase hanswers)
  have hgives : Gives (tellSafely l.tell notice) r fun _ s =>
      s.node.phase = notice.kind.phase ∧ notices s.trace = [notice] ∧
        ∀ a ∈ answers s.trace, a.Candid notice.kind r.node := by
    apply gives_tellSafely
    apply htell.mono
    rintro _ s ⟨⟨hheard, _⟩, hshown⟩ t ht hq
    refine ⟨by rw [ht, hheard.node]; exact hmeets.phase, ?_, ?_⟩
    · rw [hq.notices, hheard.notices, hnotices, List.nil_append]
    · rw [hq.answers]
      exact hshown.candid
  refine hgives.bind_after ?_
  rintro _ s ⟨hphase, htold, hcandid⟩
  apply (Node.gives_move (by rw [hphase]; exact hmove)).after
  rintro _ t ⟨_, hqt⟩ closed _ hqc
  have hq := hqt.trans hqc
  refine .seen notice r.node hmeets (hq.notices.trans htold) ?_
  rw [hq.answers]
  exact hcandid

theorem after_complete_glimpsed {epoch : Int} {memberId : MemberId} {data : Payload} (hl : l.Only Patient)
    (hrests : r.node.phase.Rests) (hanswers : answers r.trace = []) (hnotices : notices r.trace = []) :
    After (Node.complete l.tell epoch memberId data) r fun _ r' => Glimpsed r.node r' := by
  by_cases hactive : r.node.phase = .active
  · apply (Node.after_complete_refused (.inr (.inl hactive))).mono
    exact fun _ _ h => .unseen (h.2.2.answers.trans hanswers)
  have hphase := hrests.eq_of_ne_active hactive
  cases hdata : Outcome.decode data with
  | error e =>
    apply (Node.after_complete_undecodable hphase hdata).mono
    exact fun _ _ h => .unseen (h.2.2.answers.trans hanswers)
  | ok o =>
    by_cases hstale : epoch ≤ r.node.epoch
    · apply (Node.after_complete_stale hphase hdata hstale).mono
      exact fun _ _ h => .unseen (h.2.2.answers.trans hanswers)
    · have hlater := Int.not_le.mp hstale
      refine Node.after_complete_accepted hphase hdata hlater fun entered he hqe => ?_
      apply after_told_glimpsed hl _ rfl (hqe.answers.trans hanswers) (hqe.notices.trans hnotices)
      rw [he]
      exact .assigned ⟨epoch, memberId, o⟩ _ hlater

theorem after_revoke_glimpsed (hl : l.Only Patient) (hrests : r.node.phase.Rests)
    (hanswers : answers r.trace = []) (hnotices : notices r.trace = []) :
    After (Node.revoke l.tell) r fun _ r' => Glimpsed r.node r' := by
  by_cases hactive : r.node.phase = .active
  · refine Node.after_revoke_active hactive fun entered he hqe => ?_
    apply after_told_glimpsed hl _ rfl (hqe.answers.trans hanswers) (hqe.notices.trans hnotices)
    rw [he]
    exact .revoked _
  · apply (Node.after_revoke_idle (hrests.eq_of_ne_active hactive)).mono
    exact fun _ _ h => .unseen (h.2.2.answers.trans hanswers)

theorem after_perform_glimpsed {c : Call} (hl : l.Only Patient) (hrests : r.node.phase.Rests)
    (hanswers : answers r.trace = []) (hnotices : notices r.trace = []) :
    After (perform l.tell c) r fun _ r' => Glimpsed r.node r' := by
  cases hidle : c.idle with
  | true => exact (after_perform_plain hidle r).mono fun _ _ h => .unseen (h.answers.trans hanswers)
  | false =>
    cases c with
    | compute epoch leader members =>
      refine after_perform_compute ?_ fun _ _ => .unseen hanswers
      intro pairs _
      apply (Node.after_compute_quiet epoch leader (.ofList pairs) r).mono
      exact fun _ _ hq => .unseen (hq.answers.trans hanswers)
    | complete epoch memberId data =>
      refine after_perform_complete ?_ fun _ _ => .unseen hanswers
      exact fun payload _ => after_complete_glimpsed hl hrests hanswers hnotices
    | revoke => exact after_perform_revoke (after_revoke_glimpsed hl hrests hanswers hnotices)
    | _ => cases hidle

end calls

namespace Session

theorem Course.founded {config : Config} {script : Script} {s : Session} {events : List Event}
    (h : Course Patient (.start config script) s events) : s.node.Founded := by
  induction h with
  | begin => exact .start config script
  | call l c hcourse hl ih =>
    obtain ⟨given, heffect, _⟩ := runAs_effect c hl hcourse.rests
    exact ih.step heffect

/--
A node can be asked for its status at any time, and the parts of what it answers agree with each other. If
the listener asks while it is told of an assignment, it is shown that assignment already, but not yet
whether the node is the primary.
-/
theorem Course.always_coherent {config : Config} {script : Script} {s : Session} {events : List Event}
    (h : Course Patient (.start config script) s events) {l : Conduct} (hl : l.Only Patient) :
    (∃ st, (s.runAs l fun tell => perform tell .status).result = .ok (.status st) ∧ st.Coherent) ∧
    ∀ c,
      let ended := s.runAs l fun tell => perform tell c
      ∀ a ∈ answers ended.events, a.call = .status → ∃ st notice,
        a.result = .ok (.status st) ∧ st.Coherent ∧
        notices ended.events = [notice] ∧ notice.kind = a.during ∧
        ∀ o epoch, notice = .assigned o epoch → st.Announces config.scheme.name o epoch := by
  refine ⟨⟨s.node.status, rfl, h.founded.coherent⟩, ?_⟩
  intro c ended a ha hstatus
  have hglimpsed : Glimpsed s.node ⟨ended.session, ended.events⟩ :=
    runAs_of_after (fun tell => perform tell c)
      (after_perform_glimpsed (r := ⟨s, []⟩) hl h.rests rfl rfl)
  cases hglimpsed with
  | unseen huntold =>
    have hnone : answers ended.events = [] := huntold
    rw [hnone] at ha
    cases ha
  | seen notice found hmeets htold hcandid =>
    have hanswer := hcandid a ha
    obtain ⟨wish, hresult⟩ := hanswer.status hstatus
    have hcoherent := ((h.founded.meets hmeets).rejoin wish).coherent
    refine ⟨_, notice, hresult, hcoherent, htold, hanswer.during.symm, ?_⟩
    rintro o epoch rfl
    rw [← h.config_eq]
    exact hmeets.announces wish

def watchful : Conduct :=
  .answers (fun _ r => r.listener)
    (fun _ _ => [.call .status true, .call .revoke true, .call .status true, .raise "no"])
    fun _ _ => .silent

theorem watchful_only : watchful.Only Patient := by
  intro notice r
  refine ⟨?_, trivial⟩
  intro c caught hmem _
  simp only [List.mem_cons, List.not_mem_nil, reduceCtorEq, or_false, Action.call.injEq] at hmem
  rcases hmem with ⟨rfl, _⟩ | ⟨rfl, _⟩ | ⟨rfl, _⟩ <;> rfl

theorem Course.always_coherent_watchful :
    ∃ s events, Course Patient (.start default {}) s events ∧ watchful.Only Patient ∧
      s.node.phase = .joining ∧ s.node.epoch = 3 ∧
      let o : Outcome := .elected "me" { host := "here", port := 80, eligible := true }
      let draft : Outcome.Draft := .elected "me" (.of (.text "here") (.int 80) (.bool true))
      let ended := s.runAs watchful fun tell => perform tell (.complete 5 "me" (.outcome draft))
      ended.session.node.isPrimary = some true ∧ (answers ended.events).length = 3 ∧
      ∃ a ∈ answers ended.events, ∃ st, a.result = .ok (.status st) ∧ st.Coherent ∧
        st.Announces (default : Config).scheme.name o 5 := by
  have hbegin : Course Patient (.start default {}) (.start default {}) [] := .begin
  have hlost := hbegin.call watchful (.complete 3 "me" (.outcome .noCandidate)) watchful_only
  have hcourse := hlost.call watchful .revoke watchful_only
  refine ⟨_, _, hcourse, watchful_only, ?_, ?_, ?_⟩
  · decide +kernel
  · decide +kernel
  intro o draft ended
  have htold : notices ended.events = [.assigned o 5] := by decide +kernel
  have hany : ((answers ended.events).any fun a => a.call matches .status) = true := by decide +kernel
  obtain ⟨a, ha, hmatches⟩ := List.any_eq_true.mp hany
  have hasked : a.call = .status := by
    split at hmatches
    · assumption
    · cases hmatches
  obtain ⟨st, notice, hresult, hcoherent, hnotice, _, hannounces⟩ :=
    (hcourse.always_coherent watchful_only).2 (.complete 5 "me" (.outcome draft)) a ha hasked
  refine ⟨by decide +kernel, by decide +kernel, a, ha, st, hresult, hcoherent, hannounces o 5 ?_⟩
  exact (List.cons.inj (hnotice.symm.trans htold)).1

end Session

end PrimaryElection
