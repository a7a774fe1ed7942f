import Mathlib.Algebra.GroupWithZero.Nat
import PrimaryElection.Proofs.Settled

namespace PrimaryElection

open HookM

def Notice.failed : Notice → Bool
  | .assigned outcome _ => outcome.failed
  | .revoked => false

def Node.books (n : Node) (rounds : List (Roster Payload)) (unread : Nat) (told : List Notice) :
    Metrics.Snapshot where
  roundsComputed := rounds.length
  roundsCompleted := told.countP fun notice => notice.kind = .assigned
  roundsFailed := told.countP Notice.failed
  decodeFailures := (rounds.map Node.excluded).sum + unread
  revocations := told.countP fun notice => notice.kind = .revoked
  epoch := .int n.epoch
  isPrimary := .bool (n.isPrimary = some true)
  lastRoundMembers := .int ((rounds.getLast?.map Roster.size).getD 0 : Nat)
  lastRoundExcluded := .int ((rounds.getLast?.map Node.excluded).getD 0 : Nat)

theorem Node.excluded_le_size (members : Roster Payload) : excluded members ≤ members.size := by
  have hsize := size_readable members
  omega

inductive Posted (n n' : Node) : List (Roster Payload) → Nat → List Notice → Prop
  | nothing (metrics : n'.metrics = n.metrics) (accepted : n'.accepted = n.accepted)
    (active : n'.phase = .active ↔ n.phase = .active) : Posted n n' [] 0 []
  | computed (members : Roster Payload) (metrics : n'.metrics = Node.countRound n.metrics members)
    (accepted : n'.accepted = n.accepted) (free : n.phase ≠ .active) (free' : n'.phase ≠ .active) :
    Posted n n' [members] 0 []
  | unread (payload : Value) (metrics : n'.metrics = n.metrics.record (.decodeFailure payload))
    (accepted : n'.accepted = n.accepted) (free : n.phase ≠ .active) (free' : n'.phase ≠ .active) :
    Posted n n' [] 1 []
  | assigned (a : Acceptance) (metrics : n'.metrics = n.metrics.record (Node.completedMeasurement a))
    (accepted : n'.accepted = some a) (active : n'.phase = .active) :
    Posted n n' [] 0 [.assigned a.outcome a.epoch]
  | revoked (metrics : n'.metrics = n.metrics.record .revoked) (accepted : n'.accepted = n.accepted)
    (free' : n'.phase ≠ .active) : Posted n n' [] 0 [.revoked]

theorem Node.isPrimary_of_free {n : Node} (h : n.phase ≠ .active) : n.isPrimary = none := if_neg h

theorem Node.epoch_congr {n n' : Node} (h : n'.accepted = n.accepted) : n'.epoch = n.epoch := by
  rw [epoch, h, epoch]

theorem Node.isPrimary_congr {n n' : Node} (haccepted : n'.accepted = n.accepted)
    (hactive : n'.phase = .active ↔ n.phase = .active) : n'.isPrimary = n.isPrimary := by
  simp only [isPrimary, outcome, memberId, haccepted, hactive]

theorem same_okStatus (s : Outcome.Status) :
    (Value.text s.name).same Metrics.okStatus = decide (s = .ok) := by
  cases s <;> decide

namespace Posted

variable {n n' : Node} {rounds rounds' : List (Roster Payload)} {unread unread' : Nat}
  {told given : List Notice}

theorem books (hposted : Posted n n' rounds' unread' given)
    (h : n.metrics = n.books rounds unread told) :
    n'.metrics = n'.books (rounds ++ rounds') (unread + unread') (told ++ given) := by
  cases hposted with
  | nothing hmetrics haccepted hactive =>
    rw [hmetrics, h]
    simp only [Node.books, List.append_nil, Nat.add_zero, Node.epoch_congr haccepted,
      Node.isPrimary_congr haccepted hactive]
  | computed members hmetrics haccepted hfree hfree' =>
    rw [hmetrics, h]
    simp only [Node.books, Node.countRound, Node.epoch_congr haccepted, Node.isPrimary_of_free hfree,
      Node.isPrimary_of_free hfree', List.append_nil, List.length_append, List.length_singleton,
      List.map_append, List.map_singleton, List.sum_append, List.sum_singleton, List.getLast?_concat,
      Option.map_some, Option.getD_some, Nat.add_zero]
    congr 1
    omega
  | unread payload hmetrics haccepted hfree hfree' =>
    rw [hmetrics, h]
    simp only [Node.books, Metrics.Snapshot.record, Node.epoch_congr haccepted,
      Node.isPrimary_of_free hfree, Node.isPrimary_of_free hfree', List.append_nil, Nat.add_assoc]
  | assigned a hmetrics haccepted hactive =>
    have hepoch : n'.epoch = a.epoch := by
      rw [Node.epoch, haccepted]
      rfl
    have hprimary : n'.isPrimary = some (a.outcome.isPrimary (some a.memberId)) := by
      rw [Node.isPrimary, if_pos hactive, Node.outcome, Node.memberId, haccepted]
      rfl
    have hfailed : (if (Value.text a.outcome.status.name).same Metrics.okStatus then 0 else 1) =
        if Notice.failed (.assigned a.outcome a.epoch) then 1 else 0 := by
      rw [same_okStatus]
      cases hstatus : a.outcome.status <;> simp [Notice.failed, Outcome.failed, hstatus]
    rw [hmetrics, h]
    simp only [Node.books, Metrics.Snapshot.record, Node.completedMeasurement, hepoch, hprimary, hfailed,
      List.countP_append, List.countP_singleton, Notice.kind, List.append_nil, Nat.add_zero,
      Option.some.injEq, Bool.decide_eq_true]
    simp
  | revoked hmetrics haccepted hfree' =>
    rw [hmetrics, h]
    simp only [Node.books, Metrics.Snapshot.record, Node.epoch_congr haccepted,
      Node.isPrimary_of_free hfree', List.countP_append, List.countP_singleton, Notice.kind,
      Notice.failed, List.append_nil, Nat.add_zero]
    simp

end Posted

def Posts (deed : Option Deed) (r r' : Run) : Prop :=
  ∃ given, notices r'.trace = notices r.trace ++ given ∧
    Posted r.node r'.node (deed.toList.filterMap Deed.round?) (deed.toList.countP Deed.discards) given

theorem Posts.of_nothing {deed : Option Deed} {r r' : Run} (hmetrics : r'.node.metrics = r.node.metrics)
    (haccepted : r'.node.accepted = r.node.accepted)
    (hactive : r'.node.phase = .active ↔ r.node.phase = .active)
    (hnotices : notices r'.trace = notices r.trace)
    (hdeed : ∀ d, deed = some d → d.round? = none ∧ d.discards = false) : Posts deed r r' := by
  refine ⟨[], by rw [hnotices, List.append_nil], ?_⟩
  cases deed with
  | none => exact .nothing hmetrics haccepted hactive
  | some d =>
    obtain ⟨hround, hdiscards⟩ := hdeed d rfl
    simp only [Option.toList_some, List.filterMap_cons, hround, List.filterMap_nil,
      List.countP_singleton, hdiscards]
    exact .nothing hmetrics haccepted hactive

theorem Undisturbed.posts {deed : Option Deed} {r r' : Run} (h : Undisturbed r r')
    (hdeed : ∀ d, deed = some d → d.round? = none ∧ d.discards = false) : Posts deed r r' :=
  .of_nothing (by rw [h.node]) (by rw [h.node]) (by rw [h.phase]) h.notices hdeed

theorem Deed.refused_nothing {d : Deed} (h : d.refused = true) :
    d.round? = none ∧ d.discards = false := by
  cases d with
  | computed members failure => exact ⟨if_pos h, rfl⟩
  | completed data failure => exact ⟨rfl, by simp [discards, h]⟩

section posting

variable {own : Script → Prop} {tell : Notice → HookM Unit} {r : Run}

theorem after_compute_posts {epoch : Int} {leader : Value} {members : Roster Payload}
    (hrests : r.node.phase.Rests) :
    After (Node.compute epoch leader members) r fun result r' => Quiet r r' ∧
      Posts (some (.computed members (failure? result))) r r' := by
  by_cases hactive : r.node.phase = .active
  · apply (Node.after_compute_refused (.inl hactive)).mono
    rintro _ s ⟨rfl, hs, hq⟩
    refine ⟨hq, (Undisturbed.of_quiet hs hq).posts ?_⟩
    intro d hd
    cases hd
    exact Deed.refused_nothing rfl
  · apply (Node.after_compute hactive hrests.not_revoking).mono
    rintro result s ⟨hresult, hs, hq⟩
    have hround : (Deed.computed members (failure? result)).round? = some members := by
      rw [hresult]
      cases (Election.elect (Node.readable members) leader.text?).encode <;> rfl
    refine ⟨hq, [], by rw [hq.notices, List.append_nil], ?_⟩
    simp only [Option.toList_some, List.filterMap_cons, hround, List.filterMap_nil,
      List.countP_singleton, Deed.discards, Bool.false_eq_true, if_false]
    refine .computed members (by rw [hs]) (by rw [hs]) hactive ?_
    rw [hs]
    simp

theorem after_complete_posts {epoch : Int} {memberId : MemberId} {data : Payload}
    (hheeds : Heeds own tell) (hown : own r.listener.script) (hrests : r.node.phase.Rests) :
    After (Node.complete tell epoch memberId data) r fun result r' =>
      Fruitless r.broadcast r.trace r'.trace ∧ Posts (some (.completed data (failure? result))) r r' := by
  by_cases hactive : r.node.phase = .active
  · apply (Node.after_complete_refused (.inr (.inl hactive))).mono
    rintro _ s ⟨rfl, hs, hq⟩
    refine ⟨hq.fruitless _, (Undisturbed.of_quiet hs hq).posts ?_⟩
    intro d hd
    cases hd
    exact Deed.refused_nothing rfl
  have hphase := hrests.eq_of_ne_active hactive
  cases hdata : Outcome.decode data with
  | error e =>
    apply (Node.after_complete_undecodable hphase hdata).mono
    rintro _ s ⟨rfl, hs, hq⟩
    have hdiscards : (Deed.completed data none).discards = true := by
      simp [Deed.discards, Deed.refused, Deed.failure, hdata, Except.toOption]
    refine ⟨hq.fruitless _, [], by rw [hq.notices, List.append_nil], ?_⟩
    simp only [failure?, Option.toList_some, List.filterMap_cons, Deed.round?, List.filterMap_nil,
      List.countP_singleton, hdiscards, if_true]
    refine .unread _ (by rw [hs]) (by rw [hs]) hactive ?_
    rw [hs]
    simp
  | ok o =>
    have hread : ∀ d, some (Deed.completed data none) = some d → d.round? = none ∧ d.discards = false := by
      intro d hd
      cases hd
      simp [Deed.round?, Deed.discards, hdata, Except.toOption]
    by_cases hstale : epoch ≤ r.node.epoch
    · apply (Node.after_complete_stale hphase hdata hstale).mono
      rintro _ s ⟨rfl, hs, hq⟩
      refine ⟨hq.fruitless _, .of_nothing (by rw [hs]) (by rw [hs]) ?_ hq.notices hread⟩
      rw [hs]
      exact iff_of_false (by simp) hactive
    · apply (after_complete_heeded hheeds hown hphase hdata (Int.not_le.mp hstale)).mono
      rintro _ s ⟨rfl, _, hs, _, hn, hfruitless⟩
      refine ⟨hfruitless, _, hn, ?_⟩
      simp only [failure?, Option.toList_some, List.filterMap_cons, Deed.round?, List.filterMap_nil,
        List.countP_singleton, (hread _ rfl).2, Bool.false_eq_true, if_false]
      exact .assigned ⟨epoch, memberId, o⟩ (by rw [hs]) (by rw [hs]) (by rw [hs])

theorem after_revoke_posts (hheeds : Heeds own tell) (hown : own r.listener.script)
    (hrests : r.node.phase.Rests) :
    After (Node.revoke tell) r fun _ r' => Fruitless r.broadcast r.trace r'.trace ∧ Posts none r r' := by
  by_cases hactive : r.node.phase = .active
  · apply (after_revoke_heeded (hheeds .revoked) hown hactive).mono
    rintro _ s ⟨_, _, hs, _, hn, hfruitless⟩
    refine ⟨hfruitless, _, hn, .revoked (by rw [hs]) (by rw [hs]) ?_⟩
    rw [hs]
    simp
  · apply (Node.after_revoke_idle (hrests.eq_of_ne_active hactive)).mono
    rintro _ s ⟨_, hs, hq⟩
    refine ⟨hq.fruitless _, .of_nothing (by rw [hs]) (by rw [hs]) ?_ hq.notices (by simp)⟩
    rw [hs]
    exact iff_of_false (by simp) hactive

theorem after_perform_posts {c : Call} (hheeds : Heeds own tell) (hown : own r.listener.script)
    (hrests : r.node.phase.Rests) :
    After (perform tell c) r fun result r' => Fruitless r.broadcast r.trace r'.trace ∧
      Posts (c.deed? r.broadcast result) r r' := by
  cases hidle : c.idle with
  | true =>
    apply (after_perform_idle hidle r).mono
    intro result s hs
    rw [Call.deed?_of_idle hidle]
    exact ⟨hs.fruitless, hs.posts (by simp)⟩
  | false =>
    cases c with
    | compute epoch leader members =>
      apply after_perform_compute
      · intro pairs hpairs
        apply (after_compute_posts hrests).mono
        rintro result s ⟨hq, hposts⟩
        have hdeed : (Call.compute epoch leader members).deed? r.broadcast (result.map .assignments) =
            some (.computed (.ofList pairs) (failure? result)) := by
          simp [Call.deed?, hpairs, Except.toOption, failure?_map]
        rw [hdeed]
        exact ⟨hq.fruitless _, hposts⟩
      · intro e he
        refine ⟨(Quiet.refl r).fruitless _, (Undisturbed.refl r).posts ?_⟩
        simp [Call.deed?, he, Except.toOption]
    | complete epoch memberId data =>
      apply after_perform_complete
      · intro payload hpayload
        apply (after_complete_posts hheeds hown hrests).mono
        rintro result s ⟨hfruitless, hposts⟩
        have hdeed : (Call.complete epoch memberId data).deed? r.broadcast (result.map fun _ => .done) =
            some (.completed payload (failure? result)) := by
          simp [Call.deed?, hpayload, Except.toOption, failure?_map]
        rw [hdeed]
        exact ⟨hfruitless, hposts⟩
      · intro e he
        refine ⟨(Quiet.refl r).fruitless _, (Undisturbed.refl r).posts ?_⟩
        simp [Call.deed?, he, Except.toOption]
    | revoke => exact after_perform_revoke (after_revoke_posts hheeds hown hrests)
    | _ => cases hidle

end posting

namespace Session

def Ended.deeds (ended : Ended Reply) (broadcast : Roster Bytes) (c : Call) : List Deed :=
  ((answers ended.events).filterMap fun a => a.call.deed? broadcast a.result) ++
    (c.deed? broadcast ended.result).toList

/-- A course together with the deeds that it consists of. -/
inductive Chronicle (allowed : Notice.Kind → Call → Prop) (first : Session) :
    Session → List Event → List Deed → Prop
  | begin : Chronicle allowed first first [] []
  | call {s : Session} {events : List Event} {deeds : List Deed} (l : Conduct) (c : Call) :
    Chronicle allowed first s events deeds → l.Only allowed →
      Chronicle allowed first (s.runAs l fun tell => perform tell c).session
        (events ++ (s.runAs l fun tell => perform tell c).events)
        (deeds ++ (s.runAs l fun tell => perform tell c).deeds s.broadcast c)

theorem Chronicle.course {allowed : Notice.Kind → Call → Prop} {first s : Session} {events : List Event}
    {deeds : List Deed} (h : Chronicle allowed first s events deeds) : Course allowed first s events := by
  induction h with
  | begin => exact .begin
  | call l c _ hl ih => exact ih.call l c hl

theorem Chronicle.books {config : Config} {script : Script} {s : Session} {events : List Event}
    {deeds : List Deed} (h : Chronicle Patient (.start config script) s events deeds) :
    s.node.metrics = s.node.books (deeds.filterMap Deed.round?) (deeds.countP Deed.discards)
      (notices events) := by
  induction h with
  | begin => rfl
  | @call s events deeds l c hchronicle hl ih =>
    have hrests := hchronicle.course.accounted.settled.rests
    obtain ⟨⟨nested, hnested, hvain⟩, given, hgiven, hposted⟩ :=
      runAs_of_after (fun tell => perform tell c)
        (after_perform_posts (r := ⟨s, []⟩) (c := c) (Conduct.heeds hl) trivial hrests)
    have hanswers : answers (s.runAs l fun tell => perform tell c).events = nested := hnested
    -- Whatever round the listener tried to lead meanwhile was refused: only the call itself posts.
    have hrefused : ∀ d ∈ nested.filterMap (fun a => a.call.deed? s.broadcast a.result),
        d.round? = none ∧ d.discards = false := by
      intro d hd
      obtain ⟨a, ha, hdeed⟩ := List.mem_filterMap.mp hd
      exact Deed.refused_nothing (hvain a ha d hdeed)
    have hnorounds : (nested.filterMap fun a => a.call.deed? s.broadcast a.result).filterMap Deed.round? =
        [] := List.filterMap_eq_nil_iff.mpr fun d hd => (hrefused d hd).1
    have hnodiscards : (nested.filterMap fun a => a.call.deed? s.broadcast a.result).countP Deed.discards =
        0 := List.countP_eq_zero.mpr fun d hd => by simp [(hrefused d hd).2]
    have hbooks := hposted.books ih
    rw [Ended.deeds, hanswers, notices_append]
    simp only [List.filterMap_append, List.countP_append, hnorounds, hnodiscards, List.nil_append,
      Nat.zero_add]
    dsimp only at hgiven hbooks
    rw [hgiven]
    exact hbooks

/--
After every call from outside the measurements of a node are what its history says, however the calls
ended and whatever its listener asked for meanwhile.
-/
theorem Chronicle.measured_exactly {config : Config} {script : Script} {s : Session}
    {events : List Event} {deeds : List Deed}
    (h : Chronicle Patient (.start config script) s events deeds) :
    let rounds := deeds.filterMap Deed.round?
    let told := notices events
    let members := (rounds.getLast?.map Roster.size).getD 0
    let excluded := (rounds.getLast?.map Node.excluded).getD 0
    s.node.metrics.roundsComputed = rounds.length ∧
    s.node.metrics.roundsCompleted = told.countP (fun notice => notice.kind = .assigned) ∧
    s.node.metrics.roundsFailed = told.countP Notice.failed ∧
    s.node.metrics.revocations = told.countP (fun notice => notice.kind = .revoked) ∧
    s.node.metrics.decodeFailures = (rounds.map Node.excluded).sum + deeds.countP Deed.discards ∧
    s.node.metrics.epoch = .int s.node.epoch ∧
    s.node.metrics.isPrimary = .bool (s.node.isPrimary = some true) ∧
    s.node.metrics.lastRoundMembers = .int members ∧
    s.node.metrics.lastRoundExcluded = .int excluded ∧ excluded ≤ members := by
  intro rounds told members excluded
  have hexcluded : excluded ≤ members := by
    unfold excluded members
    cases rounds.getLast? with
    | none => exact Nat.le_refl 0
    | some round => exact Node.excluded_le_size round
  rw [h.books]
  exact ⟨rfl, rfl, rfl, rfl, rfl, rfl, rfl, rfl, rfl, hexcluded⟩

def halfReadableSources : List (MemberId × Source) :=
  [("me", .payload (.bytes [0, 0, 0, 1, 104, 0, 0, 0, 1, 1])), ("you", .payload (.foreign .null))]

theorem Chronicle.measured_exactly_restless :
    ∃ s events deeds, Chronicle Patient (.start default {}) s events deeds ∧
      (notices events).map Notice.kind = [.assigned, .revoked, .assigned] ∧
      (deeds.filterMap Deed.round?).length = 1 ∧ deeds.countP Deed.discards = 1 ∧
      s.node.metrics.roundsComputed = (deeds.filterMap Deed.round?).length ∧
      s.node.metrics.roundsCompleted = (notices events).countP (fun n => n.kind = .assigned) ∧
      s.node.metrics.roundsFailed = (notices events).countP Notice.failed ∧
      s.node.metrics.revocations = (notices events).countP (fun n => n.kind = .revoked) ∧
      s.node.metrics.decodeFailures = 2 := by
  have hbegin : Chronicle Patient (.start default {}) (.start default {}) [] [] := .begin
  have hled := hbegin.call restless (.compute 1 (.text "me") halfReadableSources) restless_only
  have hprimary := hled.call restless (.complete 1 "me" (.computed "me")) restless_only
  have hrefused := hprimary.call restless (.compute 2 (.text "me") halfReadableSources) restless_only
  have hrevoked := hrefused.call restless .revoke restless_only
  have hunread := hrevoked.call restless (.complete 2 "me" (.payload (.foreign .null))) restless_only
  have hstale := hunread.call restless (.complete 1 "me" (.outcome .noCandidate)) restless_only
  have hchronicle := hstale.call restless (.complete 3 "me" (.outcome .noCandidate)) restless_only
  have hmeasured := hchronicle.measured_exactly
  refine ⟨_, _, _, hchronicle, ?_, ?_, ?_, hmeasured.1, hmeasured.2.1, hmeasured.2.2.1,
    hmeasured.2.2.2.1, ?_⟩ <;> decide +kernel

end Session

end PrimaryElection
