import PrimaryElection.Proofs.Conduct
import PrimaryElection.Proofs.Deeds
import PrimaryElection.Proofs.Rosters

namespace PrimaryElection

open HookM

def notices (events : List Event) : List Notice :=
  events.filterMap fun
    | .notified notice => some notice
    | _ => none

theorem notices_append (l l' : List Event) : notices (l ++ l') = notices l ++ notices l' :=
  List.filterMap_append

def answers (events : List Event) : List Answer :=
  events.filterMap fun
    | .answered answer => some answer
    | _ => none

theorem answers_append (l l' : List Event) : answers (l ++ l') = answers l ++ answers l' :=
  List.filterMap_append

structure Quiet (r r' : Run) : Prop where
  listener : r'.listener = r.listener
  broadcast : r'.broadcast = r.broadcast
  notices : notices r'.trace = notices r.trace
  answers : answers r'.trace = answers r.trace

namespace Quiet

theorem refl (r : Run) : Quiet r r := ⟨rfl, rfl, rfl, rfl⟩

theorem trans {r r' r'' : Run} (h : Quiet r r') (h' : Quiet r' r'') : Quiet r r'' where
  listener := h'.listener.trans h.listener
  broadcast := h'.broadcast.trans h.broadcast
  notices := h'.notices.trans h.notices
  answers := h'.answers.trans h.answers

theorem of_trace {r r' : Run} {events : List Event} (hlistener : r'.listener = r.listener)
    (hbroadcast : r'.broadcast = r.broadcast) (htrace : r'.trace = r.trace ++ events)
    (hnotices : PrimaryElection.notices events = []) (hanswers : PrimaryElection.answers events = []) :
    Quiet r r' where
  listener := hlistener
  broadcast := hbroadcast
  notices := by rw [htrace, notices_append, hnotices, List.append_nil]
  answers := by rw [htrace, answers_append, hanswers, List.append_nil]

end Quiet

theorem Session.eq_with_of_quiet {s : Session} {r : Run} {n : Node} (hnode : r.node = n)
    (h : Quiet ⟨s, []⟩ r) : r.toSession = { s with node := n } := by
  cases s
  cases hsession : r.toSession
  have hlistener := h.listener
  have hbroadcast := h.broadcast
  simp_all

theorem Session.eq_of_quiet {s : Session} {r : Run} (hnode : r.node = s.node) (h : Quiet ⟨s, []⟩ r) :
    r.toSession = s := eq_with_of_quiet hnode h

theorem Phase.eq_joining_of_not_inRound {p : Phase} (hactive : p ≠ .active) (hrevoking : p ≠ .revoking)
    (h : p.inRound = false) : p = .joining := by
  cases p <;> simp_all [inRound]

theorem Phase.free_of_not_refused {p : Phase} (hfollowing : p ≠ .following)
    (h : ¬ (p = .synced ∨ p = .active ∨ p = .revoking)) : p = .joining ∨ p = .leading := by
  cases p <;> simp_all

namespace HookM

theorem after_node {α : Type} {f : Node → HookM α} {r : Run} {Q : Except Failure α → Run → Prop}
    (h : After (f r.node) r Q) : After (node >>= f) r Q := h

theorem after_get {α : Type} {f : Run → HookM α} {r : Run} {Q : Except Failure α → Run → Prop}
    (h : After (f r) r Q) : After (get >>= f) r Q := h

theorem after_ofExcept {α β : Type} {x : Except Failure α} {f : α → HookM β} {r : Run}
    {Q : Except Failure β → Run → Prop} (hok : ∀ a, x = .ok a → After (f a) r Q)
    (herror : ∀ e, x = .error e → Q (.error e) r) :
    After (MonadExcept.ofExcept x >>= f) r Q := by
  cases x with
  | ok a => exact hok a rfl
  | error e => exact herror e rfl

theorem gives_update (f : Node → Node) (r : Run) :
    Gives (update f) r fun _ r' => r'.node = f r.node ∧ Quiet r r' :=
  ⟨(), _, update_eq f r, rfl, rfl, rfl, rfl, rfl⟩

theorem gives_log (entry : LogEntry) (r : Run) :
    Gives (log entry) r fun _ r' => r'.node = r.node ∧ Quiet r r' :=
  ⟨(), _, log_eq entry r, rfl, .of_trace rfl rfl rfl rfl rfl⟩

theorem gives_mark (key : Attribute) (value : Value) (r : Run) :
    Gives (mark key value) r fun _ r' => r'.node = r.node ∧ Quiet r r' :=
  ⟨(), _, mark_eq key value r, rfl, .of_trace rfl rfl rfl rfl rfl⟩

theorem gives_measure (m : Metrics.Measurement) (r : Run) :
    Gives (measure m) r fun _ r' =>
      r'.node = { r.node with metrics := r.node.metrics.record m } ∧ Quiet r r' :=
  ⟨(), _, measure_eq m r, rfl, .of_trace rfl rfl rfl rfl rfl⟩

theorem inSpan_eq {α : Type} (hook : Hook) (attributes : List (Attribute × Value)) (work : HookM α)
    (r : Run) : inSpan hook attributes work r =
      match work { r with trace := r.trace ++ [.opened hook attributes] } with
      | .ok a r' => .ok a { r' with trace := r'.trace ++ [.closed hook none] }
      | .error e r' => .error e { r' with trace := r'.trace ++ [.closed hook (some e)] } := rfl

theorem after_inSpan_failure {α : Type} {hook : Hook} {attributes : List (Attribute × Value)} {work : HookM α}
    {r : Run} {Q : Except Failure α → Run → Prop}
    (h : After work { r with trace := r.trace ++ [.opened hook attributes] } fun result r' =>
      Q result { r' with trace := r'.trace ++ [.closed hook (failure? result)] }) :
    After (inSpan hook attributes work) r Q := by
  unfold After at h
  split at h
  · rename_i a r' hr'
    exact after_of_ok (by simp only [inSpan_eq, hr', failure?]) h
  · rename_i e r' hr'
    exact after_of_error (by simp only [inSpan_eq, hr', failure?]) h

theorem after_inSpan_closed {α : Type} {hook : Hook} {attributes : List (Attribute × Value)}
    {work : HookM α} {r : Run} {Q : Except Failure α → Run → Prop}
    (h : After work { r with trace := r.trace ++ [.opened hook attributes] } fun result r' =>
      ∀ failure, Q result { r' with trace := r'.trace ++ [.closed hook failure] }) :
    After (inSpan hook attributes work) r Q :=
  after_inSpan_failure (h.mono fun _ _ hq => hq _)

theorem after_inSpan {α : Type} {hook : Hook} {attributes : List (Attribute × Value)} {work : HookM α}
    {r : Run} {Q : Except Failure α → Run → Prop}
    (h : ∀ opened, opened.node = r.node → Quiet r opened → After work opened fun result r' =>
      ∀ closed, closed.node = r'.node → Quiet r' closed → Q result closed) :
    After (inSpan hook attributes work) r Q := by
  have hwork := h { r with trace := r.trace ++ [.opened hook attributes] } rfl
    (.of_trace rfl rfl rfl rfl rfl)
  apply after_inSpan_closed
  exact hwork.mono fun _ _ hclosed _ => hclosed _ rfl (.of_trace rfl rfl rfl rfl rfl)

theorem after_tellSafely {tell : Notice → HookM Unit} {notice : Notice} {r : Run}
    {Q : Except Failure Unit → Run → Prop}
    (h : After (tell notice) r fun result r' => (result = .ok () → Q (.ok ()) r') ∧
      ∀ e, result = .error e → Q (.ok ()) { r' with
        trace := r'.trace ++ [.logged (.listenerFailed notice.kind (noticeEpoch r'.node notice) e)] }) :
    After (tellSafely tell notice) r Q := by
  unfold After at h
  split at h
  · rename_i r' hr'
    exact after_of_ok (a := ()) (by simp only [tellSafely, hr']) (h.1 rfl)
  · rename_i e r' hr'
    exact after_of_ok (a := ()) (by simp only [tellSafely, hr', log_eq]) (h.2 e rfl)

theorem gives_tellSafely {tell : Notice → HookM Unit} {notice : Notice} {r : Run} {P : Run → Prop}
    (h : After (tell notice) r fun _ r' => ∀ r'', r''.node = r'.node → Quiet r' r'' → P r'') :
    Gives (tellSafely tell notice) r fun _ r' => P r' := by
  apply gives_of_after (a := ())
  apply after_tellSafely
  apply h.mono
  intro _ s hs
  constructor
  · exact fun _ => ⟨rfl, hs s rfl (.refl s)⟩
  · exact fun _ _ => ⟨rfl, hs _ rfl (.of_trace rfl rfl rfl rfl rfl)⟩

end HookM

namespace Node

theorem gives_move {target : Phase} {r : Run} (h : r.node.phase.canMoveTo target = true) :
    Gives (move target) r fun _ r' => r'.node = { r.node with phase := target } ∧ Quiet r r' :=
  ⟨(), _, move_eq_ok h, rfl, .of_trace rfl rfl rfl rfl rfl⟩

theorem gives_abandon {reason : Abandonment} {r : Run} (h : r.node.phase.inRound = true) :
    Gives (abandon reason) r fun _ r' =>
      r'.node = { r.node with phase := .joining, rejoinNeeded := true } ∧ Quiet r r' :=
  ⟨(), _, abandon_eq h, rfl, .of_trace rfl rfl (List.append_assoc _ _ _) rfl rfl⟩

def excluded (members : Roster Payload) : Nat :=
  members.values.countP fun p => (Identity.decode p).toOption.isNone

theorem size_readable (members : Roster Payload) :
    (readable members).size + excluded members = members.size := by
  have hsplit := List.length_eq_countP_add_countP (fun p => (Identity.decode p).toOption.isSome)
    (l := members.values)
  have hsize : members.size = members.values.length := by simp [Roster.size, Roster.values]
  rw [hsize, hsplit, readable, Roster.size_filterMap, excluded]
  simp only [Bool.not_eq_true, Option.isSome_eq_false_iff, Bool.decide_eq_true]

def countRound (m : Metrics.Snapshot) (members : Roster Payload) : Metrics.Snapshot :=
  { m with
    roundsComputed := m.roundsComputed + 1
    decodeFailures := m.decodeFailures + excluded members
    lastRoundMembers := .int members.size
    lastRoundExcluded := .int (excluded members) }

theorem gives_exclude (epoch : Int) (memberId : MemberId) (e : DecodeError) (r : Run) :
    Gives (exclude epoch memberId e) r fun _ r' => r'.node = { r.node with
      metrics := r.node.metrics.record (.decodeFailure (.text e.payload)) } ∧ Quiet r r' := by
  refine (gives_measure _ r).bind ?_
  rintro _ s ⟨hs, hquiet⟩
  refine (gives_log _ s).mono ?_
  rintro _ t ⟨ht, hquiet'⟩
  exact ⟨by rw [ht, hs], hquiet.trans hquiet'⟩

theorem gives_excludeUnreadable (epoch : Int) (members : List (MemberId × Payload)) (r : Run) :
    Gives (excludeUnreadable epoch members) r fun _ r' => r'.node = { r.node with
      metrics := { r.node.metrics with
        decodeFailures := r.node.metrics.decodeFailures +
          (members.map Prod.snd).countP (fun p => (Identity.decode p).toOption.isNone) } } ∧
      Quiet r r' := by
  induction members generalizing r with
  | nil => exact gives_pure ⟨rfl, .refl r⟩
  | cons e rest ih =>
    obtain ⟨memberId, payload⟩ := e
    unfold excludeUnreadable
    rw [List.map_cons, List.countP_cons]
    cases Identity.decode payload with
    | ok i => exact ih r
    | error e =>
      refine (gives_exclude epoch memberId e r).bind ?_
      rintro _ s ⟨hs, hqs⟩
      apply (ih s).mono
      rintro _ t ⟨ht, hqt⟩
      refine ⟨?_, hqs.trans hqt⟩
      rw [ht, hs]
      simp only [Metrics.Snapshot.record, Except.toOption, Option.isNone_none, if_true, Nat.add_assoc,
        Nat.add_comm]

def roundEntry (epoch : Int) (leader : Value) (members : Roster Payload) : LogEntry :=
  let round := readable members
  let outcome := Election.elect round leader.text?
  if outcome.failed then .conflict epoch (Election.conflictReport round)
  else .computed epoch leader outcome.primaryId? members.size (excluded members)

theorem after_broadcast_of {epoch : Int} {leader : Value} {members : Roster Payload} {r s : Run}
    {Q : Except Failure (Roster Bytes) → Run → Prop}
    (hexcluded : excludeUnreadable epoch members.entries r = .ok () s)
    (h : Q (((Election.elect (readable members) leader.text?).encode.map
        fun bytes => members.map fun _ => bytes).mapError .unwritable)
      { s with
        node := { s.node with
          metrics := s.node.metrics.record (.computed (.int members.size) (.int (excluded members))) }
        trace := s.trace ++ [.logged (roundEntry epoch leader members)] ++
          [.marked .outcomeStatus (.text (Election.elect (readable members) leader.text?).status.name)] ++
          [.marked .excludedCount (.int (excluded members))] ++
          [.measured (.computed (.int members.size) (.int (excluded members)))] }) :
    After (broadcast epoch leader members) r Q := by
  have hcount : members.size - (readable members).size = excluded members := by
    have hsize := size_readable members
    omega
  unfold roundEntry at h
  unfold broadcast
  refine after_bind_of_ok hexcluded ?_
  dsimp only at h ⊢
  rw [hcount]
  generalize Election.elect (readable members) leader.text? = o at h ⊢
  split
  all_goals
    rename_i hfailed
    simp only [hfailed, if_true] at h
    generalize o.encode = written at h ⊢
    cases written with
    | ok bytes => exact after_of_ok rfl h
    | error e => exact after_of_error rfl h

theorem after_broadcast (epoch : Int) (leader : Value) (members : Roster Payload) (r : Run) :
    After (broadcast epoch leader members) r fun result r' =>
      result = ((Election.elect (readable members) leader.text?).encode.map
        fun bytes => members.map fun _ => bytes).mapError .unwritable ∧
      r'.node = { r.node with metrics := countRound r.node.metrics members } ∧ Quiet r r' := by
  obtain ⟨_, s, hexcluded, hs, hqs⟩ := gives_excludeUnreadable epoch members.entries r
  apply after_broadcast_of hexcluded
  refine ⟨rfl, ?_, hqs.trans ?_⟩
  · rw [hs]
    rfl
  · exact .of_trace rfl rfl (by simp only [List.append_assoc]; rfl) rfl rfl

def leadEvents (p : Phase) : List Event :=
  (if p.inRound then [.logged (.abandoning p .superseded), .logged (.moved p .joining)] else []) ++
    [.logged (.moved .joining .leading)]

structure Led (r r' : Run) : Prop where
  node : r'.node = { r.node with
    phase := .leading
    rejoinNeeded := r.node.rejoinNeeded || r.node.phase.inRound }
  listener : r'.listener = r.listener
  broadcast : r'.broadcast = r.broadcast
  trace : ∃ attributes, r'.trace = r.trace ++ .opened .compute attributes :: leadEvents r.node.phase

theorem Led.quiet {r r' : Run} (h : Led r r') : Quiet r r' := by
  obtain ⟨attributes, htrace⟩ := h.trace
  apply Quiet.of_trace h.listener h.broadcast htrace <;> cases r.node.phase <;> rfl

theorem after_compute_of {epoch : Int} {leader : Value} {members : Roster Payload} {r : Run}
    {Q : Except Failure (Roster Bytes) → Run → Prop}
    (hactive : r.node.phase ≠ .active) (hrevoking : r.node.phase ≠ .revoking)
    (h : ∀ led, Led r led → After (broadcast epoch leader members) led fun result r' =>
      ∀ failure, Q result { r' with trace := r'.trace ++ [.closed .compute failure] }) :
    After (compute epoch leader members) r Q := by
  unfold compute
  refine after_node (after_inSpan_closed (after_node ?_))
  dsimp only
  split
  · rename_i hround
    refine after_bind_of_ok (abandon_eq hround) (after_bind_of_ok (move_eq_ok rfl) ?_)
    refine h _ ⟨by simp [hround], rfl, rfl, ?_⟩
    simp only [leadEvents, hround, if_true, List.append_assoc, List.cons_append, List.nil_append]
    exact ⟨_, rfl⟩
  · rename_i hround
    rw [Bool.not_eq_true] at hround
    have hjoining := Phase.eq_joining_of_not_inRound hactive hrevoking hround
    refine after_bind_of_ok (move_eq_ok (by rw [hjoining]; rfl)) ?_
    refine h _ ⟨by simp [hround], rfl, rfl, ?_⟩
    rw [hjoining]
    exact ⟨_, List.append_assoc _ _ _⟩

theorem after_compute {epoch : Int} {leader : Value} {members : Roster Payload} {r : Run}
    (hactive : r.node.phase ≠ .active) (hrevoking : r.node.phase ≠ .revoking) :
    After (compute epoch leader members) r fun result r' =>
      result = ((Election.elect (readable members) leader.text?).encode.map
        fun bytes => members.map fun _ => bytes).mapError .unwritable ∧
      r'.node = { r.node with
        phase := .leading
        rejoinNeeded := r.node.rejoinNeeded || r.node.phase.inRound
        metrics := countRound r.node.metrics members } ∧ Quiet r r' := by
  refine after_compute_of hactive hrevoking fun led hled => ?_
  refine (after_broadcast epoch leader members led).mono ?_
  rintro result s ⟨hresult, hs, hq⟩ failure
  refine ⟨hresult, by rw [hs, hled.node], ?_⟩
  exact hled.quiet.trans (hq.trans (.of_trace rfl rfl rfl rfl rfl))

theorem after_compute_refused_of {epoch : Int} {leader : Value} {members : Roster Payload} {r : Run}
    {Q : Except Failure (Roster Bytes) → Run → Prop}
    (h : r.node.phase = .active ∨ r.node.phase = .revoking)
    (hq : ∀ attributes failure, Q (.error (.transition r.node.phase .leading)) { r with
      trace := r.trace ++ [.opened .compute attributes] ++ [.closed .compute failure] }) :
    After (compute epoch leader members) r Q := by
  have hround : r.node.phase.inRound = false := by
    rcases h with h | h <;> rw [h] <;> rfl
  have hmove : r.node.phase.canMoveTo .leading = false := by
    rcases h with h | h <;> rw [h] <;> rfl
  unfold compute
  refine after_node (after_inSpan_closed (after_node ?_))
  simp only [hround, Bool.false_eq_true, if_false]
  exact after_of_error (bind_eq_of_error (move_eq_error hmove)) (hq _)

theorem after_compute_refused {epoch : Int} {leader : Value} {members : Roster Payload} {r : Run}
    (h : r.node.phase = .active ∨ r.node.phase = .revoking) :
    After (compute epoch leader members) r fun result r' =>
      result = .error (.transition r.node.phase .leading) ∧ r'.node = r.node ∧ Quiet r r' :=
  after_compute_refused_of h fun _ _ => ⟨rfl, rfl, .of_trace rfl rfl (List.append_assoc _ _ _) rfl rfl⟩

theorem after_compute_quiet (epoch : Int) (leader : Value) (members : Roster Payload) (r : Run) :
    After (compute epoch leader members) r fun _ r' => Quiet r r' := by
  by_cases hrefused : r.node.phase = .active ∨ r.node.phase = .revoking
  · exact (after_compute_refused hrefused).mono fun _ _ h => h.2.2
  · obtain ⟨hactive, hrevoking⟩ := not_or.mp hrefused
    exact (after_compute hactive hrevoking).mono fun _ _ h => h.2.2

theorem after_complete_refused {tell : Notice → HookM Unit} {epoch : Int} {memberId : MemberId}
    {data : Payload} {r : Run}
    (h : r.node.phase = .synced ∨ r.node.phase = .active ∨ r.node.phase = .revoking) :
    After (complete tell epoch memberId data) r fun result r' =>
      result = .error (.transition r.node.phase .synced) ∧ r'.node = r.node ∧ Quiet r r' := by
  unfold complete
  refine after_node (after_inSpan fun opened hopened hqo => after_node ?_)
  have hjoining : opened.node.phase ≠ .joining := by
    rw [hopened]
    rcases h with h | h | h <;> rw [h] <;> decide
  have hmove : opened.node.phase.canMoveTo .synced = false := by
    rw [hopened]
    rcases h with h | h | h <;> rw [h] <;> rfl
  simp only [hjoining, if_false]
  refine after_of_error (bind_eq_of_error (move_eq_error hmove)) ?_
  intro closed hclosed hqc
  exact ⟨by rw [hopened], by rw [hclosed, hopened], hqo.trans hqc⟩

theorem after_complete {tell : Notice → HookM Unit} {epoch : Int} {memberId : MemberId}
    {data : Payload} {r : Run} {Q : Except Failure Unit → Run → Prop}
    (hphase : r.node.phase = .joining ∨ r.node.phase = .leading)
    (h : ∀ s : Run, s.node = { r.node with phase := .synced } → Quiet r s →
      After (match Outcome.decode data with
        | .error e => do
          measure (.decodeFailure (.text e.payload))
          log (.undecodable epoch memberId e.fault)
          abandon .undecodable
        | .ok outcome => do
          let last := (← node).epoch
          if epoch ≤ last then
            log (.stale epoch last memberId)
            abandon .stale
          else
            accept ⟨epoch, memberId, outcome⟩
            tellSafely tell (.assigned outcome epoch)
            move .active) s fun result r' =>
        ∀ closed, closed.node = r'.node → Quiet r' closed → Q result closed) :
    After (complete tell epoch memberId data) r Q := by
  unfold complete
  refine after_node (after_inSpan fun opened hopened hqo => after_node ?_)
  dsimp only
  split
  · rename_i hjoining
    refine (gives_move (by rw [hjoining]; rfl)).bind_after ?_
    rintro _ s ⟨hs, hqs⟩
    refine (gives_move (by rw [hs]; rfl)).bind_after ?_
    rintro _ t ⟨ht, hqt⟩
    exact h t (by rw [ht, hs, hopened]) ((hqo.trans hqs).trans hqt)
  · rename_i hnot
    rw [hopened] at hnot
    have hleading := hphase.resolve_left hnot
    refine (gives_move (by rw [hopened, hleading]; rfl)).bind_after ?_
    rintro _ t ⟨ht, hqt⟩
    exact h t (by rw [ht, hopened]) (hqo.trans hqt)

theorem after_complete_undecodable {tell : Notice → HookM Unit} {epoch : Int} {memberId : MemberId}
    {data : Payload} {r : Run} {e : DecodeError}
    (hphase : r.node.phase = .joining ∨ r.node.phase = .leading)
    (hdata : Outcome.decode data = .error e) :
    After (complete tell epoch memberId data) r fun result r' =>
      result = .ok () ∧ r'.node = { r.node with
        phase := .joining
        rejoinNeeded := true
        metrics := r.node.metrics.record (.decodeFailure (.text e.payload)) } ∧ Quiet r r' := by
  refine after_complete hphase fun s hs hqs => ?_
  rw [hdata]
  refine (gives_measure _ s).bind_after ?_
  rintro _ t ⟨ht, hqt⟩
  refine (gives_log _ t).bind_after ?_
  rintro _ u ⟨hu, hqu⟩
  refine (gives_abandon (by rw [hu, ht, hs]; rfl)).after ?_
  rintro _ v ⟨hv, hqv⟩ closed hclosed hqc
  refine ⟨rfl, by rw [hclosed, hv, hu, ht, hs], ?_⟩
  exact (((hqs.trans hqt).trans hqu).trans hqv).trans hqc

theorem after_complete_stale {tell : Notice → HookM Unit} {epoch : Int} {memberId : MemberId}
    {data : Payload} {r : Run} {o : Outcome}
    (hphase : r.node.phase = .joining ∨ r.node.phase = .leading)
    (hdata : Outcome.decode data = .ok o) (hstale : epoch ≤ r.node.epoch) :
    After (complete tell epoch memberId data) r fun result r' =>
      result = .ok () ∧ r'.node = { r.node with phase := .joining, rejoinNeeded := true } ∧
        Quiet r r' := by
  refine after_complete hphase fun s hs hqs => ?_
  rw [hdata]
  refine after_node ?_
  have hepoch : s.node.epoch = r.node.epoch := by rw [hs]; rfl
  simp only [hepoch, hstale, if_true]
  refine (gives_log _ s).bind_after ?_
  rintro _ t ⟨ht, hqt⟩
  refine (gives_abandon (by rw [ht, hs]; rfl)).after ?_
  rintro _ u ⟨hu, hqu⟩ closed hclosed hqc
  exact ⟨rfl, by rw [hclosed, hu, ht, hs], ((hqs.trans hqt).trans hqu).trans hqc⟩

def completedMeasurement (a : Acceptance) : Metrics.Measurement :=
  .completed (.text a.outcome.status.name) (.int a.epoch) (.bool (a.outcome.isPrimary (some a.memberId)))

theorem gives_accept (a : Acceptance) (r : Run) :
    Gives (accept a) r fun _ r' =>
      r'.node = { r.node with
        accepted := some a
        rejoinNeeded := false
        metrics := r.node.metrics.record (completedMeasurement a) } ∧ Quiet r r' := by
  unfold accept
  refine (gives_update _ r).bind ?_
  rintro _ s ⟨hs, hqs⟩
  refine (gives_mark _ _ s).bind ?_
  rintro _ t ⟨ht, hqt⟩
  refine (gives_mark _ _ t).bind ?_
  rintro _ u ⟨hu, hqu⟩
  have hend : ∀ v : Run, v.node = u.node → Quiet u v → Gives (do
      measure (completedMeasurement a)
      log (.completed a.epoch a.memberId a.outcome)) v fun _ r' =>
        r'.node = { r.node with
          accepted := some a
          rejoinNeeded := false
          metrics := r.node.metrics.record (completedMeasurement a) } ∧ Quiet r r' := by
    intro v hv hqv
    refine (gives_measure _ v).bind ?_
    rintro _ w ⟨hw, hqw⟩
    refine (gives_log _ w).mono ?_
    rintro _ x ⟨hx, hqx⟩
    refine ⟨by rw [hx, hw, hv, hu, ht, hs], ?_⟩
    exact ((((hqs.trans hqt).trans hqu).trans hqv).trans hqw).trans hqx
  split
  · refine (gives_mark _ _ u).bind ?_
    rintro _ v ⟨hv, hqv⟩
    exact hend v hv hqv
  · exact hend u rfl (.refl u)

theorem after_complete_accepted {tell : Notice → HookM Unit} {epoch : Int} {memberId : MemberId}
    {data : Payload} {r : Run} {o : Outcome} {Q : Except Failure Unit → Run → Prop}
    (hphase : r.node.phase = .joining ∨ r.node.phase = .leading)
    (hdata : Outcome.decode data = .ok o) (hlater : r.node.epoch < epoch)
    (h : ∀ entered : Run, entered.node = { r.node with
        phase := .synced
        accepted := some ⟨epoch, memberId, o⟩
        rejoinNeeded := false
        metrics := r.node.metrics.record (completedMeasurement ⟨epoch, memberId, o⟩) } →
      Quiet r entered → After (do
        tellSafely tell (.assigned o epoch)
        move .active) entered fun result r' =>
          ∀ closed, closed.node = r'.node → Quiet r' closed → Q result closed) :
    After (complete tell epoch memberId data) r Q := by
  refine after_complete hphase fun s hs hqs => ?_
  rw [hdata]
  refine after_node ?_
  have hepoch : s.node.epoch = r.node.epoch := by rw [hs]; rfl
  simp only [hepoch, Int.not_le.mpr hlater, if_false]
  refine (gives_accept _ s).bind_after ?_
  rintro _ t ⟨ht, hqt⟩
  exact h t (by rw [ht, hs]) (hqs.trans hqt)

theorem gives_needRejoin (r : Run) :
    Gives needRejoin r fun _ r' => r'.node = { r.node with rejoinNeeded := true } ∧ Quiet r r' :=
  gives_update _ r

theorem revoke_revoking {tell : Notice → HookM Unit} {r : Run} (h : r.node.phase = .revoking) :
    revoke tell r = .ok () r := by
  simp only [revoke, bind_eq_of_ok (node_eq r), h]
  rfl

theorem gives_revoke_synced {tell : Notice → HookM Unit} {r : Run} (h : r.node.phase = .synced) :
    Gives (revoke tell) r fun _ r' => r'.node = { r.node with rejoinNeeded := true } ∧ Quiet r r' := by
  have hrevoke : revoke tell r = (log (.revokeDeferred r.node.epoch) >>= fun _ => needRejoin) r := by
    simp only [revoke, bind_eq_of_ok (node_eq r), h]
  unfold Gives
  rw [hrevoke]
  refine (gives_log _ r).bind ?_
  rintro _ s ⟨hs, hqs⟩
  refine (gives_needRejoin s).mono ?_
  rintro _ t ⟨ht, hqt⟩
  exact ⟨by rw [ht, hs], hqs.trans hqt⟩

theorem after_revoke {tell : Notice → HookM Unit} {r : Run} {Q : Except Failure Unit → Run → Prop}
    (hsynced : r.node.phase ≠ .synced) (hrevoking : r.node.phase ≠ .revoking)
    (h : ∀ s : Run, s.node = { r.node with rejoinNeeded := true } → Quiet r s →
      After (do
        if r.node.phase.inRound then abandon .revoked
        else if r.node.phase = .active then surrender tell) s fun result r' =>
          ∀ closed, closed.node = r'.node → Quiet r' closed → Q result closed) :
    After (revoke tell) r Q := by
  unfold revoke
  refine after_node ?_
  split
  · rename_i hp
    exact (hrevoking hp).elim
  · rename_i hp
    exact (hsynced hp).elim
  · refine after_inSpan fun opened hopened hqo => ?_
    refine (gives_needRejoin opened).bind_after ?_
    rintro _ s ⟨hs, hqs⟩
    exact h s (by rw [hs, hopened]) (hqo.trans hqs)

theorem after_revoke_idle {tell : Notice → HookM Unit} {r : Run}
    (hphase : r.node.phase = .joining ∨ r.node.phase = .leading) :
    After (revoke tell) r fun result r' =>
      result = .ok () ∧ r'.node = { r.node with phase := .joining, rejoinNeeded := true } ∧
        Quiet r r' := by
  rcases hphase with hp | hp
  · refine after_revoke (by rw [hp]; decide) (by rw [hp]; decide) fun s hs hqs => ?_
    simp only [hp, Phase.inRound, reduceCtorEq, if_false]
    refine after_pure fun closed hclosed hqc => ⟨rfl, ?_, hqs.trans hqc⟩
    rw [hclosed, hs, ← hp]
  · refine after_revoke (by rw [hp]; decide) (by rw [hp]; decide) fun s hs hqs => ?_
    simp only [hp, Phase.inRound, if_true]
    refine (gives_abandon (by rw [hs, hp]; rfl)).after ?_
    rintro _ t ⟨ht, hqt⟩ closed hclosed hqc
    exact ⟨rfl, by rw [hclosed, ht, hs], (hqs.trans hqt).trans hqc⟩

theorem after_revoke_active {tell : Notice → HookM Unit} {r : Run}
    {Q : Except Failure Unit → Run → Prop} (hphase : r.node.phase = .active)
    (h : ∀ entered : Run, entered.node = { r.node with
        phase := .revoking
        rejoinNeeded := true
        metrics := r.node.metrics.record .revoked } →
      Quiet r entered → After (do
        tellSafely tell .revoked
        move .joining) entered fun result r' =>
          ∀ closed, closed.node = r'.node → Quiet r' closed → Q result closed) :
    After (revoke tell) r Q := by
  refine after_revoke (by rw [hphase]; decide) (by rw [hphase]; decide) fun s hs hqs => ?_
  simp only [hphase, Phase.inRound, if_true]
  refine (gives_move (by rw [hs, hphase]; rfl)).bind_after ?_
  rintro _ t ⟨ht, hqt⟩
  refine (gives_measure _ t).bind_after ?_
  rintro _ u ⟨hu, hqu⟩
  refine after_node (after_node ((gives_log _ u).bind_after ?_))
  rintro _ v ⟨hv, hqv⟩
  exact h v (by rw [hv, hu, ht, hs]) (((hqs.trans hqt).trans hqu).trans hqv)

theorem gives_requestRejoin (reason : Value) (r : Run) :
    Gives (requestRejoin reason) r fun _ r' =>
      r'.node = { r.node with rejoinNeeded := true } ∧ Quiet r r' := by
  unfold requestRejoin
  have hend : ∀ s : Run, s.node = r.node → Quiet r s → Gives needRejoin s fun _ r' =>
      r'.node = { r.node with rejoinNeeded := true } ∧ Quiet r r' := by
    intro s hs hqs
    refine (gives_needRejoin s).mono ?_
    rintro _ t ⟨ht, hqt⟩
    exact ⟨by rw [ht, hs], hqs.trans hqt⟩
  change Gives (if !r.node.rejoinNeeded then _ else _) r _
  split
  · refine (gives_log _ r).bind ?_
    rintro _ s ⟨hs, hqs⟩
    exact hend s hs hqs
  · exact hend r rfl (.refl r)

theorem metadata_eq {i : Identity} {r : Run} (h : r.node.config.identity = .ok i) :
    metadata r = (MonadExcept.ofExcept (i.encode.mapError Failure.unwritable) : HookM Bytes)
      { r with trace := r.trace ++ [.logged (.submitting i)] } := by
  simp only [metadata, identity, bind_assoc, bind_eq_of_ok (node_eq r), h]
  change (log (.submitting i) >>= fun _ => MonadExcept.ofExcept (i.encode.mapError .unwritable)) r = _
  rw [bind_eq_of_ok (log_eq _ r)]

theorem after_metadata (r : Run) :
    After metadata r fun result r' => Lawful result ∧ r'.node = r.node ∧ Quiet r r' := by
  unfold metadata identity
  simp only [bind_assoc]
  refine after_node (after_ofExcept ?_ ?_)
  · intro i _
    refine (gives_log (.submitting i) r).bind_after ?_
    rintro _ s ⟨hs, hqs⟩
    have hlawful := lawful_mapError (f := Failure.unwritable) (fun _ => rfl) i.encode
    cases hencode : i.encode.mapError Failure.unwritable with
    | error e => exact after_of_error rfl ⟨hencode ▸ hlawful, hs, hqs⟩
    | ok bytes => exact after_of_ok rfl ⟨hencode ▸ hlawful, hs, hqs⟩
  · intro e he
    have hlawful := lawful_mapError (f := Failure.invalidIdentity) (fun _ => rfl) r.node.config.identity
    refine ⟨?_, rfl, .refl r⟩
    intro source target h
    exact hlawful source target (he.trans (congrArg Except.error (Except.error.inj h)))

end Node

end PrimaryElection
