import PrimaryElection.Proofs.Bookkeeping
import PrimaryElection.Proofs.Totals
import PrimaryElection.Proofs.Weaving

namespace PrimaryElection

open HookM

namespace Trace.Tracer

def openSpans : Tracer → Nat
  | absent => 0
  | recorder r => r.stack.length
  | exporter e => e.stack.length

theorem openSpans_openSpan (name : String) (attributes : List (Text × Value)) (t : Tracer) :
    (t.openSpan name attributes).openSpans - 1 = t.openSpans := by
  cases t <;> rfl

theorem openSpans_closeSpan (failure : Option Failure) (t : Tracer) :
    (t.closeSpan failure).openSpans = t.openSpans - 1 := by
  cases t with
  | absent => rfl
  | recorder r => simp [closeSpan, Recorder.closeSpan, openSpans]
  | exporter e => cases hstack : e.stack <;> simp [closeSpan, Exporter.closeSpan, openSpans, hstack]

theorem openSpans_mark (key : Text) (value : Value) (t : Tracer) :
    (t.mark key value).openSpans = t.openSpans := by
  cases t with
  | absent => rfl
  | recorder r => cases hstack : r.stack <;> simp [mark, Recorder.mark, openSpans, hstack]
  | exporter e => cases hstack : e.stack <;> simp [mark, Exporter.mark, openSpans, hstack]

theorem openSpans_forget (t : Tracer) : t.forget.openSpans = t.openSpans := by
  cases t <;> rfl

end Trace.Tracer

theorem Spanned.openSpans {es : List Event} (h : Spanned es) (t : Trace.Tracer) :
    (es.foldl Trace.Tracer.follow t).openSpans = t.openSpans := by
  induction h generalizing t with
  | nil => rfl
  | @passing e he =>
    cases e with
    | marked key value => exact t.openSpans_mark key.key value
    | logged _ | notified _ | answered _ => rfl
    | opened _ _ | closed _ _ | measured _ => cases he
  | measured m => rfl
  | append _ _ ih ih' => rw [List.foldl_append, ih', ih]
  | span hook attributes failure _ ih =>
    simp only [List.cons_append, List.foldl_cons, List.foldl_append, List.foldl_nil]
    exact (Trace.Tracer.openSpans_closeSpan _ _).trans (by rw [ih]; exact t.openSpans_openSpan _ _)

namespace Metrics.Registry

def snapshot? (r : Registry) (serial : Nat) : Option Snapshot :=
  (r.container? serial).map Container.snapshot

theorem snapshot?_record {x : Measurement} (hx : x.Taken) (r : Registry) (serial : Nat) :
    (r.record serial x).2.snapshot? serial = (r.snapshot? serial).map fun s => s.record x := by
  cases hc : r.container? serial with
  | none => simp [record, snapshot?, hc]
  | some c =>
    have hrefuses : (r.meterOf? c).bind (fun meter => meter.refuses x) = none := by
      cases r.meterOf? c with
      | none => rfl
      | some m => exact Meter.refuses_of_taken hx m
    have hmodified := container?_modify r serial serial
      (f := fun o => o.map fun c => { c with snapshot := c.snapshot.record x }) rfl
    rw [if_pos rfl, hc] at hmodified
    simp only [record, snapshot?, hc, hrefuses]
    exact congrArg (Option.map Container.snapshot) hmodified

theorem snapshot?_foldl {xs : List Measurement} (hxs : ∀ x ∈ xs, x.Taken) (r : Registry) (serial : Nat) :
    (xs.foldl (fun r x => (r.record serial x).2) r).snapshot? serial =
      (r.snapshot? serial).map fun s => xs.foldl Snapshot.record s := by
  induction xs generalizing r with
  | nil => simp
  | cons x rest ih =>
    obtain ⟨hx, hrest⟩ := List.forall_mem_cons.mp hxs
    rw [List.foldl_cons, ih hrest, snapshot?_record hx, Option.map_map]
    rfl

theorem snapshot?_create {r r' : Registry} {group : Value} {enable : Bool} {serial : Nat}
    (h : r.create group enable = (.ok serial, r')) : r'.snapshot? serial = some {} := by
  unfold create at h
  split at h
  · dsimp only at h
    split at h
    · cases h
    · cases h
      simp [snapshot?, container?, add]
  · cases h
    simp [snapshot?, container?]

end Metrics.Registry

def Response.asReply : Response → Reply
  | .reply r => r
  | .exported _ => .exported

theorem Response.asReply_of (registry : Metrics.Registry) (r : Reply) :
    (Response.of registry r).asReply = r := by
  cases r <;> rfl

def Nested.answer (n : Nested) : Answer := ⟨n.during, n.call, n.result.map Response.asReply, n.phase⟩

theorem map_asReply_of (registry : Metrics.Registry) (result : Except Failure Reply) :
    (result.map (Response.of registry)).map Response.asReply = result := by
  cases result with
  | ok r => exact congrArg Except.ok (Response.asReply_of registry r)
  | error e => rfl

namespace Sighting

theorem registry_foldl (container : Nat) (es : List Event) (s : Sighting Unit) :
    (es.foldl (follow () container) s).registry =
      (measurements es).foldl (fun r x => (r.record container x).2) s.registry := by
  induction es generalizing s with
  | nil => rfl
  | cons e rest ih =>
    rw [List.foldl_cons, ih]
    cases e <;> rfl

theorem nested_foldl (container : Nat) (es : List Event) (s : Sighting Unit) :
    ((es.foldl (follow () container) s).nested.map fun n => n.2.answer) =
      (s.nested.map fun n => n.2.answer) ++ answers es := by
  induction es generalizing s with
  | nil => exact (List.append_nil _).symm
  | cons e rest ih =>
    rw [List.foldl_cons, ih]
    cases e with
    | answered a =>
      simp only [follow, List.map_append, List.map_cons, List.map_nil, Nested.answer, map_asReply_of,
        List.append_assoc]
      rfl
    | _ => rfl

end Sighting

structure Transcript where
  result : Except Failure Reply
  logs : List (Log.Record Failure)
  asked : List Answer
  session : Session
  snapshot : Option Metrics.Snapshot

namespace Session

def callAs (s : Session) (l : Conduct) (c : Call) : Ended Reply := s.runAs l fun tell => perform tell c

def measured (s : Session) : List (Conduct × Call) → List Metrics.Measurement
  | [] => []
  | (l, c) :: rest => measurements (s.callAs l c).events ++ (s.callAs l c).session.measured rest

def Ended.transcript (ended : Ended Reply) (groupId : Value) : Transcript where
  result := ended.result
  logs := logsOf groupId ended.events
  asked := answers ended.events
  session := ended.session
  snapshot := some ended.session.node.metrics

def transcripts (s : Session) : List (Conduct × Call) → List Transcript
  | [] => []
  | (l, c) :: rest =>
    (s.callAs l c).transcript s.node.config.groupId :: (s.callAs l c).session.transcripts rest

end Session

namespace Monitor

def startIn (r : Metrics.Registry) (config : Config) (script : Script) (tracing : Trace.Kind)
    (enable : Bool) : Except Metrics.Error Monitor :=
  match r.create config.groupId enable with
  | (.ok container, registry) => .ok ⟨Session.start config script, tracing.start, registry, container⟩
  | (.error e, _) => .error e

theorem start_eq_startIn (config : Config) (script : Script) (tracing : Trace.Kind) (metered : Bool) :
    start config script tracing metered =
      startIn (if metered then Metrics.Registry.install {} else {}) config script tracing metered := rfl

def report (m : Monitor) (result : Except Failure Reply) (w : Watch) : Report × Monitor :=
  (⟨result.map (Response.of w.seen.registry), logsOf m.session.node.config.groupId w.trace,
      w.seen.nested.map Prod.snd⟩,
    { m with
      session := w.toSession
      tracer := w.tracer
      registry := w.seen.registry })

def watch (m : Monitor) : Watch := ⟨⟨m.session, []⟩, m.tracer.forget, m.registry, []⟩

def attend (m : Monitor) (work : WatchM Reply) : Report × Monitor :=
  match work m.watch with
  | .ok reply w => m.report (.ok reply) w
  | .error e w => m.report (.error e) w

def shown (m : Monitor) (ended : Session.Ended Reply) : Report × Monitor :=
  m.report ended.result (m.watch.after m.container ended.events ⟨ended.session, ended.events⟩)

def callAs (m : Monitor) (l : Conduct) (c : Call) : Report × Monitor := m.shown (m.session.callAs l c)

theorem call_eq_callAs (m : Monitor) (c : Call) :
    m.call c = m.callAs (.scripted m.session.listener.script.size) c := by
  unfold call Session.call
  rw [Session.run_eq_runAs]
  rfl

def callAll (m : Monitor) : List (Conduct × Call) → List (Report × Monitor)
  | [] => []
  | (l, c) :: rest => m.callAs l c :: (m.callAs l c).2.callAll rest

/-- The calls one after the other, with the observers at work during each of them. -/
inductive Attends : Monitor → List (Conduct × Call) → List (Report × Monitor) → Prop
  | done (m : Monitor) : Attends m [] []
  | call {m : Monitor} {l : Conduct} {c : Call} {work : WatchM Reply} {rest : List (Conduct × Call)}
    {seen : List (Report × Monitor)} : Woven m.container (perform l.tell c) work →
      Attends (m.attend work).2 rest seen → Attends m ((l, c) :: rest) (m.attend work :: seen)

def snapshot? (m : Monitor) : Option Metrics.Snapshot := m.registry.snapshot? m.container

structure InStep (m : Monitor) : Prop where
  snapshot : m.snapshot? = some m.session.node.metrics
  spans : m.tracer.openSpans = 0

def transcript (seen : Report × Monitor) : Transcript where
  result := seen.1.result.map Response.asReply
  logs := seen.1.logs
  asked := seen.1.nested.map Nested.answer
  session := seen.2.session
  snapshot := seen.2.snapshot?

variable {m m' : Monitor} {l : Conduct} {c : Call} {steps : List (Conduct × Call)}

theorem attended {work : WatchM Reply} (hwork : Woven m.container (perform l.tell c) work) :
    Attended m.container m.watch work (m.session.callAs l c).events (m.session.callAs l c).result
      ⟨(m.session.callAs l c).session, (m.session.callAs l c).events⟩ := by
  obtain ⟨events, hevents⟩ :=
    Session.runAs_of_after (s := m.session) (fun tell => perform tell c) (hwork.attended m.watch)
  have htrace : (m.session.callAs l c).events = events := hevents.traced.trace
  rw [← htrace] at hevents
  exact hevents

theorem traced (m : Monitor) (l : Conduct) (c : Call) :
    Traced ⟨m.session, []⟩ (m.session.callAs l c).events
      ⟨(m.session.callAs l c).session, (m.session.callAs l c).events⟩ := by
  have hweavable : Weavable m.container (perform l.tell c) := weavable_perform l.weavable c
  obtain ⟨work, hwork⟩ := hweavable
  exact (attended hwork).traced

theorem attend_eq_callAs {work : WatchM Reply} (hwork : Woven m.container (perform l.tell c) work)
    (htaken : ∀ x ∈ measurements (m.session.callAs l c).events, x.Taken) :
    m.attend work = m.callAs l c := by
  have hfollows := (attended hwork).follows htaken
  unfold After at hfollows
  unfold attend callAs shown
  split at hfollows
  · rename_i reply w hw
    obtain ⟨hresult, rfl⟩ := hfollows
    rw [hw, ← hresult]
  · rename_i e w hw
    obtain ⟨hresult, rfl⟩ := hfollows
    rw [hw, ← hresult]

theorem InStep.callAs (h : m.InStep) (htaken : ∀ x ∈ measurements (m.session.callAs l c).events, x.Taken) :
    (m.callAs l c).2.InStep where
  snapshot := by
    have htraced := (m.traced l c).metrics
    have hregistry := Sighting.registry_foldl m.container (m.session.callAs l c).events m.watch.seen
    have hrecorded := Metrics.Registry.snapshot?_foldl htaken m.registry m.container
    rw [show m.registry.snapshot? m.container = some m.session.node.metrics from h.snapshot] at hrecorded
    calc (m.callAs l c).2.snapshot?
      _ = Metrics.Registry.snapshot? _ m.container := congrArg (fun r => r.snapshot? m.container) hregistry
      _ = _ := hrecorded
      _ = some (m.session.callAs l c).session.node.metrics := congrArg some htraced.symm
  spans := ((m.traced l c).spanned.openSpans m.tracer.forget).trans
    ((Trace.Tracer.openSpans_forget m.tracer).trans h.spans)

theorem transcript_callAs (h : (m.callAs l c).2.InStep) :
    transcript (m.callAs l c) = (m.session.callAs l c).transcript m.session.node.config.groupId := by
  have hasked := Sighting.nested_foldl m.container (m.session.callAs l c).events m.watch.seen
  have hresult : (m.callAs l c).1.result.map Response.asReply = (m.session.callAs l c).result :=
    map_asReply_of _ _
  have hnested : (m.callAs l c).1.nested.map Nested.answer = answers (m.session.callAs l c).events := by
    rw [← List.nil_append (answers _)]
    exact (List.map_map ..).trans hasked
  rw [transcript, hresult, hnested, h.snapshot]
  rfl

theorem callAll_transcripts (h : m.InStep) (htaken : ∀ x ∈ m.session.measured steps, x.Taken) :
    (m.callAll steps).map transcript = m.session.transcripts steps ∧
      ∀ seen ∈ m.callAll steps, seen.2.InStep := by
  induction steps generalizing m with
  | nil => exact ⟨rfl, List.forall_mem_nil _⟩
  | cons step rest ih =>
    obtain ⟨l, c⟩ := step
    obtain ⟨hcall, hrest⟩ := List.forall_mem_append.mp htaken
    have hstep := h.callAs hcall
    obtain ⟨htranscripts, hkept⟩ := ih hstep hrest
    refine ⟨?_, List.forall_mem_cons.mpr ⟨hstep, hkept⟩⟩
    rw [callAll, List.map_cons, transcript_callAs hstep, htranscripts]
    rfl

theorem attends_iff (htaken : ∀ x ∈ m.session.measured steps, x.Taken) (seen : List (Report × Monitor)) :
    m.Attends steps seen ↔ seen = m.callAll steps := by
  induction steps generalizing m seen with
  | nil =>
    constructor
    · rintro ⟨⟩
      rfl
    · rintro rfl
      exact .done m
  | cons step rest ih =>
    obtain ⟨l, c⟩ := step
    obtain ⟨hcall, hrest⟩ := List.forall_mem_append.mp htaken
    constructor
    · intro hseen
      cases hseen with
      | call hwork hseen =>
        rw [attend_eq_callAs hwork hcall] at hseen ⊢
        rw [(ih hrest _).mp hseen, callAll]
    · rintro rfl
      have hweavable : Weavable m.container (perform l.tell c) := weavable_perform l.weavable c
      obtain ⟨work, hwork⟩ := hweavable
      rw [callAll, ← attend_eq_callAs hwork hcall]
      refine .call hwork ?_
      rw [attend_eq_callAs hwork hcall]
      exact (ih hrest _).mpr rfl

theorem startIn_ok {r : Metrics.Registry} {config : Config} {script : Script} {tracing : Trace.Kind}
    {enable : Bool} (hm : startIn r config script tracing enable = .ok m) :
    m.session = .start config script ∧ m.InStep := by
  unfold startIn at hm
  split at hm
  · rename_i container registry hcreate
    cases hm
    exact ⟨rfl, Metrics.Registry.snapshot?_create hcreate, by cases tracing <;> rfl⟩
  · cases hm

/--
Observers do no harm. Whatever tracer follows a node, whether or not its measurements are exported, and
whether or not they can be: every call ends the same, is logged the same and finds the listener asking for the
same; the node and the snapshot of its metrics are the same after each of them. This holds of the observers at
work during the calls, as long as no meter refuses a measurement, and none of them is left with a span open.
-/
theorem observation_harmless {config : Config} {script : Script} {r r' : Metrics.Registry}
    {tracing tracing' : Trace.Kind} {enable enable' : Bool}
    (hm : startIn r config script tracing enable = .ok m)
    (hm' : startIn r' config script tracing' enable' = .ok m') (steps : List (Conduct × Call))
    (htaken : ∀ x ∈ (Session.start config script).measured steps, x.Taken) :
    (∀ seen, m.Attends steps seen ↔ seen = m.callAll steps) ∧
      (∀ seen, m'.Attends steps seen ↔ seen = m'.callAll steps) ∧
      (m.callAll steps).map transcript = (m'.callAll steps).map transcript ∧
      ∀ seen ∈ m.callAll steps ++ m'.callAll steps,
        seen.2.snapshot? = some seen.2.session.node.metrics ∧ seen.2.tracer.openSpans = 0 := by
  obtain ⟨hsession, hstep⟩ := startIn_ok hm
  obtain ⟨hsession', hstep'⟩ := startIn_ok hm'
  rw [← hsession] at htaken
  have htaken' := htaken
  rw [hsession, ← hsession'] at htaken'
  obtain ⟨htranscripts, hkept⟩ := callAll_transcripts hstep htaken
  obtain ⟨htranscripts', hkept'⟩ := callAll_transcripts hstep' htaken'
  refine ⟨attends_iff htaken, attends_iff htaken', ?_, List.forall_mem_append.mpr ⟨?_, ?_⟩⟩
  · rw [htranscripts, htranscripts', hsession, hsession']
  · exact fun seen hseen => ⟨(hkept seen hseen).snapshot, (hkept seen hseen).spans⟩
  · exact fun seen hseen => ⟨(hkept' seen hseen).snapshot, (hkept' seen hseen).spans⟩

def restlessSteps : List (Conduct × Call) :=
  [(Session.restless, .compute 1 (.text "me") Session.halfReadableSources),
    (Session.restless, .complete 1 "me" (.computed "me")), (Session.restless, .collect),
    (Session.restless, .revoke), (Session.restless, .complete 2 "me" (.payload (.foreign .null)))]

theorem observation_harmless_restless :
    ∃ m m', start default {} .exporter true = .ok m ∧
      startIn { available := false } default {} .absent true = .ok m' ∧
      ((Session.start default {}).measured restlessSteps).length = 5 ∧
      ((m.callAll restlessSteps).map fun seen => seen.1.nested.length) = [0, 2, 0, 2, 0] ∧
      (∀ seen, m.Attends restlessSteps seen ↔ seen = m.callAll restlessSteps) ∧
      (m.callAll restlessSteps).map transcript = (m'.callAll restlessSteps).map transcript := by
  have hm : start default {} .exporter true = .ok _ := rfl
  have hm' : startIn { available := false } default {} .absent true = .ok _ := rfl
  have hstart := (start_eq_startIn default {} .exporter true).symm.trans hm
  obtain ⟨hattends, _, htranscripts, _⟩ :=
    observation_harmless hstart hm' restlessSteps (by decide +kernel)
  exact ⟨_, _, hm, hm', by decide +kernel, by decide +kernel, hattends, htranscripts⟩

end Monitor

end PrimaryElection
