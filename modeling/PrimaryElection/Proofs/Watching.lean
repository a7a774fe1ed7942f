import PrimaryElection.Monitor
import PrimaryElection.Proofs.Listening

/-!
Watching. A watch is a run with its observers at work: the tracer follows the spans while they are open, the
metrics take a measurement when it is made, and a meter that refuses one fails the hook. The hooks are woven
into watches step by step. Unless a meter refuses something, such a watch goes as the run goes, and leaves
its observers as if they had been shown the events of the run afterwards.
-/

namespace PrimaryElection

open HookM

def measurements (events : List Event) : List Metrics.Measurement :=
  events.filterMap fun
    | .measured m => some m
    | _ => none

theorem measurements_append (l l' : List Event) :
    measurements (l ++ l') = measurements l ++ measurements l' :=
  List.filterMap_append

def Metrics.Measurement.Taken (x : Metrics.Measurement) : Prop :=
  Metrics.Meter.refuses { installed := true } x = none

instance (x : Metrics.Measurement) : Decidable x.Taken :=
  inferInstanceAs (Decidable (Metrics.Meter.refuses _ x = none))

def Event.isPassing : Event → Bool
  | .opened _ _ | .closed _ _ | .measured _ => false
  | .logged _ | .marked _ _ | .notified _ | .answered _ => true

inductive Spanned : List Event → Prop
  | nil : Spanned []
  | passing {e : Event} (h : e.isPassing) : Spanned [e]
  | measured (m : Metrics.Measurement) : Spanned [.measured m]
  | append {es es' : List Event} : Spanned es → Spanned es' → Spanned (es ++ es')
  | span {es : List Event} (hook : Hook) (attributes : List (Attribute × Value))
    (failure : Option Failure) : Spanned es → Spanned (.opened hook attributes :: es ++ [.closed hook failure])

structure Watch extends Run where
  tracer : Trace.Tracer
  seen : Sighting Unit

abbrev WatchM := EStateM Failure Watch

namespace Watch

def note (container : Nat) (e : Event) (w : Watch) : Watch :=
  { w with
    trace := w.trace ++ [e]
    tracer := w.tracer.follow e
    seen := w.seen.follow () container e }

def after (container : Nat) (events : List Event) (r : Run) (w : Watch) : Watch :=
  ⟨r, events.foldl Trace.Tracer.follow w.tracer, events.foldl (Sighting.follow () container) w.seen⟩

variable {container : Nat} {es es' : List Event} {r r' : Run} {w : Watch}

theorem after_after : (w.after container es r).after container es' r' = w.after container (es ++ es') r' := by
  simp only [after, List.foldl_append]

theorem note_after {e : Event} : (w.after container es r).note container e =
    w.after container (es ++ [e]) { r with trace := r.trace ++ [e] } := by
  simp only [after, note, List.foldl_append, List.foldl_cons, List.foldl_nil]

end Watch

namespace WatchM

variable {α : Type}

def silent (x : HookM α) : WatchM α := fun w =>
  match x w.toRun with
  | .ok a r => .ok a { w with toRun := r }
  | .error e r => .error e { w with toRun := r }

def emit (container : Nat) (e : Event) : WatchM Unit := modify (Watch.note container e)

def measure (container : Nat) (m : Metrics.Measurement) : WatchM Unit := fun w =>
  match w.seen.registry.record container m with
  | (none, _) => .ok () ({ w with
      node := { w.node with metrics := w.node.metrics.record m } }.note container (.measured m))
  | (some e, registry) => .error (.raised e.message) { w with seen := { w.seen with registry := registry } }

def inSpan (container : Nat) (hook : Hook) (attributes : List (Attribute × Value)) (work : WatchM α) :
    WatchM α := fun w =>
  match work (w.note container (.opened hook attributes)) with
  | .ok a w => .ok a (w.note container (.closed hook none))
  | .error e w => .error e (w.note container (.closed hook (some e)))

def tellSafely (container : Nat) (notice : Notice) (told : WatchM Unit) : WatchM Unit := fun w =>
  match told w with
  | .ok _ w => .ok () w
  | .error e w =>
    .ok () (w.note container (.logged (.listenerFailed notice.kind (noticeEpoch w.node notice) e)))

def answer (container : Nat) (kind : Notice.Kind) (c : Call) (caught : Bool) (asked : WatchM Reply) :
    WatchM Unit := fun w =>
  match asked w with
  | .ok reply w => .ok () (w.note container (.answered ⟨kind, c, .ok reply, w.node.phase⟩))
  | .error e w =>
    let w := w.note container (.answered ⟨kind, c, .error e, w.node.phase⟩)
    if caught then .ok () w else .error e w

variable {container : Nat} {w : Watch}

theorem after_inSpan {hook : Hook} {attributes : List (Attribute × Value)} {work : WatchM α}
    {Q : Except Failure α → Watch → Prop}
    (h : After work (w.note container (.opened hook attributes)) fun result w' =>
      Q result (w'.note container (.closed hook (failure? result)))) :
    After (inSpan container hook attributes work) w Q := by
  unfold After at h
  split at h
  · rename_i a w' hw'
    exact after_of_ok (by simp only [inSpan, hw', failure?]) h
  · rename_i e w' hw'
    exact after_of_error (by simp only [inSpan, hw', failure?]) h

theorem after_tellSafely {notice : Notice} {told : WatchM Unit} {Q : Except Failure Unit → Watch → Prop}
    (h : After told w fun result w' => (result = .ok () → Q (.ok ()) w') ∧
      ∀ e, result = .error e → Q (.ok ()) (w'.note container
        (.logged (.listenerFailed notice.kind (noticeEpoch w'.node notice) e)))) :
    After (tellSafely container notice told) w Q := by
  unfold After at h
  split at h
  · rename_i a w' hw'
    exact after_of_ok (a := ()) (by simp only [tellSafely, hw']) (h.1 rfl)
  · rename_i e w' hw'
    exact after_of_ok (a := ()) (by simp only [tellSafely, hw']) (h.2 e rfl)

theorem after_answer {kind : Notice.Kind} {c : Call} {caught : Bool} {asked : WatchM Reply}
    {Q : Except Failure Unit → Watch → Prop}
    (h : After asked w fun result w' => Q (settled caught result)
      (w'.note container (.answered ⟨kind, c, result, w'.node.phase⟩))) :
    After (answer container kind c caught asked) w Q := by
  unfold After at h
  split at h
  · rename_i reply w' hw'
    exact after_of_ok (a := ()) (by simp only [answer, hw']) h
  · rename_i e w' hw'
    cases caught with
    | true => exact after_of_ok (a := ()) (by simp [answer, hw']) h
    | false => exact after_of_error (e := e) (by simp [answer, hw']) h

end WatchM

def Silent {α : Type} (x : HookM α) : Prop :=
  ∀ r, After x r fun _ r' => r'.trace = r.trace ∧ r'.node.metrics = r.node.metrics

/-- The second is the first with the observers at work meanwhile; `container` is where measurements go. -/
inductive Woven (container : Nat) : {α : Type} → HookM α → WatchM α → Prop
  | silent {α : Type} {x : HookM α} (h : Silent x) : Woven container x (.silent x)
  | emit {e : Event} (h : e.isPassing) : Woven container (emit e) (.emit container e)
  | measure (m : Metrics.Measurement) : Woven container (measure m) (.measure container m)
  | bind {α β : Type} {x : HookM α} {y : WatchM α} {f : α → HookM β} {g : α → WatchM β} :
    Woven container x y → (∀ a, Woven container (f a) (g a)) → Woven container (x >>= f) (y >>= g)
  | inSpan {α : Type} {x : HookM α} {y : WatchM α} (hook : Hook) (attributes : List (Attribute × Value)) :
    Woven container x y → Woven container (inSpan hook attributes x) (.inSpan container hook attributes y)
  | tellSafely {tell : Notice → HookM Unit} {told : WatchM Unit} {notice : Notice} :
    Woven container (tell notice) told →
      Woven container (tellSafely tell notice) (.tellSafely container notice told)
  | answer {tell : Notice → HookM Unit} {c : Call} {asked : WatchM Reply} (kind : Notice.Kind)
    (caught : Bool) : Woven container (perform tell c) asked →
      Woven container (act tell kind (.call c caught)) (.answer container kind c caught asked)

structure Traced (r : Run) (events : List Event) (r' : Run) : Prop where
  trace : r'.trace = r.trace ++ events
  metrics : r'.node.metrics = (measurements events).foldl Metrics.Snapshot.record r.node.metrics
  spanned : Spanned events

theorem Event.measurements_passing {e : Event} (h : e.isPassing) : measurements [e] = [] := by
  cases e <;> first | rfl | cases h

namespace Traced

variable {r r' r'' : Run} {es es' : List Event}

theorem trans (h : Traced r es r') (h' : Traced r' es' r'') : Traced r (es ++ es') r'' where
  trace := by rw [h'.trace, h.trace, List.append_assoc]
  metrics := by rw [h'.metrics, h.metrics, measurements_append, List.foldl_append]
  spanned := h.spanned.append h'.spanned

theorem passing {e : Event} (h : Traced r es r') (he : e.isPassing) :
    Traced r (es ++ [e]) { r' with trace := r'.trace ++ [e] } := by
  refine h.trans ⟨rfl, ?_, .passing he⟩
  rw [Event.measurements_passing he]
  rfl

theorem span {hook : Hook} {attributes : List (Attribute × Value)}
    (h : Traced { r with trace := r.trace ++ [.opened hook attributes] } es r') (failure : Option Failure) :
    Traced r (.opened hook attributes :: es ++ [.closed hook failure])
      { r' with trace := r'.trace ++ [.closed hook failure] } where
  trace := by simp only [h.trace, List.append_assoc, List.cons_append, List.nil_append]
  metrics := by
    rw [measurements_append]
    simp only [h.metrics, List.foldl_append]
    rfl
  spanned := .span hook attributes failure h.spanned

end Traced

structure Attended {α : Type} (container : Nat) (w : Watch) (watched : WatchM α) (events : List Event)
    (result : Except Failure α) (r : Run) : Prop where
  traced : Traced w.toRun events r
  follows : (∀ m ∈ measurements events, m.Taken) →
    After watched w fun result' w' => result' = result ∧ w' = w.after container events r

theorem Metrics.Meter.refuses_of_taken {x : Measurement} (h : x.Taken) (m : Meter) : m.refuses x = none := by
  cases x with
  | computed members excluded =>
    have hshown : amountError? members = none := h
    simp [refuses, hshown]
  | _ => rfl

theorem Metrics.Registry.record_of_taken {x : Measurement} (h : x.Taken) (r : Registry) (serial : Nat) :
    (r.record serial x).1 = none := by
  cases hc : r.container? serial with
  | none => simp [record, hc]
  | some c =>
    cases hm : r.meterOf? c with
    | none => simp [record, hc, hm]
    | some m => simp [record, hc, hm, Meter.refuses_of_taken h m]

theorem WatchM.measure_of_taken {m : Metrics.Measurement} (h : m.Taken) (container : Nat) (w : Watch) :
    WatchM.measure container m w = .ok () ({ w with
      node := { w.node with metrics := w.node.metrics.record m } }.note container (.measured m)) := by
  have htaken := w.seen.registry.record_of_taken h container
  unfold measure
  generalize w.seen.registry.record container m = recorded at htaken ⊢
  obtain ⟨refusal, registry⟩ := recorded
  cases htaken
  rfl

namespace Attended

variable {α β : Type} {container : Nat} {w : Watch} {y : WatchM α} {g : α → WatchM β} {es es' : List Event}
  {r r' : Run}

theorem follows_append {result : Except Failure α} (h : Attended container w y es result r)
    (htaken : ∀ m ∈ measurements (es ++ es'), m.Taken) :
    After y w fun result' w' => result' = result ∧ w' = w.after container es r := by
  rw [measurements_append] at htaken
  exact h.follows fun m hm => htaken m (List.mem_append_left _ hm)

theorem bind {a : α} {result : Except Failure β} (h : Attended container w y es (.ok a) r)
    (h' : Attended container (w.after container es r) (g a) es' result r') :
    Attended container w (y >>= g) (es ++ es') result r' where
  traced := h.traced.trans h'.traced
  follows := by
    intro htaken
    refine (h.follows_append htaken).bind ?_ ?_
    · rintro a' w' ⟨ha, rfl⟩
      cases ha
      rw [measurements_append] at htaken
      rw [← Watch.after_after (r := r)]
      exact h'.follows fun m hm => htaken m (List.mem_append_right _ hm)
    · rintro e w' ⟨hfalse, _⟩
      cases hfalse

theorem bind_error {e : Failure} (h : Attended container w y es (.error e) r) :
    Attended container w (y >>= g) es (.error e) r where
  traced := h.traced
  follows := by
    intro htaken
    refine (h.follows htaken).bind ?_ ?_
    · rintro a w' ⟨hfalse, _⟩
      cases hfalse
    · rintro e' w' ⟨he, hw'⟩
      cases he
      exact ⟨rfl, hw'⟩

theorem inSpan {hook : Hook} {attributes : List (Attribute × Value)} {result : Except Failure α}
    (h : Attended container (w.note container (.opened hook attributes)) y es result r) :
    Attended container w (.inSpan container hook attributes y)
      (.opened hook attributes :: es ++ [.closed hook (failure? result)]) result
      { r with trace := r.trace ++ [.closed hook (failure? result)] } where
  traced := h.traced.span (failure? result)
  follows := by
    intro htaken
    apply WatchM.after_inSpan
    apply (h.follows_append htaken).mono
    rintro _ _ ⟨rfl, rfl⟩
    exact ⟨rfl, Watch.note_after⟩

theorem answer {asked : WatchM Reply} {result : Except Failure Reply} (kind : Notice.Kind) (c : Call)
    (caught : Bool) (h : Attended container w asked es result r) :
    Attended container w (.answer container kind c caught asked)
      (es ++ [.answered ⟨kind, c, result, r.node.phase⟩]) (settled caught result)
      { r with trace := r.trace ++ [.answered ⟨kind, c, result, r.node.phase⟩] } where
  traced := h.traced.passing rfl
  follows := by
    intro htaken
    apply WatchM.after_answer
    apply (h.follows_append htaken).mono
    rintro _ _ ⟨rfl, rfl⟩
    exact ⟨rfl, Watch.note_after⟩

theorem told {told : WatchM Unit} (notice : Notice) (h : Attended container w told es (.ok ()) r) :
    Attended container w (.tellSafely container notice told) es (.ok ()) r where
  traced := h.traced
  follows := by
    intro htaken
    apply WatchM.after_tellSafely
    apply (h.follows htaken).mono
    rintro _ _ ⟨rfl, rfl⟩
    exact ⟨fun _ => ⟨rfl, rfl⟩, nofun⟩

theorem told_error {told : WatchM Unit} {e : Failure} (notice : Notice)
    (h : Attended container w told es (.error e) r) :
    Attended container w (.tellSafely container notice told)
      (es ++ [.logged (.listenerFailed notice.kind (noticeEpoch r.node notice) e)]) (.ok ())
      { r with trace := r.trace ++ [.logged (.listenerFailed notice.kind (noticeEpoch r.node notice) e)] } where
  traced := h.traced.passing rfl
  follows := by
    intro htaken
    apply WatchM.after_tellSafely
    apply (h.follows_append htaken).mono
    rintro _ _ ⟨rfl, rfl⟩
    refine ⟨nofun, ?_⟩
    rintro _ ⟨⟩
    exact ⟨rfl, Watch.note_after⟩

end Attended

theorem Silent.attended {α : Type} {container : Nat} {x : HookM α} (h : Silent x) (w : Watch) :
    After x w.toRun fun result r => ∃ events, Attended container w (.silent x) events result r := by
  have hquiet := h w.toRun
  unfold After at hquiet ⊢
  cases hx : x w.toRun with
  | ok a r =>
    rw [hx] at hquiet
    refine ⟨[], ⟨by simp [hquiet.1], hquiet.2, .nil⟩, fun _ => ?_⟩
    exact after_of_ok (by simp only [WatchM.silent, hx, Watch.after, List.foldl_nil]) ⟨rfl, rfl⟩
  | error e r =>
    rw [hx] at hquiet
    refine ⟨[], ⟨by simp [hquiet.1], hquiet.2, .nil⟩, fun _ => ?_⟩
    exact after_of_error (by simp only [WatchM.silent, hx, Watch.after, List.foldl_nil]) ⟨rfl, rfl⟩

theorem Woven.attended {α : Type} {container : Nat} {x : HookM α} {y : WatchM α} (h : Woven container x y)
    (w : Watch) : After x w.toRun fun result r => ∃ events, Attended container w y events result r := by
  induction h generalizing w with
  | silent h => exact h.attended w
  | @emit e he =>
    refine after_of_ok (emit_eq e w.toRun) ⟨[e], ⟨rfl, ?_, .passing he⟩, fun _ => ⟨rfl, rfl⟩⟩
    rw [Event.measurements_passing he]
    rfl
  | measure m =>
    refine after_of_ok (measure_eq m w.toRun) ⟨[.measured m], ⟨rfl, rfl, .measured m⟩, fun htaken => ?_⟩
    have hm := htaken m (List.mem_singleton_self m)
    exact after_of_ok (WatchM.measure_of_taken hm container w) ⟨rfl, rfl⟩
  | @bind α β x y f g _ _ ihx ihf =>
    -- the rest is watched from where the events of the first part have led the observers
    refine (ihx w).bind ?_ ?_
    · rintro a r ⟨es, hes⟩
      apply (ihf a (w.after container es r)).mono
      rintro result r' ⟨es', hes'⟩
      exact ⟨es ++ es', hes.bind hes'⟩
    · rintro e r ⟨es, hes⟩
      exact ⟨es, hes.bind_error⟩
  | inSpan hook attributes _ ih =>
    -- a failure leaves through the span, which is closed all the same
    apply after_inSpan_failure
    apply (ih (w.note container (.opened hook attributes))).mono
    rintro result r ⟨es, hes⟩
    exact ⟨_, hes.inSpan⟩
  | @tellSafely tell told notice _ ih =>
    apply after_tellSafely
    apply (ih w).mono
    rintro result r ⟨es, hes⟩
    constructor
    · rintro rfl
      exact ⟨es, hes.told notice⟩
    · rintro e rfl
      exact ⟨_, hes.told_error notice⟩
  | @answer tell c asked kind caught _ ih =>
    apply after_act_call
    apply (ih w).mono
    rintro result r ⟨es, hes⟩
    exact ⟨_, hes.answer kind c caught⟩

end PrimaryElection
