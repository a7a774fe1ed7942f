import PrimaryElection.Proofs.Watching

namespace PrimaryElection

open HookM

variable {container : Nat}

def Weavable {α : Type} (container : Nat) (x : HookM α) : Prop := ∃ y, Woven container x y

section combinators

variable {α β : Type}

theorem weavable_silent {x : HookM α} (h : Silent x) : Weavable container x := ⟨_, .silent h⟩

theorem weavable_pure (a : α) : Weavable container (pure a) := weavable_silent fun _ => ⟨rfl, rfl⟩

theorem weavable_throw (e : Failure) : Weavable container (throw e : HookM α) :=
  weavable_silent fun _ => after_throw ⟨rfl, rfl⟩

theorem weavable_ofExcept (x : Except Failure α) :
    Weavable container (MonadExcept.ofExcept x : HookM α) := by
  cases x with
  | ok a => exact weavable_pure a
  | error e => exact weavable_throw e

theorem weavable_update {f : Node → Node} (hf : ∀ n, (f n).metrics = n.metrics) :
    Weavable container (update f) :=
  weavable_silent fun r => after_of_ok (update_eq f r) ⟨rfl, hf r.node⟩

theorem weavable_modify {f : Run → Run}
    (hf : ∀ r, (f r).trace = r.trace ∧ (f r).node.metrics = r.node.metrics) :
    Weavable container (modify f : HookM Unit) :=
  weavable_silent fun r => after_of_ok rfl (hf r)

theorem weavable_emit {e : Event} (he : e.isPassing) : Weavable container (emit e) := ⟨_, .emit he⟩

theorem weavable_log (entry : LogEntry) : Weavable container (log entry) := weavable_emit rfl

theorem weavable_mark (key : Attribute) (value : Value) : Weavable container (mark key value) :=
  weavable_emit rfl

theorem weavable_measure (m : Metrics.Measurement) : Weavable container (measure m) := ⟨_, .measure m⟩

theorem Weavable.bind {x : HookM α} {f : α → HookM β} (hx : Weavable container x)
    (hf : ∀ a, Weavable container (f a)) : Weavable container (x >>= f) := by
  obtain ⟨y, hy⟩ := hx
  exact ⟨_, hy.bind fun a => (hf a).choose_spec⟩

theorem Weavable.guarded {c : Prop} [Decidable c] {x : HookM Unit} {f : Unit → HookM α}
    (hx : Weavable container x) (hf : ∀ a, Weavable container (f a)) :
    Weavable container (if c then x >>= f else f ()) := by
  split
  · exact hx.bind hf
  · exact hf ()

theorem weavable_get {f : Run → HookM α} (h : ∀ r, Weavable container (f r)) :
    Weavable container (get >>= f) :=
  (weavable_silent fun _ => after_of_ok rfl ⟨rfl, rfl⟩).bind h

theorem weavable_node {f : Node → HookM α} (h : ∀ n, Weavable container (f n)) :
    Weavable container (node >>= f) :=
  (weavable_silent fun r => after_of_ok (node_eq r) ⟨rfl, rfl⟩).bind h

theorem Weavable.inSpan {hook : Hook} {attributes : List (Attribute × Value)} {work : HookM α}
    (h : Weavable container work) : Weavable container (inSpan hook attributes work) := by
  obtain ⟨y, hy⟩ := h
  exact ⟨_, hy.inSpan hook attributes⟩

theorem Weavable.tellSafely {tell : Notice → HookM Unit} {notice : Notice}
    (h : Weavable container (tell notice)) : Weavable container (tellSafely tell notice) := by
  obtain ⟨y, hy⟩ := h
  exact ⟨_, hy.tellSafely⟩

end combinators

namespace Node

theorem weavable_move (target : Phase) : Weavable container (move target) := by
  refine weavable_node fun n => ?_
  dsimp only
  split
  · exact (weavable_log _).bind fun _ => weavable_update fun _ => rfl
  · exact weavable_throw _

theorem weavable_needRejoin : Weavable container needRejoin := weavable_update fun _ => rfl

theorem weavable_abandon (reason : Abandonment) : Weavable container (abandon reason) := by
  refine weavable_node fun n => (weavable_log _).bind fun _ => ?_
  exact weavable_needRejoin.bind fun _ => weavable_move .joining

theorem weavable_identity : Weavable container identity := weavable_node fun _ => weavable_ofExcept _

theorem weavable_metadata : Weavable container metadata :=
  weavable_identity.bind fun _ => (weavable_log _).bind fun _ => weavable_ofExcept _

theorem weavable_excludeUnreadable (epoch : Int) (members : List (MemberId × Payload)) :
    Weavable container (excludeUnreadable epoch members) := by
  induction members with
  | nil => exact weavable_pure ()
  | cons e rest ih =>
    obtain ⟨memberId, payload⟩ := e
    unfold excludeUnreadable
    cases Identity.decode payload with
    | ok i => exact (weavable_pure ()).bind fun _ => ih
    | error e => exact ((weavable_measure _).bind fun _ => weavable_log _).bind fun _ => ih

theorem weavable_broadcast (epoch : Int) (leader : Value) (members : Roster Payload) :
    Weavable container (broadcast epoch leader members) := by
  unfold broadcast
  refine (weavable_excludeUnreadable epoch _).bind fun _ => ?_
  dsimp only
  split
  all_goals
    refine (weavable_log _).bind fun _ => (weavable_mark _ _).bind fun _ => ?_
    refine (weavable_mark _ _).bind fun _ => (weavable_measure _).bind fun _ => ?_
    exact (weavable_ofExcept _).bind fun _ => weavable_pure _

theorem weavable_compute (epoch : Int) (leader : Value) (members : Roster Payload) :
    Weavable container (compute epoch leader members) := by
  refine weavable_node fun n => Weavable.inSpan (weavable_node fun n' => ?_)
  refine (weavable_abandon _).guarded fun _ => (weavable_move _).bind fun _ => ?_
  exact weavable_broadcast epoch leader members

theorem weavable_accept (a : Acceptance) : Weavable container (accept a) := by
  have hend : Weavable container (do
      measure (.completed (.text a.outcome.status.name) (.int a.epoch)
        (.bool (a.outcome.isPrimary (some a.memberId))))
      log (.completed a.epoch a.memberId a.outcome)) :=
    (weavable_measure _).bind fun _ => weavable_log _
  refine (weavable_update ?_).bind fun _ => ?_
  · exact fun _ => rfl
  dsimp only
  refine (weavable_mark _ _).bind fun _ => (weavable_mark _ _).bind fun _ => ?_
  split
  · exact (weavable_mark _ _).bind fun _ => hend
  · exact (weavable_pure ()).bind fun _ => hend

section telling

variable {tell : Notice → HookM Unit} (htell : ∀ notice, Weavable container (tell notice))

include htell

theorem weavable_complete (epoch : Int) (memberId : MemberId) (data : Payload) :
    Weavable container (complete tell epoch memberId data) := by
  refine weavable_node fun n => Weavable.inSpan (weavable_node fun n' => ?_)
  refine (weavable_move _).guarded fun _ => (weavable_move _).bind fun _ => ?_
  split
  · refine (weavable_measure _).bind fun _ => ?_
    exact (weavable_log _).bind fun _ => weavable_abandon _
  · refine weavable_node fun n => ?_
    dsimp only
    split
    · exact (weavable_log _).bind fun _ => weavable_abandon _
    · refine (weavable_accept _).bind fun _ => ?_
      exact (htell _).tellSafely.bind fun _ => weavable_move _

theorem weavable_surrender : Weavable container (surrender tell) := by
  refine (weavable_move _).bind fun _ => (weavable_measure _).bind fun _ => ?_
  refine weavable_node fun n => weavable_node fun n' => (weavable_log _).bind fun _ => ?_
  exact (htell _).tellSafely.bind fun _ => weavable_move _

theorem weavable_revoke : Weavable container (revoke tell) := by
  refine weavable_node fun n => ?_
  split
  · exact weavable_pure ()
  · exact (weavable_log _).bind fun _ => weavable_needRejoin
  · refine Weavable.inSpan (weavable_needRejoin.bind fun _ => ?_)
    split
    · exact weavable_abandon _
    split
    · exact weavable_surrender htell
    · exact weavable_pure ()

end telling

theorem weavable_requestRejoin (reason : Value) : Weavable container (requestRejoin reason) :=
  weavable_node fun _ => (weavable_log _).guarded fun _ => weavable_needRejoin

end Node

section listeners

variable {tell : Notice → HookM Unit}

theorem weavable_perform (htell : ∀ notice, Weavable container (tell notice)) (c : Call) :
    Weavable container (perform tell c) := by
  cases c with
  | noop => exact weavable_pure _
  | config => exact weavable_node fun n => Node.weavable_identity.bind fun _ => weavable_pure _
  | subProtocolName => exact weavable_node fun n => weavable_pure _
  | metadata => exact Node.weavable_metadata.bind fun _ => weavable_pure _
  | compute epoch leader members =>
    refine weavable_get fun r => (weavable_ofExcept _).bind fun pairs => ?_
    refine (Node.weavable_compute _ _ _).bind fun payloads => ?_
    refine (weavable_modify ?_).bind fun _ => weavable_pure _
    exact fun _ => ⟨rfl, rfl⟩
  | complete epoch memberId data =>
    refine weavable_get fun r => (weavable_ofExcept _).bind fun payload => ?_
    exact (Node.weavable_complete htell _ _ _).bind fun _ => weavable_pure _
  | revoke => exact (Node.weavable_revoke htell).bind fun _ => weavable_pure _
  | rejoinNeeded => exact weavable_node fun n => weavable_pure _
  | requestRejoin reason => exact (Node.weavable_requestRejoin reason).bind fun _ => weavable_pure _
  | isPrimary => exact weavable_node fun n => weavable_pure _
  | status => exact weavable_node fun n => weavable_pure _
  | listenerReset =>
    refine (weavable_modify ?_).bind fun _ => weavable_pure _
    exact fun _ => ⟨rfl, rfl⟩
  | collect => exact weavable_pure _

theorem weavable_act {kind : Notice.Kind} (htell : ∀ notice, Weavable container (tell notice)) (a : Action) :
    Weavable container (act tell kind a) := by
  cases a with
  | raise message => exact weavable_throw _
  | call c caught =>
    obtain ⟨y, hy⟩ := weavable_perform htell c
    exact ⟨_, hy.answer kind caught⟩

theorem weavable_actAll {kind : Notice.Kind} (htell : ∀ notice, Weavable container (tell notice))
    (actions : List Action) : Weavable container (actAll tell kind actions) := by
  induction actions with
  | nil => exact weavable_pure ()
  | cons a rest ih => exact (weavable_act htell a).bind fun _ => ih

theorem weavable_hear (notice : Notice) : Weavable container (hear notice) := by
  refine (weavable_modify ?_).bind fun _ => weavable_emit rfl
  exact fun _ => ⟨rfl, rfl⟩

end listeners

theorem Conduct.weavable (l : Conduct) (notice : Notice) : Weavable container (l.tell notice) := by
  induction l generalizing notice with
  | silent => exact weavable_hear notice
  | answers keeps actions inner ih =>
    -- what the listener asks for meanwhile may tell it of something again, which is for the inner conduct
    refine (weavable_hear notice).bind fun _ => weavable_get fun r => ?_
    refine (weavable_modify ?_).bind fun _ => weavable_actAll (ih notice r) (actions notice r)
    exact fun _ => ⟨rfl, rfl⟩

end PrimaryElection
