import PrimaryElection.Proofs.Deeds
import PrimaryElection.Proofs.Hooks

/-!
What a call does to a node. While its listener is told of something the node stands in a phase in which
no hook but the computing of a round gets anywhere, so a listener that computes no round while it is told
of an assignment leaves the node as it is, but for the wish for another round. A call from outside then
has one of three effects: no notice is given, or one assignment, or one revocation.
-/

namespace PrimaryElection

open HookM

def Notice.Kind.phase : Notice.Kind → Phase
  | .assigned => .synced
  | .revoked => .revoking

def Call.computes : Call → Bool
  | .compute _ _ _ => true
  | _ => false

def Patient (kind : Notice.Kind) (c : Call) : Prop := kind = .assigned → c.computes = false

def Fruitless (broadcast : Roster Bytes) (trace trace' : List Event) : Prop :=
  ∃ l, answers trace' = answers trace ++ l ∧ ∀ a ∈ l, a.Vain broadcast

theorem Quiet.fruitless {r r' : Run} (h : Quiet r r') (broadcast : Roster Bytes) :
    Fruitless broadcast r.trace r'.trace :=
  ⟨[], by rw [h.answers, List.append_nil], by simp⟩

theorem Fruitless.trans {broadcast : Roster Bytes} {trace trace' trace'' : List Event}
    (h : Fruitless broadcast trace trace') (h' : Fruitless broadcast trace' trace'') :
    Fruitless broadcast trace trace'' := by
  obtain ⟨l, hl, hvain⟩ := h
  obtain ⟨l', hl', hvain'⟩ := h'
  refine ⟨l ++ l', by rw [hl', hl, List.append_assoc], ?_⟩
  intro a ha
  rcases List.mem_append.mp ha with ha | ha
  · exact hvain a ha
  · exact hvain' a ha

structure Undisturbed (r r' : Run) : Prop where
  node : r'.node = { r.node with rejoinNeeded := r'.node.rejoinNeeded }
  rejoin : r.node.rejoinNeeded = true → r'.node.rejoinNeeded = true
  script : r'.listener.script = r.listener.script
  broadcast : r'.broadcast = r.broadcast
  notices : notices r'.trace = notices r.trace
  fruitless : Fruitless r.broadcast r.trace r'.trace

namespace Undisturbed

theorem of_quiet {r r' : Run} (hnode : r'.node = r.node) (h : Quiet r r') : Undisturbed r r' where
  node := by rw [hnode]
  rejoin := by rw [hnode]; exact id
  script := by rw [h.listener]
  broadcast := h.broadcast
  notices := h.notices
  fruitless := h.fruitless _

theorem refl (r : Run) : Undisturbed r r := of_quiet rfl (.refl r)

theorem trans {r r' r'' : Run} (h : Undisturbed r r') (h' : Undisturbed r' r'') : Undisturbed r r'' where
  node := by rw [h'.node, h.node]
  rejoin := fun hr => h'.rejoin (h.rejoin hr)
  script := h'.script.trans h.script
  broadcast := h'.broadcast.trans h.broadcast
  notices := h'.notices.trans h.notices
  fruitless := h.fruitless.trans (h.broadcast ▸ h'.fruitless)

theorem of_rejoin {r r' : Run} (hnode : r'.node = { r.node with rejoinNeeded := true })
    (h : Quiet r r') : Undisturbed r r' where
  node := by rw [hnode]
  rejoin := by rw [hnode]; exact fun _ => rfl
  script := by rw [h.listener]
  broadcast := h.broadcast
  notices := h.notices
  fruitless := h.fruitless _

theorem phase {r r' : Run} (h : Undisturbed r r') : r'.node.phase = r.node.phase := by
  rw [h.node]

end Undisturbed

theorem after_identity (r : Run) : After Node.identity r fun _ r' => r' = r := by
  unfold Node.identity
  refine after_node ?_
  cases r.node.config.identity with
  | error violations => exact after_of_error rfl rfl
  | ok i => exact after_of_ok rfl rfl

def Call.idle : Call → Bool
  | .compute _ _ _ => false
  | .complete _ _ _ => false
  | .revoke => false
  | _ => true

theorem Call.deed?_of_idle {c : Call} (hc : c.idle = true) (broadcast : Roster Bytes)
    (result : Except Failure Reply) : c.deed? broadcast result = none := by
  cases c with
  | compute epoch leader members => cases hc
  | complete epoch memberId data => cases hc
  | _ => rfl

def Call.asksRound (p : Phase) : Call → Bool
  | .revoke => p ≠ .revoking
  | .requestRejoin _ => true
  | _ => false

structure Plain (c : Call) (r r' : Run) : Prop where
  node : r'.node = { r.node with rejoinNeeded := r.node.rejoinNeeded || c.asksRound r.node.phase }
  script : r'.listener.script = r.listener.script
  broadcast : r'.broadcast = r.broadcast
  notices : notices r'.trace = notices r.trace
  answers : answers r'.trace = answers r.trace

namespace Plain

variable {c : Call} {r r' : Run}

theorem of_quiet (hc : c.asksRound r.node.phase = false) (hnode : r'.node = r.node) (h : Quiet r r') :
    Plain c r r' where
  node := by rw [hnode, hc, Bool.or_false]
  script := by rw [h.listener]
  broadcast := h.broadcast
  notices := h.notices
  answers := h.answers

theorem of_rejoin (hc : c.asksRound r.node.phase = true)
    (hnode : r'.node = { r.node with rejoinNeeded := true }) (h : Quiet r r') : Plain c r r' where
  node := by rw [hnode, hc, Bool.or_true]
  script := by rw [h.listener]
  broadcast := h.broadcast
  notices := h.notices
  answers := h.answers

theorem undisturbed (h : Plain c r r') : Undisturbed r r' where
  node := by rw [h.node]
  rejoin := by
    intro hr
    rw [h.node, hr, Bool.true_or]
  script := h.script
  broadcast := h.broadcast
  notices := h.notices
  fruitless := ⟨[], by rw [h.answers, List.append_nil], by simp⟩

end Plain

theorem after_perform_plain {tell : Notice → HookM Unit} {c : Call} (hc : c.idle = true) (r : Run) :
    After (perform tell c) r fun _ r' => Plain c r r' := by
  have hstays : ∀ c : Call, c.asksRound r.node.phase = false → Plain c r r :=
    fun _ hc => .of_quiet hc rfl (.refl r)
  cases c with
  | noop => exact after_pure (hstays _ rfl)
  | config =>
    refine after_node ((after_identity r).bind ?_ ?_)
    · rintro i _ rfl
      exact after_pure (hstays _ rfl)
    · rintro e _ rfl
      exact hstays _ rfl
  | subProtocolName => exact after_node (after_pure (hstays _ rfl))
  | metadata =>
    refine (Node.after_metadata r).bind ?_ ?_
    · rintro bytes s ⟨_, hs, hq⟩
      exact after_pure (.of_quiet rfl hs hq)
    · rintro e s ⟨_, hs, hq⟩
      exact .of_quiet rfl hs hq
  | compute epoch leader members => cases hc
  | complete epoch memberId data => cases hc
  | revoke => cases hc
  | rejoinNeeded => exact after_node (after_pure (hstays _ rfl))
  | requestRejoin reason =>
    refine (Node.gives_requestRejoin reason r).bind_after ?_
    rintro _ s ⟨hs, hq⟩
    exact after_pure (.of_rejoin rfl hs hq)
  | isPrimary => exact after_node (after_pure (hstays _ rfl))
  | status => exact after_node (after_pure (hstays _ rfl))
  | listenerReset => exact after_of_ok rfl ⟨by simp [Call.asksRound], rfl, rfl, rfl, rfl⟩
  | collect => exact after_pure (hstays _ rfl)

theorem after_perform_idle {tell : Notice → HookM Unit} {c : Call} (hc : c.idle = true) (r : Run) :
    After (perform tell c) r fun _ r' => Undisturbed r r' :=
  (after_perform_plain hc r).mono fun _ _ h => h.undisturbed

section hooks

variable {tell : Notice → HookM Unit} {r : Run} {Q : Except Failure Reply → Run → Prop}

theorem after_perform_compute {epoch : Int} {leader : Value} {members : List (MemberId × Source)}
    (hhook : ∀ pairs, Source.resolveAll r.broadcast members = .ok pairs →
      After (Node.compute epoch leader (.ofList pairs)) r fun result s =>
        Q (result.map .assignments) { s with broadcast := result.toOption.getD s.broadcast })
    (hmissing : ∀ e, Source.resolveAll r.broadcast members = .error e → Q (.error e) r) :
    After (perform tell (.compute epoch leader members)) r Q := by
  refine after_get (after_ofExcept ?_ hmissing)
  intro pairs hpairs
  refine (hhook pairs hpairs).bind ?_ fun _ _ h => h
  intro payloads s hs
  exact after_of_ok rfl hs

theorem after_perform_complete {epoch : Int} {memberId : MemberId} {data : Source}
    (hhook : ∀ payload, data.resolve r.broadcast = .ok payload →
      After (Node.complete tell epoch memberId payload) r fun result s =>
        Q (result.map fun _ => .done) s)
    (hmissing : ∀ e, data.resolve r.broadcast = .error e → Q (.error e) r) :
    After (perform tell (.complete epoch memberId data)) r Q := by
  refine after_get (after_ofExcept ?_ hmissing)
  intro payload hpayload
  refine (hhook payload hpayload).bind ?_ fun _ _ h => h
  intro _ s hs
  exact after_pure hs

theorem after_perform_revoke
    (hhook : After (Node.revoke tell) r fun result s => Q (result.map fun _ => .done) s) :
    After (perform tell .revoke) r Q := by
  refine hhook.bind ?_ fun _ _ h => h
  intro _ s hs
  exact after_pure hs

end hooks

def Call.Leads (broadcast : Roster Bytes) : Call → Prop
  | .compute _ _ members => ∃ pairs, Source.resolveAll broadcast members = .ok pairs
  | .complete _ _ data => ∃ payload, data.resolve broadcast = .ok payload
  | _ => False

theorem Call.leads_of_deed? {broadcast : Roster Bytes} {c : Call} {result : Except Failure Reply} {d : Deed}
    (h : c.deed? broadcast result = some d) : c.Leads broadcast ∧ d.failure = failure? result := by
  cases c with
  | compute epoch leader members =>
    obtain ⟨pairs, hpairs, rfl⟩ := Option.map_eq_some_iff.mp h
    cases hresolve : Source.resolveAll broadcast members with
    | ok pairs => exact ⟨⟨pairs, hresolve⟩, rfl⟩
    | error e => simp [hresolve, Except.toOption] at hpairs
  | complete epoch memberId data =>
    obtain ⟨payload, hpayload, rfl⟩ := Option.map_eq_some_iff.mp h
    cases hresolve : data.resolve broadcast with
    | ok payload => exact ⟨⟨payload, hresolve⟩, rfl⟩
    | error e => simp [hresolve, Except.toOption] at hpayload
  | _ => cases h

structure GetsNowhere (kind : Notice.Kind) (c : Call) (r : Run) (result : Except Failure Reply)
    (r' : Run) : Prop where
  plain : Plain c r r'
  refused : c.Leads r.broadcast →
    (∃ target, result = .error (.transition kind.phase target)) ∧ r'.node = r.node ∧ Quiet r r'

section told

variable {tell : Notice → HookM Unit} {kind : Notice.Kind} {r : Run} (hphase : r.node.phase = kind.phase)

include hphase

theorem after_compute_nowhere {epoch : Int} {leader : Value} {members : List (MemberId × Source)}
    (hc : Patient kind (.compute epoch leader members)) :
    After (perform tell (.compute epoch leader members)) r
      (GetsNowhere kind (.compute epoch leader members) r) := by
  have hrevoking : r.node.phase = .revoking := by
    cases kind with
    | assigned => cases hc rfl
    | revoked => exact hphase
  apply after_perform_compute
  · intro pairs _
    apply (Node.after_compute_refused (.inr hrevoking)).mono
    rintro _ s ⟨rfl, hs, hq⟩
    exact ⟨.of_quiet rfl hs hq, fun _ => ⟨⟨.leading, by rw [hphase]; rfl⟩, hs, hq⟩⟩
  · intro e he
    refine ⟨.of_quiet rfl rfl (.refl r), ?_⟩
    rintro ⟨pairs, hpairs⟩
    rw [he] at hpairs
    cases hpairs

theorem after_complete_nowhere (epoch : Int) (memberId : MemberId) (data : Source) :
    After (perform tell (.complete epoch memberId data)) r
      (GetsNowhere kind (.complete epoch memberId data) r) := by
  have hbusy : r.node.phase = .synced ∨ r.node.phase = .active ∨ r.node.phase = .revoking := by
    cases kind with
    | assigned => exact .inl hphase
    | revoked => exact .inr (.inr hphase)
  apply after_perform_complete
  · intro payload _
    apply (Node.after_complete_refused hbusy).mono
    rintro _ s ⟨rfl, hs, hq⟩
    exact ⟨.of_quiet rfl hs hq, fun _ => ⟨⟨.synced, by rw [hphase]; rfl⟩, hs, hq⟩⟩
  · intro e he
    refine ⟨.of_quiet rfl rfl (.refl r), ?_⟩
    rintro ⟨payload, hpayload⟩
    rw [he] at hpayload
    cases hpayload

theorem after_revoke_nowhere : After (perform tell .revoke) r (GetsNowhere kind .revoke r) := by
  cases kind with
  | assigned =>
    refine (Node.gives_revoke_synced hphase).bind_after ?_
    rintro _ s ⟨hs, hq⟩
    exact after_pure ⟨.of_rejoin (by rw [hphase]; rfl) hs hq, False.elim⟩
  | revoked =>
    have hgives : Gives (Node.revoke tell) r fun _ r' => r' = r :=
      ⟨(), r, Node.revoke_revoking hphase, rfl⟩
    refine hgives.bind_after ?_
    rintro _ _ rfl
    exact after_pure ⟨.of_quiet (by rw [hphase]; rfl) rfl (.refl _), False.elim⟩

theorem after_perform_refused {c : Call} (hc : Patient kind c) :
    After (perform tell c) r (GetsNowhere kind c r) := by
  cases hidle : c.idle with
  | true =>
    apply (after_perform_plain hidle r).mono
    intro result s hs
    refine ⟨hs, ?_⟩
    cases c with
    | compute epoch leader members => cases hidle
    | complete epoch memberId data => cases hidle
    | _ => exact False.elim
  | false =>
    cases c with
    | compute epoch leader members => exact after_compute_nowhere hphase hc
    | complete epoch memberId data => exact after_complete_nowhere hphase epoch memberId data
    | revoke => exact after_revoke_nowhere hphase
    | _ => cases hidle

end told

theorem after_perform_told {tell : Notice → HookM Unit} {kind : Notice.Kind} {c : Call} {r : Run}
    (hphase : r.node.phase = kind.phase) (hc : Patient kind c) :
    After (perform tell c) r fun result r' => Undisturbed r r' ∧
      ∀ d, c.deed? r.broadcast result = some d → d.refused = true := by
  apply (after_perform_refused hphase hc).mono
  rintro result s ⟨hplain, hrefused⟩
  refine ⟨hplain.undisturbed, ?_⟩
  intro d hd
  obtain ⟨hleads, hfailure⟩ := Call.leads_of_deed? hd
  obtain ⟨⟨target, rfl⟩, _⟩ := hrefused hleads
  rw [Deed.refused, hfailure]
  rfl

def settled (caught : Bool) : Except Failure Reply → Except Failure Unit
  | .ok _ => .ok ()
  | .error e => if caught then .ok () else .error e

theorem after_act_call {tell : Notice → HookM Unit} {kind : Notice.Kind} {c : Call} {caught : Bool}
    {r : Run} {Q : Except Failure Unit → Run → Prop} (h : After (perform tell c) r fun result s =>
      Q (settled caught result) { s with trace := s.trace ++ [.answered ⟨kind, c, result, s.node.phase⟩] }) :
    After (act tell kind (.call c caught)) r Q := by
  unfold After at h
  split at h
  · rename_i reply s hperform
    refine after_of_ok (a := ()) ?_ h
    simp only [act, hperform, emit_eq]
  · rename_i e s hperform
    cases caught with
    | true =>
      refine after_of_ok (a := ()) ?_ h
      simp only [act, hperform, emit_eq, if_true]
    | false =>
      refine after_of_error (e := e) ?_ h
      simp [act, hperform, emit_eq]

theorem after_act {tell : Notice → HookM Unit} {kind : Notice.Kind} {a : Action} {r : Run}
    (hphase : r.node.phase = kind.phase) (ha : ∀ c caught, a = .call c caught → Patient kind c) :
    After (act tell kind a) r fun _ r' => Undisturbed r r' := by
  cases a with
  | raise message => exact after_throw (.refl r)
  | call c caught =>
    refine after_act_call ((after_perform_told hphase (ha c caught rfl)).mono ?_)
    rintro result s ⟨hs, hrefused⟩
    refine ⟨hs.node, hs.rejoin, hs.script, hs.broadcast, ?_, ?_⟩
    · rw [notices_append, hs.notices]
      exact List.append_nil _
    · refine hs.fruitless.trans ⟨[⟨kind, c, result, s.node.phase⟩], answers_append _ _, ?_⟩
      intro a ha
      rw [List.mem_singleton.mp ha]
      exact hrefused

theorem after_actAll {tell : Notice → HookM Unit} {kind : Notice.Kind} {actions : List Action} {r : Run}
    (hphase : r.node.phase = kind.phase)
    (hactions : ∀ c caught, Action.call c caught ∈ actions → Patient kind c) :
    After (actAll tell kind actions) r fun _ r' => Undisturbed r r' := by
  apply after_actAll_of (I := Undisturbed r) _ (.refl r)
  intro a ha s hs
  refine (after_act (hs.phase.trans hphase) ?_).mono fun _ _ ht => hs.trans ht
  rintro c caught rfl
  exact hactions c caught ha

structure Heard (notice : Notice) (r r' : Run) : Prop where
  node : r'.node = { r.node with rejoinNeeded := r'.node.rejoinNeeded }
  rejoin : r.node.rejoinNeeded = true → r'.node.rejoinNeeded = true
  broadcast : r'.broadcast = r.broadcast
  notices : notices r'.trace = notices r.trace ++ [notice]
  fruitless : Fruitless r.broadcast r.trace r'.trace

theorem Heard.then_undisturbed {notice : Notice} {r r' r'' : Run} (h : Heard notice r r')
    (h' : Undisturbed r' r'') : Heard notice r r'' where
  node := by rw [h'.node, h.node]
  rejoin := fun hr => h'.rejoin (h.rejoin hr)
  broadcast := h'.broadcast.trans h.broadcast
  notices := by rw [h'.notices, h.notices]
  fruitless := h.fruitless.trans (h.broadcast ▸ h'.fruitless)

structure Told (notice : Notice) (r r' : Run) : Prop where
  node : r'.node = r.node
  broadcast : r'.broadcast = r.broadcast
  notices : notices r'.trace = notices r.trace ++ [notice]
  answers : answers r'.trace = answers r.trace

theorem Told.heard {notice : Notice} {r r' : Run} (h : Told notice r r') : Heard notice r r' where
  node := by rw [h.node]
  rejoin := by rw [h.node]; exact id
  broadcast := h.broadcast
  notices := h.notices
  fruitless := ⟨[], by rw [h.answers, List.append_nil], by simp⟩

theorem told_hear (notice : Notice) (r : Run) :
    Gives (hear notice) r fun _ r' => r'.listener.script = r.listener.script ∧ Told notice r r' := by
  refine ⟨(), _, rfl, rfl, rfl, rfl, ?_, ?_⟩
  · exact notices_append _ _
  · exact (answers_append _ _).trans (List.append_nil _)

theorem gives_hear (notice : Notice) (r : Run) :
    Gives (hear notice) r fun _ r' => r'.node = r.node ∧ r'.listener.script = r.listener.script ∧
      Heard notice r r' := by
  apply (told_hear notice r).mono
  rintro _ s ⟨hscript, hs⟩
  exact ⟨hs.node, hscript, hs.heard⟩

theorem Conduct.after_told {keeps : Notice → Run → Listener} {actions : Notice → Run → List Action}
    {inner : Notice → Run → Conduct} {notice : Notice} {r : Run} {Q : Except Failure Unit → Run → Prop}
    (h : ∀ s t : Run, Told notice r t →
      After (actAll (inner notice s).tell notice.kind (actions notice s)) t Q) :
    After ((answers keeps actions inner).tell notice) r Q := by
  refine (told_hear notice r).bind_after ?_
  rintro _ s ⟨_, hs⟩
  refine after_get ?_
  have hkept : Gives (modify fun r => { r with listener := keeps notice r } : HookM Unit) s
      fun _ t => Told notice r t :=
    ⟨(), _, rfl, hs.node, hs.broadcast, hs.notices, hs.answers⟩
  exact hkept.bind_after fun _ t ht => h s t ht

theorem Conduct.after_answers {keeps : Notice → Run → Listener} {actions : Notice → Run → List Action}
    {inner : Notice → Run → Conduct} {notice : Notice} {r : Run} {Q : Except Failure Unit → Run → Prop}
    (h : ∀ s t : Run, t.node = r.node → Heard notice r t →
      After (actAll (inner notice s).tell notice.kind (actions notice s)) t Q) :
    After ((answers keeps actions inner).tell notice) r Q :=
  after_told fun s t ht => h s t ht.node ht.heard

/--
A listener that disturbs no round, as long as its script is as `own` says; `own` is true of all scripts
where the script does not matter.
-/
def Heeds (own : Script → Prop) (tell : Notice → HookM Unit) : Prop :=
  ∀ notice r, own r.listener.script → r.node.phase = notice.kind.phase →
    After (tell notice) r fun _ r' => Heard notice r r' ∧ own r'.listener.script

theorem Conduct.after_answers_heard {keeps : Notice → Run → Listener}
    {actions : Notice → Run → List Action} {inner : Notice → Run → Conduct} {notice : Notice} {r : Run}
    (hphase : r.node.phase = notice.kind.phase)
    (hactions : ∀ s c caught, Action.call c caught ∈ actions notice s → Patient notice.kind c) :
    After ((answers keeps actions inner).tell notice) r fun _ r' => Heard notice r r' := by
  apply after_answers
  intro s t ht htold
  refine (after_actAll ?_ (hactions s)).mono fun _ _ hu => htold.then_undisturbed hu
  rw [ht]
  exact hphase

theorem Conduct.heeds {l : Conduct} (h : l.Only Patient) : Heeds (fun _ => True) l.tell := by
  intro notice r _ hphase
  cases l with
  | silent =>
    refine (gives_hear notice r).after ?_
    rintro _ s ⟨_, _, hs⟩
    exact ⟨hs, trivial⟩
  | answers keeps actions inner =>
    exact (after_answers_heard hphase fun s => (h notice s).1).mono fun _ _ hs => ⟨hs, trivial⟩

def Script.Only (allowed : Notice.Kind → Call → Prop) (script : Script) : Prop :=
  (∀ actions ∈ script.onAssigned, ∀ c caught, Action.call c caught ∈ actions → allowed .assigned c) ∧
    ∀ actions ∈ script.onRevoked, ∀ c caught, Action.call c caught ∈ actions → allowed .revoked c

theorem Script.Only.next {allowed : Notice.Kind → Call → Prop} {script : Script}
    (h : script.Only allowed) (kind : Notice.Kind) :
    (∀ c caught, Action.call c caught ∈ (script.next kind).1 → allowed kind c) ∧
      (script.next kind).2.Only allowed := by
  have hhead : ∀ l : List (List Action), ∀ a ∈ l.headD [], l.headD [] ∈ l := by
    intro l a ha
    cases l with
    | nil => cases ha
    | cons actions rest => exact List.mem_cons_self
  cases kind with
  | assigned =>
    refine ⟨fun c caught hmem => h.1 _ (hhead _ _ hmem) c caught hmem, ?_, h.2⟩
    exact fun actions hmem => h.1 actions (List.mem_of_mem_tail hmem)
  | revoked =>
    refine ⟨fun c caught hmem => h.2 _ (hhead _ _ hmem) c caught hmem, h.1, ?_⟩
    exact fun actions hmem => h.2 actions (List.mem_of_mem_tail hmem)

theorem heeds_react (depth : Nat) : Heeds (Script.Only Patient) (react depth) := by
  intro notice r hown hphase
  cases depth with
  | zero =>
    refine (gives_hear notice r).after ?_
    rintro _ s ⟨_, hscript, hs⟩
    exact ⟨hs, by rw [hscript]; exact hown⟩
  | succ depth =>
    refine (gives_hear notice r).bind_after ?_
    rintro _ s ⟨_, hscript, hs⟩
    have hnext := hown.next notice.kind
    rw [← hscript] at hnext
    let t : Run := { s with listener :=
      { s.listener with script := (s.listener.script.next notice.kind).2 } }
    have htold : Heard notice r t := ⟨hs.node, hs.rejoin, hs.broadcast, hs.notices, hs.fruitless⟩
    have hgives : Gives (takeActions notice.kind) s fun actions u =>
        actions = (s.listener.script.next notice.kind).1 ∧ u = t := ⟨_, t, rfl, rfl, rfl⟩
    refine hgives.bind_after ?_
    rintro _ _ ⟨rfl, rfl⟩
    refine (after_actAll ?_ hnext.1).mono fun _ u hu => ⟨htold.then_undisturbed hu, ?_⟩
    · rw [htold.node]
      exact hphase
    · rw [hu.script]
      exact hnext.2

theorem gives_tellSafely_heard {own : Script → Prop} {tell : Notice → HookM Unit} {notice : Notice}
    {r : Run} (h : After (tell notice) r fun _ r' => Heard notice r r' ∧ own r'.listener.script) :
    Gives (tellSafely tell notice) r fun _ r' => Heard notice r r' ∧ own r'.listener.script := by
  apply gives_tellSafely
  apply h.mono
  rintro _ s ⟨hs, howns⟩ s' hs' hq
  exact ⟨hs.then_undisturbed (.of_quiet hs' hq), by rw [hq.listener]; exact howns⟩

theorem after_complete_heeded {own : Script → Prop} {tell : Notice → HookM Unit} {epoch : Int}
    {memberId : MemberId} {data : Payload} {r : Run} {o : Outcome} (hheeds : Heeds own tell)
    (hown : own r.listener.script) (hphase : r.node.phase = .joining ∨ r.node.phase = .leading)
    (hdata : Outcome.decode data = .ok o) (hlater : r.node.epoch < epoch) :
    After (Node.complete tell epoch memberId data) r fun result r' =>
      result = .ok () ∧ own r'.listener.script ∧
      r'.node = { r.node with
        phase := .active
        accepted := some ⟨epoch, memberId, o⟩
        rejoinNeeded := r'.node.rejoinNeeded
        metrics := r.node.metrics.record (Node.completedMeasurement ⟨epoch, memberId, o⟩) } ∧
      r'.broadcast = r.broadcast ∧ notices r'.trace = notices r.trace ++ [.assigned o epoch] ∧
      Fruitless r.broadcast r.trace r'.trace := by
  refine Node.after_complete_accepted hphase hdata hlater fun entered he hqe => ?_
  have htell := hheeds (.assigned o epoch) entered (by rw [hqe.listener]; exact hown) (by rw [he]; rfl)
  refine (gives_tellSafely_heard htell).bind_after ?_
  rintro _ s ⟨hs, howns⟩
  apply (Node.gives_move (by rw [hs.node, he]; rfl)).after
  rintro _ t ⟨ht, hqt⟩ closed hclosed hqc
  have hq := hqt.trans hqc
  refine ⟨rfl, by rw [hq.listener]; exact howns, ?_, ?_, ?_, ?_⟩
  · rw [hclosed, ht, hs.node, he]
  · rw [hq.broadcast, hs.broadcast, hqe.broadcast]
  · rw [hq.notices, hs.notices, hqe.notices]
  · exact (hqe.fruitless _).trans ((hqe.broadcast ▸ hs.fruitless).trans (hq.fruitless _))

theorem after_complete_ok {own : Script → Prop} {tell : Notice → HookM Unit} {epoch : Int}
    {memberId : MemberId} {data : Payload} {r : Run} (hheeds : Heeds own tell)
    (hown : own r.listener.script) (hphase : r.node.phase = .joining ∨ r.node.phase = .leading) :
    After (Node.complete tell epoch memberId data) r fun result _ => result = .ok () := by
  cases hdata : Outcome.decode data with
  | error e => exact (Node.after_complete_undecodable hphase hdata).mono fun _ _ h => h.1
  | ok o =>
    by_cases hstale : epoch ≤ r.node.epoch
    · exact (Node.after_complete_stale hphase hdata hstale).mono fun _ _ h => h.1
    · exact (after_complete_heeded hheeds hown hphase hdata (Int.not_le.mp hstale)).mono fun _ _ h => h.1

theorem after_revoke_heeded {own : Script → Prop} {tell : Notice → HookM Unit} {r : Run}
    (hheeds : ∀ s : Run, own s.listener.script → s.node.phase = .revoking →
      After (tell .revoked) s fun _ s' => Heard .revoked s s' ∧ own s'.listener.script)
    (hown : own r.listener.script) (hphase : r.node.phase = .active) :
    After (Node.revoke tell) r fun result r' =>
      result = .ok () ∧ own r'.listener.script ∧
      r'.node = { r.node with
        phase := .joining
        rejoinNeeded := true
        metrics := r.node.metrics.record .revoked } ∧
      r'.broadcast = r.broadcast ∧ notices r'.trace = notices r.trace ++ [.revoked] ∧
      Fruitless r.broadcast r.trace r'.trace := by
  refine Node.after_revoke_active hphase fun entered he hqe => ?_
  have htell := hheeds entered (by rw [hqe.listener]; exact hown) (by rw [he])
  refine (gives_tellSafely_heard htell).bind_after ?_
  rintro _ s ⟨hs, howns⟩
  apply (Node.gives_move (by rw [hs.node, he]; rfl)).after
  rintro _ t ⟨ht, hqt⟩ closed hclosed hqc
  have hq := hqt.trans hqc
  have hrejoin : s.node.rejoinNeeded = true := hs.rejoin (by rw [he])
  refine ⟨rfl, by rw [hq.listener]; exact howns, ?_, ?_, ?_, ?_⟩
  · rw [hclosed, ht, hs.node, he, hrejoin]
  · rw [hq.broadcast, hs.broadcast, hqe.broadcast]
  · rw [hq.notices, hs.notices, hqe.notices]
  · exact (hqe.fruitless _).trans ((hqe.broadcast ▸ hs.fruitless).trans (hq.fruitless _))

def Phase.Rests (p : Phase) : Prop := p = .joining ∨ p = .leading ∨ p = .active

theorem Phase.Rests.not_following {p : Phase} (h : p.Rests) : p ≠ .following := by
  rcases h with h | h | h <;> rw [h] <;> decide

theorem Phase.Rests.not_revoking {p : Phase} (h : p.Rests) : p ≠ .revoking := by
  rcases h with h | h | h <;> rw [h] <;> decide

theorem Phase.Rests.not_to_active {p : Phase} (h : p.Rests) : p.canMoveTo .active = false := by
  rcases h with h | h | h <;> rw [h] <;> rfl

theorem Phase.Rests.eq_of_ne_active {p : Phase} (h : p.Rests) (hactive : p ≠ .active) :
    p = .joining ∨ p = .leading := by
  rcases h with h | h | h
  · exact .inl h
  · exact .inr h
  · exact (hactive h).elim

theorem Phase.not_active_of_free {p : Phase} (h : p = .joining ∨ p = .leading) : p ≠ .active := by
  rcases h with h | h <;> rw [h] <;> decide

/--
What a call from outside makes of a node, and the notices that it gives, where `may` says which rounds
the node can accept by it.
-/
inductive Effect (may : Acceptance → Prop) (n n' : Node) : List Notice → Prop
  | silent (accepted : n'.accepted = n.accepted) (rests : n'.phase.Rests)
    (active : n'.phase = .active ↔ n.phase = .active)
    (rejoin : n.rejoinNeeded = true → n'.rejoinNeeded = true) : Effect may n n' []
  | assigned (a : Acceptance) (allowed : may a) (free : n.phase ≠ .active) (later : n.epoch < a.epoch)
    (active : n'.phase = .active) (accepted : n'.accepted = some a) :
    Effect may n n' [.assigned a.outcome a.epoch]
  | revoked (active : n.phase = .active) (joining : n'.phase = .joining)
    (accepted : n'.accepted = n.accepted) (rejoin : n'.rejoinNeeded = true) :
    Effect may n n' [.revoked]

theorem Effect.rests {may : Acceptance → Prop} {n n' : Node} {given : List Notice}
    (h : Effect may n n' given) : n'.phase.Rests := by
  cases h with
  | silent _ hrests _ _ => exact hrests
  | assigned _ _ _ _ hactive _ => exact .inr (.inr hactive)
  | revoked _ hjoining _ _ => exact .inl hjoining

def Effective (own : Script → Prop) (may : Acceptance → Prop) (r r' : Run) : Prop :=
  own r'.listener.script ∧
    ∃ given, Effect may r.node r'.node given ∧ notices r'.trace = notices r.trace ++ given

structure Session.Poised (own : Script → Prop) (s : Session) : Prop where
  kept : ∀ depth, Heeds own (react depth)
  own : own s.listener.script
  rests : s.node.phase.Rests

theorem Effective.poised {own : Script → Prop} {may : Acceptance → Prop} {s : Session} {r : Run}
    (h : Effective own may ⟨s, []⟩ r) (hs : s.Poised own) : r.toSession.Poised own := by
  obtain ⟨hown, given, heffect, _⟩ := h
  exact ⟨hs.kept, hown, heffect.rests⟩

section effects

variable {own : Script → Prop} {may : Acceptance → Prop} {tell : Notice → HookM Unit} {r r' : Run}

theorem Effective.mono {may' : Acceptance → Prop} (h : Effective own may r r')
    (hmay : ∀ a, may a → may' a) : Effective own may' r r' := by
  obtain ⟨hown, given, heffect, hnotices⟩ := h
  refine ⟨hown, given, ?_, hnotices⟩
  cases heffect with
  | silent haccepted hrests hactive hrejoin => exact .silent haccepted hrests hactive hrejoin
  | assigned a hallowed hfree hlater hactive haccepted =>
    exact .assigned a (hmay a hallowed) hfree hlater hactive haccepted
  | revoked hactive hjoining haccepted hrejoin => exact .revoked hactive hjoining haccepted hrejoin

theorem Undisturbed.effective (h : Undisturbed r r') (hown : own r.listener.script)
    (hrests : r.node.phase.Rests) : Effective own may r r' := by
  refine ⟨by rw [h.script]; exact hown, [], ?_, by rw [h.notices, List.append_nil]⟩
  refine .silent (by rw [h.node]) ?_ (by rw [h.phase]) h.rejoin
  rw [h.phase]
  exact hrests

theorem Quiet.effective (h : Quiet r r') (hown : own r.listener.script)
    (heffect : Effect may r.node r'.node []) : Effective own may r r' :=
  ⟨by rw [h.listener]; exact hown, [], heffect, by rw [h.notices, List.append_nil]⟩

theorem after_compute_effective {epoch : Int} {leader : Value} {members : Roster Payload}
    (hown : own r.listener.script) (hrests : r.node.phase.Rests) :
    After (Node.compute epoch leader members) r fun result r' =>
      (∀ assignments, result = .ok assignments → ∃ bytes,
        (Election.elect (Node.readable members) leader.text?).encode = .ok bytes ∧
          assignments = members.map fun _ => bytes) ∧ Effective own may r r' := by
  by_cases hactive : r.node.phase = .active
  · apply (Node.after_compute_refused (.inl hactive)).mono
    rintro _ s ⟨rfl, hs, hq⟩
    exact ⟨by simp, (Undisturbed.of_quiet hs hq).effective hown hrests⟩
  · apply (Node.after_compute hactive hrests.not_revoking).mono
    rintro _ s ⟨rfl, hs, hq⟩
    constructor
    · intro assignments hok
      cases hencode : (Election.elect (Node.readable members) leader.text?).encode with
      | error e =>
        rw [hencode] at hok
        cases hok
      | ok bytes =>
        rw [hencode] at hok
        cases hok
        exact ⟨bytes, rfl, rfl⟩
    · apply hq.effective hown
      apply Effect.silent (by rw [hs]) (.inr (.inl (by rw [hs])))
      · rw [hs]
        exact iff_of_false (by simp) hactive
      · rw [hs]
        intro hrejoin
        simp [hrejoin]

theorem after_complete_effective {epoch : Int} {memberId : MemberId} {data : Payload}
    (hheeds : Heeds own tell) (hown : own r.listener.script) (hrests : r.node.phase.Rests) :
    After (Node.complete tell epoch memberId data) r fun _ r' => Effective own
      (fun a => a.epoch = epoch ∧ a.memberId = memberId ∧ Outcome.decode data = .ok a.outcome) r r' := by
  by_cases hactive : r.node.phase = .active
  · apply (Node.after_complete_refused (.inr (.inl hactive))).mono
    rintro _ s ⟨_, hs, hq⟩
    exact (Undisturbed.of_quiet hs hq).effective hown hrests
  have hphase := hrests.eq_of_ne_active hactive
  have hdropped : ∀ (may : Acceptance → Prop) (s : Run), s.node.phase = .joining →
      s.node.accepted = r.node.accepted → s.node.rejoinNeeded = true → Quiet r s →
      Effective own may r s := by
    intro may s hjoining haccepted hrejoin hq
    apply hq.effective hown
    apply Effect.silent haccepted (.inl hjoining)
    · rw [hjoining]
      exact iff_of_false (by simp) hactive
    · exact fun _ => hrejoin
  cases hdata : Outcome.decode data with
  | error e =>
    apply (Node.after_complete_undecodable hphase hdata).mono
    rintro _ s ⟨_, hs, hq⟩
    exact hdropped _ s (by rw [hs]) (by rw [hs]) (by rw [hs]) hq
  | ok o =>
    by_cases hstale : epoch ≤ r.node.epoch
    · apply (Node.after_complete_stale hphase hdata hstale).mono
      rintro _ s ⟨_, hs, hq⟩
      exact hdropped _ s (by rw [hs]) (by rw [hs]) (by rw [hs]) hq
    · have hlater := Int.not_le.mp hstale
      apply (after_complete_heeded hheeds hown hphase hdata hlater).mono
      rintro _ s ⟨_, howns, hs, _, hn, _⟩
      refine ⟨howns, _, .assigned ⟨epoch, memberId, o⟩ ⟨rfl, rfl, rfl⟩ hactive hlater ?_ ?_, hn⟩
      · rw [hs]
      · rw [hs]

theorem after_revoke_effective (hheeds : Heeds own tell) (hown : own r.listener.script)
    (hrests : r.node.phase.Rests) :
    After (Node.revoke tell) r fun result r' => result = .ok () ∧
      r'.node.phase = .joining ∧ r'.node.rejoinNeeded = true ∧ Effective own may r r' := by
  by_cases hactive : r.node.phase = .active
  · apply (after_revoke_heeded (hheeds .revoked) hown hactive).mono
    rintro _ s ⟨hresult, howns, hs, _, hn, _⟩
    refine ⟨hresult, by rw [hs], by rw [hs], howns, _, .revoked hactive ?_ ?_ ?_, hn⟩ <;> rw [hs]
  · apply (Node.after_revoke_idle (hrests.eq_of_ne_active hactive)).mono
    rintro _ s ⟨hresult, hs, hq⟩
    refine ⟨hresult, by rw [hs], by rw [hs], hq.effective hown ?_⟩
    apply Effect.silent (by rw [hs]) (.inl (by rw [hs]))
    · rw [hs]
      exact iff_of_false (by simp) hactive
    · exact fun _ => by rw [hs]

def Call.Offers (broadcast : Roster Bytes) : Call → Acceptance → Prop
  | .complete epoch memberId data, a => a.epoch = epoch ∧ a.memberId = memberId ∧
      ∃ p, data.resolve broadcast = .ok p ∧ Outcome.decode p = .ok a.outcome
  | _, _ => False

theorem after_perform_effective {c : Call} (hheeds : Heeds own tell) (hown : own r.listener.script)
    (hrests : r.node.phase.Rests) :
    After (perform tell c) r fun _ r' => Effective own (c.Offers r.broadcast) r r' := by
  cases hidle : c.idle with
  | true => exact (after_perform_idle hidle r).mono fun _ _ h => h.effective hown hrests
  | false =>
    cases c with
    | compute epoch leader members =>
      apply after_perform_compute
      · intro pairs _
        exact (after_compute_effective hown hrests).mono fun _ _ h => h.2
      · exact fun _ _ => (Undisturbed.refl r).effective hown hrests
    | complete epoch memberId data =>
      apply after_perform_complete
      · intro payload hpayload
        have hoffers : ∀ a : Acceptance, a.epoch = epoch ∧ a.memberId = memberId ∧
            Outcome.decode payload = .ok a.outcome →
            (Call.complete epoch memberId data).Offers r.broadcast a := by
          rintro a ⟨hepoch, hid, houtcome⟩
          exact ⟨hepoch, hid, payload, hpayload, houtcome⟩
        exact (after_complete_effective hheeds hown hrests).mono fun _ _ h => h.mono hoffers
      · exact fun _ _ => (Undisturbed.refl r).effective hown hrests
    | revoke =>
      apply after_perform_revoke
      exact (after_revoke_effective hheeds hown hrests).mono fun _ _ h => h.2.2.2
    | _ => cases hidle

def Call.completes : Call → Bool
  | .complete _ _ _ => true
  | _ => false

theorem Call.not_offers {c : Call} (h : c.completes = false) (broadcast : Roster Bytes)
    (a : Acceptance) : ¬ c.Offers broadcast a := by
  cases c with
  | complete epoch memberId data => cases h
  | _ => exact id

end effects

end PrimaryElection
