import PrimaryElection.Proofs.Listening

/-!
Indifference. What a node has measured, and what it last computed, is for others to see: no hook acts upon
it. Two runs that are alike but for that stay alike whatever they are asked, as long as the listener asks
for the same in both.
-/

namespace PrimaryElection

open HookM

/-- The runs differ at most in measurements, in the last broadcast, and in events that are no notices. -/
structure Alike (r r' : Run) : Prop where
  node : r'.node = { r.node with metrics := r'.node.metrics }
  listener : r'.listener = r.listener
  notices : notices r'.trace = notices r.trace

theorem Alike.of_quiet {r r' s s' : Run} {f : Node → Node} (h : Alike r r')
    (hs : s.node = f r.node) (hq : Quiet r s) (hs' : s'.node = f r'.node) (hq' : Quiet r' s')
    (hf : ∀ n m, ∃ m', f { n with metrics := m } = { f n with metrics := m' }) : Alike s s' where
  node := by
    obtain ⟨m', hm'⟩ := hf r.node r'.node.metrics
    rw [← h.node] at hm'
    rw [hs', hm', hs]
  listener := by rw [hq'.listener, hq.listener, h.listener]
  notices := by rw [hq'.notices, hq.notices, h.notices]

def Indifferent {α : Type} (x : HookM α) : Prop :=
  ∀ r, After x r fun result s => ∀ r', Alike r r' → After x r' fun result' s' =>
    result' = result ∧ Alike s s'

section combinators

variable {α β : Type}

theorem indifferent_pure (a : α) : Indifferent (pure a : HookM α) :=
  fun _ => after_pure fun _ h => after_pure ⟨rfl, h⟩

theorem indifferent_throw (e : Failure) : Indifferent (throw e : HookM α) :=
  fun _ => after_throw fun _ h => after_throw ⟨rfl, h⟩

theorem Indifferent.bind {x : HookM α} {f : α → HookM β} (hx : Indifferent x)
    (hf : ∀ a, Indifferent (f a)) : Indifferent (x >>= f) := by
  intro r
  refine (hx r).bind ?_ ?_
  · intro a s hs
    apply (hf a s).mono
    intro result t ht r' hr'
    refine (hs r' hr').bind ?_ ?_
    · rintro a' s' ⟨ha, hs'⟩
      cases ha
      exact ht s' hs'
    · rintro e s' ⟨hfalse, _⟩
      cases hfalse
  · intro e s hs r' hr'
    refine (hs r' hr').bind ?_ ?_
    · rintro a' s' ⟨hfalse, _⟩
      cases hfalse
    · rintro e' s' ⟨he, hs'⟩
      cases he
      exact ⟨rfl, hs'⟩

theorem indifferent_ofExcept (x : Except Failure α) :
    Indifferent (MonadExcept.ofExcept x : HookM α) := by
  cases x with
  | ok a => exact indifferent_pure a
  | error e => exact indifferent_throw e

theorem indifferent_node {f : Node → HookM α} (hf : ∀ n m, f { n with metrics := m } = f n)
    (h : ∀ n, Indifferent (f n)) : Indifferent (node >>= f) := by
  intro r
  refine after_node ((h r.node r).mono ?_)
  intro result s hs r' hr'
  refine after_node ?_
  rw [hr'.node, hf]
  exact hs r' hr'

theorem indifferent_get {f : Run → HookM α} (hf : ∀ r r', Alike r r' → f r' = f r)
    (h : ∀ r, Indifferent (f r)) : Indifferent (get >>= f) := by
  intro r
  refine after_get ((h r r).mono ?_)
  intro result s hs r' hr'
  refine after_get ?_
  rw [hf r r' hr']
  exact hs r' hr'

theorem indifferent_modify {f : Run → Run} (hf : ∀ r r', Alike r r' → Alike (f r) (f r')) :
    Indifferent (modify f : HookM Unit) :=
  fun r => after_of_ok rfl fun r' h => after_of_ok rfl ⟨rfl, hf r r' h⟩

theorem indifferent_of_gives {x : HookM Unit} (f : Node → Node)
    (hx : ∀ r, Gives x r fun _ s => s.node = f r.node ∧ Quiet r s)
    (hf : ∀ n m, ∃ m', f { n with metrics := m } = { f n with metrics := m' }) : Indifferent x := by
  intro r
  apply (hx r).after
  rintro _ s ⟨hs, hq⟩ r' hr'
  apply (hx r').after
  rintro _ s' ⟨hs', hq'⟩
  exact ⟨rfl, hr'.of_quiet hs hq hs' hq' hf⟩

theorem indifferent_log (entry : LogEntry) : Indifferent (log entry) :=
  indifferent_of_gives id (gives_log entry) fun _ m => ⟨m, rfl⟩

theorem indifferent_mark (key : Attribute) (value : Value) : Indifferent (mark key value) :=
  indifferent_of_gives id (gives_mark key value) fun _ m => ⟨m, rfl⟩

theorem indifferent_measure (m : Metrics.Measurement) : Indifferent (measure m) :=
  indifferent_of_gives (fun n => { n with metrics := n.metrics.record m }) (gives_measure m)
    fun _ _ => ⟨_, rfl⟩

theorem indifferent_inSpan {hook : Hook} {attributes : List (Attribute × Value)} {work : HookM α}
    (h : Indifferent work) : Indifferent (inSpan hook attributes work) := by
  intro r
  refine after_inSpan fun opened hopened hqo => (h opened).mono ?_
  intro result s hs closed hclosed hqc r' hr'
  refine after_inSpan fun opened' hopened' hqo' => ?_
  have halike : Alike opened opened' := hr'.of_quiet (f := id) hopened hqo hopened' hqo' fun _ m => ⟨m, rfl⟩
  apply (hs opened' halike).mono
  rintro result' s' ⟨hresult, hs'⟩ closed' hclosed' hqc'
  exact ⟨hresult, hs'.of_quiet (f := id) hclosed hqc hclosed' hqc' fun _ m => ⟨m, rfl⟩⟩

end combinators

theorem indifferent_tellSafely {tell : Notice → HookM Unit} {notice : Notice}
    (h : Indifferent (tell notice)) : Indifferent (tellSafely tell notice) := by
  intro r
  have hgives : Gives (tellSafely tell notice) r fun _ s => ∀ r', Alike r r' →
      Gives (tellSafely tell notice) r' fun _ s' => Alike s s' := by
    apply gives_tellSafely
    apply (h r).mono
    intro _ s hs t ht hqt r' hr'
    apply gives_tellSafely
    apply (hs r' hr').mono
    rintro _ s' ⟨_, hs'⟩ t' ht' hqt'
    exact hs'.of_quiet (f := id) ht hqt ht' hqt' fun _ m => ⟨m, rfl⟩
  apply hgives.after
  intro _ s hs r' hr'
  exact (hs r' hr').after fun _ _ hs' => ⟨rfl, hs'⟩

namespace Node

theorem indifferent_move (target : Phase) : Indifferent (move target) := by
  refine indifferent_node (fun _ _ => rfl) fun n => ?_
  dsimp only
  split
  · refine (indifferent_log _).bind fun _ => ?_
    exact indifferent_of_gives (fun n => { n with phase := target }) (gives_update _) fun _ m => ⟨m, rfl⟩
  · exact indifferent_throw _

theorem indifferent_needRejoin : Indifferent needRejoin :=
  indifferent_of_gives (fun n => { n with rejoinNeeded := true }) gives_needRejoin fun _ m => ⟨m, rfl⟩

theorem indifferent_abandon (reason : Abandonment) : Indifferent (abandon reason) := by
  refine indifferent_node (fun _ _ => rfl) fun n => (indifferent_log _).bind fun _ => ?_
  exact indifferent_needRejoin.bind fun _ => indifferent_move .joining

theorem indifferent_identity : Indifferent identity :=
  indifferent_node (fun _ _ => rfl) fun _ => indifferent_ofExcept _

theorem indifferent_metadata : Indifferent metadata :=
  indifferent_identity.bind fun _ => (indifferent_log _).bind fun _ => indifferent_ofExcept _

theorem indifferent_excludeUnreadable (epoch : Int) (members : List (MemberId × Payload)) :
    Indifferent (excludeUnreadable epoch members) := by
  induction members with
  | nil => exact indifferent_pure ()
  | cons e rest ih =>
    obtain ⟨memberId, payload⟩ := e
    unfold excludeUnreadable
    cases Identity.decode payload with
    | ok i => exact (indifferent_pure ()).bind fun _ => ih
    | error e => exact ((indifferent_measure _).bind fun _ => indifferent_log _).bind fun _ => ih

theorem indifferent_broadcast (epoch : Int) (leader : Value) (members : Roster Payload) :
    Indifferent (broadcast epoch leader members) := by
  unfold broadcast
  refine (indifferent_excludeUnreadable epoch _).bind fun _ => ?_
  dsimp only
  split
  all_goals
    refine (indifferent_log _).bind fun _ => (indifferent_mark _ _).bind fun _ => ?_
    refine (indifferent_mark _ _).bind fun _ => (indifferent_measure _).bind fun _ => ?_
    exact (indifferent_ofExcept _).bind fun _ => indifferent_pure _

theorem indifferent_compute (epoch : Int) (leader : Value) (members : Roster Payload) :
    Indifferent (compute epoch leader members) := by
  refine indifferent_node (fun _ _ => rfl) fun n => indifferent_inSpan ?_
  have hlead : Indifferent (move .leading >>= fun _ => broadcast epoch leader members) :=
    (indifferent_move _).bind fun _ => indifferent_broadcast epoch leader members
  refine indifferent_node (fun _ _ => rfl) fun n' => ?_
  dsimp only
  split
  · exact (indifferent_abandon _).bind fun _ => hlead
  · exact hlead

theorem indifferent_accept (a : Acceptance) : Indifferent (accept a) :=
  indifferent_of_gives (fun n => { n with
    accepted := some a
    rejoinNeeded := false
    metrics := n.metrics.record (completedMeasurement a) }) (gives_accept a) fun _ _ => ⟨_, rfl⟩

section telling

variable {tell : Notice → HookM Unit} (htell : ∀ notice, Indifferent (tell notice))

include htell in
theorem indifferent_synced (epoch : Int) (memberId : MemberId) (data : Payload) :
    Indifferent (do
      move .synced
      match Outcome.decode data with
      | .error e =>
        measure (.decodeFailure (.text e.payload))
        log (.undecodable epoch memberId e.fault)
        abandon .undecodable
      | .ok outcome =>
        let last := (← node).epoch
        if epoch ≤ last then
          log (.stale epoch last memberId)
          abandon .stale
        else
          accept ⟨epoch, memberId, outcome⟩
          tellSafely tell (.assigned outcome epoch)
          move .active) := by
  refine (indifferent_move _).bind fun _ => ?_
  split
  · refine (indifferent_measure _).bind fun _ => ?_
    exact (indifferent_log _).bind fun _ => indifferent_abandon _
  · refine indifferent_node (fun _ _ => rfl) fun n => ?_
    dsimp only
    split
    · exact (indifferent_log _).bind fun _ => indifferent_abandon _
    · refine (indifferent_accept _).bind fun _ => ?_
      exact (indifferent_tellSafely (htell _)).bind fun _ => indifferent_move _

include htell in
theorem indifferent_complete (epoch : Int) (memberId : MemberId) (data : Payload) :
    Indifferent (complete tell epoch memberId data) := by
  have hsynced := indifferent_synced htell epoch memberId data
  refine indifferent_node (fun _ _ => rfl) fun n => indifferent_inSpan ?_
  refine indifferent_node (fun _ _ => rfl) fun n' => ?_
  dsimp only
  split
  · exact (indifferent_move _).bind fun _ => hsynced
  · exact hsynced

include htell in
theorem indifferent_surrender : Indifferent (surrender tell) := by
  refine (indifferent_move _).bind fun _ => (indifferent_measure _).bind fun _ => ?_
  refine indifferent_node (fun _ _ => rfl) fun n => indifferent_node (fun _ _ => rfl) fun n' => ?_
  refine (indifferent_log _).bind fun _ => (indifferent_tellSafely (htell _)).bind fun _ => ?_
  exact indifferent_move _

include htell in
theorem indifferent_revoke : Indifferent (revoke tell) := by
  refine indifferent_node (fun _ _ => rfl) fun n => ?_
  split
  · exact indifferent_pure ()
  · exact (indifferent_log _).bind fun _ => indifferent_needRejoin
  · refine indifferent_inSpan (indifferent_needRejoin.bind fun _ => ?_)
    split
    · exact indifferent_abandon _
    split
    · exact indifferent_surrender htell
    · exact indifferent_pure ()

end telling

theorem indifferent_requestRejoin (reason : Value) : Indifferent (requestRejoin reason) :=
  indifferent_of_gives (fun n => { n with rejoinNeeded := true }) (gives_requestRejoin reason)
    fun _ m => ⟨m, rfl⟩

end Node

def Source.Fresh : Source → Prop
  | .computed _ => False
  | _ => True

def Call.Fresh : Call → Prop
  | .compute _ _ members => ∀ e ∈ members, e.2.Fresh
  | .complete _ _ data => data.Fresh
  | _ => True

theorem Source.Fresh.resolve {s : Source} (h : s.Fresh) (broadcast broadcast' : Roster Bytes) :
    s.resolve broadcast' = s.resolve broadcast := by
  cases s with
  | computed memberId => exact h.elim
  | _ => rfl

theorem Source.resolveAll_fresh {members : List (MemberId × Source)} (h : ∀ e ∈ members, e.2.Fresh)
    (broadcast broadcast' : Roster Bytes) :
    resolveAll broadcast' members = resolveAll broadcast members := by
  induction members with
  | nil => rfl
  | cons e rest ih =>
    obtain ⟨memberId, source⟩ := e
    have hfirst := (h _ List.mem_cons_self).resolve broadcast broadcast'
    have hrest := ih fun e he => h e (List.mem_cons_of_mem _ he)
    dsimp only at hfirst
    simp only [resolveAll, hfirst, hrest]

section listeners

variable {tell : Notice → HookM Unit}

theorem indifferent_perform {c : Call} (htell : ∀ notice, Indifferent (tell notice)) (hc : c.Fresh) :
    Indifferent (perform tell c) := by
  cases c with
  | noop => exact indifferent_pure _
  | config =>
    refine indifferent_node (fun _ _ => rfl) fun n => ?_
    exact Node.indifferent_identity.bind fun _ => indifferent_pure _
  | subProtocolName => exact indifferent_node (fun _ _ => rfl) fun n => indifferent_pure _
  | metadata => exact Node.indifferent_metadata.bind fun _ => indifferent_pure _
  | compute epoch leader members =>
    refine indifferent_get ?_ fun r => ?_
    · intro r r' _
      rw [Source.resolveAll_fresh hc r.broadcast r'.broadcast]
    · refine (indifferent_ofExcept _).bind fun pairs => ?_
      refine (Node.indifferent_compute _ _ _).bind fun payloads => ?_
      refine (indifferent_modify ?_).bind fun _ => indifferent_pure _
      exact fun r r' h => ⟨h.node, h.listener, h.notices⟩
  | complete epoch memberId data =>
    refine indifferent_get ?_ fun r => ?_
    · intro r r' _
      rw [Source.Fresh.resolve hc r.broadcast r'.broadcast]
    · refine (indifferent_ofExcept _).bind fun payload => ?_
      exact (Node.indifferent_complete htell _ _ _).bind fun _ => indifferent_pure _
  | revoke => exact (Node.indifferent_revoke htell).bind fun _ => indifferent_pure _
  | rejoinNeeded => exact indifferent_node (fun _ _ => rfl) fun n => indifferent_pure _
  | requestRejoin reason => exact (Node.indifferent_requestRejoin reason).bind fun _ => indifferent_pure _
  | isPrimary => exact indifferent_node (fun _ _ => rfl) fun n => indifferent_pure _
  | status => exact indifferent_node (fun _ _ => rfl) fun n => indifferent_pure _
  | listenerReset =>
    refine (indifferent_modify ?_).bind fun _ => indifferent_pure _
    exact fun r r' h => ⟨h.node, by simp only [h.listener], h.notices⟩
  | collect => exact indifferent_pure _

theorem indifferent_act {kind : Notice.Kind} {a : Action} (htell : ∀ notice, Indifferent (tell notice))
    (ha : ∀ c caught, a = .call c caught → c.Fresh) : Indifferent (act tell kind a) := by
  cases a with
  | raise message => exact indifferent_throw _
  | call c caught =>
    have hperform := indifferent_perform htell (ha c caught rfl)
    intro r
    refine after_act_call ((hperform r).mono fun result s hs r' hr' => ?_)
    refine after_act_call ((hs r' hr').mono ?_)
    rintro _ s' ⟨rfl, hs'⟩
    refine ⟨rfl, hs'.node, hs'.listener, ?_⟩
    rw [notices_append, notices_append, hs'.notices]
    rfl

theorem indifferent_actAll {kind : Notice.Kind} {actions : List Action}
    (htell : ∀ notice, Indifferent (tell notice))
    (hactions : ∀ c caught, Action.call c caught ∈ actions → c.Fresh) :
    Indifferent (actAll tell kind actions) := by
  induction actions with
  | nil => exact indifferent_pure ()
  | cons a rest ih =>
    refine (indifferent_act htell ?_).bind fun _ => ih ?_
    · rintro c caught rfl
      exact hactions c caught List.mem_cons_self
    · exact fun c caught hmem => hactions c caught (List.mem_cons_of_mem _ hmem)

theorem indifferent_hear (notice : Notice) : Indifferent (hear notice) := by
  refine (indifferent_modify ?_).bind fun _ => indifferent_modify ?_
  · exact fun r r' h => ⟨h.node, by simp only [h.listener], h.notices⟩
  · intro r r' h
    refine ⟨h.node, h.listener, ?_⟩
    dsimp only
    rw [notices_append, notices_append, h.notices]

end listeners

def Conduct.Steady : Conduct → Prop
  | silent => True
  | answers keeps actions inner => ∀ notice r,
    (∀ r', Alike r r' → keeps notice r' = keeps notice r ∧ actions notice r' = actions notice r ∧
      inner notice r' = inner notice r) ∧
    (∀ c caught, Action.call c caught ∈ actions notice r → c.Fresh) ∧ (inner notice r).Steady

theorem Conduct.Steady.indifferent {l : Conduct} (h : l.Steady) (notice : Notice) :
    Indifferent (l.tell notice) := by
  induction l generalizing notice with
  | silent => exact indifferent_hear notice
  | answers keeps actions inner ih =>
    refine (indifferent_hear notice).bind fun _ => indifferent_get ?_ fun r => ?_
    · intro r r' halike
      obtain ⟨_, hactions, hinner⟩ := (h notice r).1 r' halike
      rw [hactions, hinner]
    · refine (indifferent_modify ?_).bind fun _ => ?_
      · intro r r' halike
        exact ⟨halike.node, ((h notice r).1 r' halike).1, halike.notices⟩
      · exact indifferent_actAll (fun notice' => ih notice r (h notice r).2.2 notice') (h notice r).2.1

end PrimaryElection
