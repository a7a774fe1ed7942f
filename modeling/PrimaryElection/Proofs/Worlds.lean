import PrimaryElection.Group.Operation
import PrimaryElection.Proofs.Listening

/-!
Worlds. Work on one node leaves the group and the other nodes as they are, and is judged by what it does
to the node alone. A course of a group is all that follows from a sequence of operations, each carried as
far as it goes.
-/

namespace PrimaryElection.Group

variable {ι : Type}

def notified (trace : List (Note ι)) : List Notice :=
  trace.filterMap fun
    | .node _ (.notified notice) => some notice
    | _ => none

theorem notified_append (l l' : List (Note ι)) : notified (l ++ l') = notified l ++ notified l' :=
  List.filterMap_append

theorem notified_events (i : ι) (events : List Event) :
    notified (events.map (.node i)) = notices events := by
  induction events with
  | nil => rfl
  | cons e rest ih =>
    unfold notified notices at ih
    cases e <;> simp [notified, notices, ih]

theorem mem_notified {i : ι} {notice : Notice} {trace : List (Note ι)}
    (h : Note.node i (.notified notice) ∈ trace) : notice ∈ notified trace :=
  List.mem_filterMap.mpr ⟨_, h, rfl⟩

def World.Poised (own : Script → Prop) (w : World ι) : Prop := ∀ i, (w.nodes i).Poised own

structure World.Joins (w : World ι) (i : ι) : Prop where
  phase : (w.nodes i).node.phase = .joining
  rejoin : (w.nodes i).node.rejoinNeeded = true

section world

variable [DecidableEq ι]

def World.put (w : World ι) (i : ι) (r : Run) : World ι where
  group := w.group
  nodes := fun j => if j = i then r.toSession else w.nodes j
  trace := w.trace ++ r.trace.map (.node i)

namespace World

variable (w : World ι) (i : ι) (r : Run)

@[simp] theorem put_group : (w.put i r).group = w.group := rfl

@[simp] theorem put_self : (w.put i r).nodes i = r.toSession := if_pos rfl

@[simp] theorem put_other {j : ι} (h : j ≠ i) : (w.put i r).nodes j = w.nodes j := if_neg h

@[simp] theorem put_notified : notified (w.put i r).trace = notified w.trace ++ notices r.trace := by
  rw [← notified_events i r.trace, ← notified_append]
  rfl

end World

theorem after_onNode {α : Type} {i : ι} {work : (Notice → HookM Unit) → HookM α} {w : World ι}
    {P : Except Failure α → Run → Prop} {Q : Except Error α → World ι → Prop}
    (hwork : After (work (react (w.nodes i).listener.script.size)) ⟨w.nodes i, []⟩ P)
    (hok : ∀ a r, P (.ok a) r → Q (.ok a) (w.put i r))
    (herror : ∀ e r, P (.error e) r → Q (.error (.node e)) (w.put i r)) :
    After (GroupM.onNode i work) w Q := by
  unfold After at hwork
  split at hwork
  · rename_i a r hr
    apply after_of_ok (a := a) _ (hok a r hwork)
    simp only [GroupM.onNode, Session.run, hr]
    rfl
  · rename_i e r hr
    apply after_of_error (e := .node e) _ (herror e r hwork)
    simp only [GroupM.onNode, Session.run, hr]
    rfl

theorem World.Poised.put {own : Script → Prop} {may : Acceptance → Prop} {w : World ι} {i : ι} {r : Run}
    (h : w.Poised own) (heffective : Effective own may ⟨w.nodes i, []⟩ r) : (w.put i r).Poised own := by
  intro j
  by_cases hj : j = i
  · subst hj
    rw [put_self]
    exact heffective.poised (h j)
  · rw [put_other w i r hj]
    exact h j

theorem gives_onNode_revoke {own : Script → Prop} {w : World ι} {i : ι} (h : (w.nodes i).Poised own) :
    Gives (GroupM.onNode i Node.revoke) w fun _ w' => ∃ r, w' = w.put i r ∧
      r.node.phase = .joining ∧ r.node.rejoinNeeded = true ∧
        Effective own (fun _ => False) ⟨w.nodes i, []⟩ r := by
  have hrevoke : After (GroupM.onNode i Node.revoke) w fun result w' => result = .ok () ∧
      ∃ r, w' = w.put i r ∧ r.node.phase = .joining ∧ r.node.rejoinNeeded = true ∧
        Effective own (fun _ => False) ⟨w.nodes i, []⟩ r := by
    apply after_onNode (after_revoke_effective (r := ⟨w.nodes i, []⟩) (h.kept _) h.own h.rests)
    · rintro a r ⟨_, hr⟩
      exact ⟨rfl, r, rfl, hr⟩
    · rintro e r ⟨hfalse, _⟩
      cases hfalse
  exact gives_of_after hrevoke

theorem gives_revokeAll {own : Script → Prop} {I : World ι → Prop}
    {members : List (MemberId × Handler ι)} {w : World ι} (hpoised : ∀ w, I w → w.Poised own)
    (hput : ∀ w i r, I w → Effective own (fun _ => False) ⟨w.nodes i, []⟩ r → I (w.put i r)) (h : I w) :
    Gives (revokeAll members) w fun _ w' => I w' ∧ w'.group = w.group ∧
      (∀ j, w.Joins j → w'.Joins j) ∧ ∀ e ∈ members, w'.Joins e.2.node := by
  induction members generalizing w with
  | nil => exact gives_pure ⟨h, rfl, fun _ => id, by simp⟩
  | cons e rest ih =>
    refine (gives_onNode_revoke (hpoised w h e.2.node)).bind ?_
    rintro _ _ ⟨r, rfl, hjoining, hrejoin, heffective⟩
    have hself : (w.put e.2.node r).Joins e.2.node := by
      constructor
      · rw [World.put_self]
        exact hjoining
      · rw [World.put_self]
        exact hrejoin
    have hstays : ∀ j, w.Joins j → (w.put e.2.node r).Joins j := by
      intro j hj
      by_cases heq : j = e.2.node
      · rw [heq]
        exact hself
      · constructor <;> rw [World.put_other w _ r heq]
        · exact hj.phase
        · exact hj.rejoin
    apply (ih (hput w _ r h heffective)).mono
    rintro _ w' ⟨hw', hgroup, hstays', hrest⟩
    refine ⟨hw', hgroup, fun j hj => hstays' j (hstays j hj), ?_⟩
    intro e' hmem
    rcases List.mem_cons.mp hmem with rfl | hmem
    · exact hstays' _ hself
    · exact hrest e' hmem

end world

theorem after_get {α : Type} {f : World ι → GroupM ι α} {w : World ι} {Q : Except Error α → World ι → Prop}
    (h : After (f w) w Q) : After (get >>= f) w Q := h

theorem after_group {α : Type} {f : Group ι → GroupM ι α} {w : World ι}
    {Q : Except Error α → World ι → Prop} (h : After (f w.group) w Q) :
    After (GroupM.group >>= f) w Q := h

theorem after_update {α : Type} {f : Group ι → Group ι} {k : Unit → GroupM ι α} {w : World ι}
    {Q : Except Error α → World ι → Prop} (h : After (k ()) { w with group := f w.group } Q) :
    After (GroupM.update f >>= k) w Q := h

theorem after_log {α : Type} {entry : LogEntry} {k : Unit → GroupM ι α} {w : World ι}
    {Q : Except Error α → World ι → Prop}
    (h : After (k ()) { w with trace := w.trace ++ [.logged w.group.groupId entry] } Q) :
    After (GroupM.log entry >>= k) w Q := h

theorem mem_of_leaderOf {g : Group ι} {asked : Value} {leader : MemberId × Handler ι}
    (h : leaderOf g asked = .ok leader) : leader ∈ g.members.entries := by
  unfold leaderOf at h
  split at h
  · cases h
  rename_i first rest hentries
  split at h
  · cases h
    rw [hentries]
    exact List.mem_cons_self
  split at h
  · cases h
  split at h
  · rename_i found hfound
    cases h
    obtain ⟨id, _, hget⟩ := Option.bind_eq_some_iff.mp hfound
    obtain ⟨m, hm, rfl⟩ := Option.map_eq_some_iff.mp hget
    exact (g.members.get?_eq_some_iff id m).mp hm
  · cases h

theorem after_handler {w : World ι} (memberId : MemberId) :
    After (handler memberId) w fun result w' => w' = w ∧
      ∀ m, result = .ok m → w.group.members.get? memberId = some m := by
  unfold handler
  refine after_group ?_
  split
  · rename_i m hm
    refine after_pure ⟨rfl, ?_⟩
    intro m' hm'
    cases hm'
    exact hm
  · exact after_throw ⟨rfl, by simp⟩

/-- What operations lead to; one that fails keeps all that it did before. -/
inductive Course [DecidableEq ι] (allowed : Operation ι → Prop) (first : World ι) : World ι → Prop
  | begin : Course allowed first first
  | operate {w : World ι} (op : Operation ι) : Course allowed first w → allowed op →
      Course allowed first (left (operate op) w)

theorem Course.operateAll [DecidableEq ι] {allowed : Operation ι → Prop} {first w : World ι}
    {ops : List (Operation ι)} (h : Course allowed first w) (hops : ∀ op ∈ ops, allowed op) :
    Course allowed first (ops.foldl (fun w op => left (Group.operate op) w) w) := by
  induction ops generalizing w with
  | nil => exact h
  | cons op rest ih =>
    have hfirst := h.operate op (hops op List.mem_cons_self)
    exact ih hfirst fun op hop => hops op (List.mem_cons_of_mem _ hop)

end PrimaryElection.Group
