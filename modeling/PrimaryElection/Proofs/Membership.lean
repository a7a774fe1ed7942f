import Mathlib.Data.List.Dedup
import PrimaryElection.Proofs.Resting
import PrimaryElection.Proofs.Rosters
import PrimaryElection.Proofs.Worlds

namespace PrimaryElection.Group

open GroupM

variable {ι : Type}

def joined (trace : List (Note ι)) : List MemberId :=
  trace.filterMap fun
    | .logged _ (.joined id) => some id
    | _ => none

theorem joined_append (l l' : List (Note ι)) : joined (l ++ l') = joined l ++ joined l' :=
  List.filterMap_append

theorem joined_events (i : ι) (events : List Event) : joined (events.map (Note.node i)) = [] := by
  induction events with
  | nil => rfl
  | cons e rest ih => exact ih

def World.Rests (w : World ι) : Prop := ∀ i, (w.nodes i).node.phase.Rests

/-- Work on the nodes alone: the group stays as it is, and the nodes keep their configurations. -/
structure Serves (w w' : World ι) : Prop where
  group : w'.group = w.group
  joined : joined w'.trace = joined w.trace
  config : ∀ i, (w'.nodes i).node.config = (w.nodes i).node.config
  rests : w.Rests → w'.Rests

namespace Serves

variable {w w' w'' : World ι}

theorem refl (w : World ι) : Serves w w := ⟨rfl, rfl, fun _ => rfl, id⟩

theorem trans (h : Serves w w') (h' : Serves w' w'') : Serves w w'' where
  group := h'.group.trans h.group
  joined := h'.joined.trans h.joined
  config := fun i => (h'.config i).trans (h.config i)
  rests := h'.rests ∘ h.rests

theorem completed (w : World ι) (epoch : Int) (leader : MemberId) :
    Serves w { w with trace := w.trace ++ [.logged w.group.groupId (.completed epoch leader)] } where
  group := rfl
  joined := (joined_append _ _).trans (List.append_nil _)
  config := fun _ => rfl
  rests := id

theorem put [DecidableEq ι] {i : ι} {r : Run} (h : Keeps [] ⟨w.nodes i, []⟩ r) :
    Serves w (w.put i r) where
  group := rfl
  joined := by
    unfold World.put
    rw [joined_append, joined_events, List.append_nil]
  config := by
    intro j
    by_cases hj : j = i
    · subst hj
      rw [World.put_self]
      exact h.config
    · rw [World.put_other w i r hj]
  rests := by
    intro hw j
    by_cases hj : j = i
    · subst hj
      rw [World.put_self]
      exact h.rests (hw j)
    · rw [World.put_other w i r hj]
      exact hw j

end Serves

section nodes

variable [DecidableEq ι] {w : World ι}

theorem serves_onNode {α : Type} {i : ι} {work : (Notice → HookM Unit) → HookM α}
    (hwork : ∀ tell, Conserves tell → After (work tell) ⟨w.nodes i, []⟩ fun _ r =>
      Keeps [] ⟨w.nodes i, []⟩ r) :
    After (onNode i work) w fun _ w' => Serves w w' :=
  after_onNode (hwork _ (conserves_react _)) (fun _ _ hr => .put hr) fun _ _ hr => .put hr

theorem gives_onNode_revoke_serves (hw : w.Rests) (i : ι) :
    Gives (onNode i Node.revoke) w fun _ w' => Serves w w' := by
  have hrevoke := gives_revoke_keeps (r := ⟨w.nodes i, []⟩) (hw i).not_following
    (conserves_react (w.nodes i).listener.script.size)
  have hran : After (onNode i Node.revoke) w fun result w' => result = .ok () ∧ Serves w w' := by
    apply after_onNode (hrevoke.after (Q := fun result r => result = .ok () ∧ Keeps [] _ r) ?_)
    · rintro _ r ⟨_, hr⟩
      exact ⟨rfl, .put hr⟩
    · rintro _ r ⟨hfalse, _⟩
      cases hfalse
    · exact fun _ _ h => ⟨rfl, h⟩
  exact gives_of_after hran

theorem gives_revokeAll_serves {members : List (MemberId × Handler ι)} (hw : w.Rests) :
    Gives (revokeAll members) w fun _ w' => Serves w w' := by
  induction members generalizing w with
  | nil => exact gives_pure (.refl w)
  | cons e rest ih =>
    refine (gives_onNode_revoke_serves hw e.2.node).bind ?_
    intro _ w₁ h₁
    exact (ih (h₁.rests hw)).mono fun _ _ h => h₁.trans h

theorem after_gather_serves {members : List (MemberId × Handler ι)} :
    After (gather members) w fun _ w' => Serves w w' := by
  induction members generalizing w with
  | nil => exact after_pure (.refl w)
  | cons e rest ih =>
    obtain ⟨id, m⟩ := e
    have hmetadata : After (onNode m.node fun _ => Node.metadata) w fun _ w' => Serves w w' := by
      apply serves_onNode
      intro _ _
      apply (Node.after_metadata _).mono
      rintro _ r ⟨_, hnode, hq⟩
      exact .of_undisturbed (.of_quiet hnode hq)
    refine hmetadata.bind ?_ fun _ _ h => h
    intro submitted w₁ h₁
    refine after_group (ih.bind ?_ fun _ _ h₂ => h₁.trans h₂)
    exact fun _ _ h₂ => after_pure (h₁.trans h₂)

theorem after_assign_serves {m : Handler ι} {epoch : Int} {leader : MemberId}
    {metadata : Roster Payload} : After (assign m epoch leader metadata) w fun _ w' => Serves w w' := by
  have hcompute : After (onNode m.node fun _ => Node.compute epoch (.text leader) metadata) w
      fun _ w' => Serves w w' := serves_onNode fun _ _ => after_compute_keeps
  exact hcompute.bind (fun _ _ h => after_pure h) fun _ _ h => h

theorem after_deliver_serves {epoch : Int} {assignments : Roster Bytes}
    {members : List (MemberId × Handler ι)} (hw : w.Rests) :
    After (deliver epoch assignments members) w fun _ w' => Serves w w' := by
  induction members generalizing w with
  | nil => exact after_pure (.refl w)
  | cons e rest ih =>
    obtain ⟨id, m⟩ := e
    unfold deliver
    refine after_group ?_
    split
    · rename_i payload _
      have hcomplete : After (onNode m.node fun tell => Node.complete tell epoch id payload) w
          fun _ w' => Serves w w' :=
        serves_onNode fun _ htell => after_complete_keeps (hw m.node).not_following htell
      refine hcomplete.bind ?_ fun _ _ h => h
      intro _ w₁ h₁
      exact (ih (h₁.rests hw)).mono fun _ _ h => h₁.trans h
    · exact after_throw (.refl w)

end nodes

structure Whole (r : Round) : Prop where
  leader : r.leader ∈ r.members
  members : r.members.Nodup
  assigned : ∀ id ∈ r.members, r.assignments.contains id = true

structure Recorded (rounds : List Round) (epoch : Int) : Prop where
  increasing : (rounds.map Round.epoch).Pairwise (· < ·)
  bounded : ∀ r ∈ rounds, r.epoch ≤ epoch
  whole : ∀ r ∈ rounds, Whole r

namespace Recorded

variable {rounds : List Round} {epoch : Int}

theorem mono (h : Recorded rounds epoch) {epoch' : Int} (hepoch : epoch ≤ epoch') :
    Recorded rounds epoch' where
  increasing := h.increasing
  bounded := fun r hr => Int.le_trans (h.bounded r hr) hepoch
  whole := h.whole

theorem keep (h : Recorded rounds epoch) {r : Round} (hepoch : r.epoch = epoch + 1) (hr : Whole r) :
    Recorded (rounds ++ [r]) (epoch + 1) where
  increasing := by
    rw [List.map_append]
    refine List.pairwise_append.mpr ⟨h.increasing, List.pairwise_singleton _ _, ?_⟩
    intro e he e' he'
    obtain ⟨r', hr', rfl⟩ := List.mem_map.mp he
    have hbound := h.bounded r' hr'
    rw [List.mem_singleton.mp he', hepoch]
    omega
  bounded := by
    intro r' hr'
    rcases List.mem_append.mp hr' with hr' | hr'
    · have hbound := h.bounded r' hr'
      omega
    · rw [List.mem_singleton.mp hr']
      exact Int.le_of_eq hepoch
  whole := by
    intro r' hr'
    rcases List.mem_append.mp hr' with hr' | hr'
    · exact h.whole r' hr'
    · rw [List.mem_singleton.mp hr']
      exact hr

end Recorded

def Speaks (p : Value) (n : Node) : Prop :=
  n.config.subProtocol = p ∨ n.config.subProtocol.same p = true

structure Kept (w : World ι) : Prop where
  rests : w.Rests
  speaks : ∀ p, w.group.subProtocol = some p → ∀ id m, w.group.members.get? id = some m →
    Speaks p (w.nodes m.node).node
  order : w.group.members.keys =
    (joined w.trace).dedup.filter fun id => w.group.members.contains id
  recorded : Recorded w.group.rounds w.group.epoch

structure Founded (w : World ι) : Prop extends Kept w where
  protocol : w.group.subProtocol = none ↔ w.group.members.keys = []

theorem Kept.serve {w w' : World ι} (h : Kept w) (hs : Serves w w') : Kept w' where
  rests := hs.rests h.rests
  speaks := by
    intro p hp id m hm
    rw [hs.group] at hp hm
    unfold Speaks
    rw [hs.config]
    exact h.speaks p hp id m hm
  order := by
    rw [hs.group, hs.joined]
    exact h.order
  recorded := by
    rw [hs.group]
    exact h.recorded

theorem Founded.serve {w w' : World ι} (h : Founded w) (hs : Serves w w') : Founded w' where
  toKept := h.toKept.serve hs
  protocol := by
    rw [hs.group]
    exact h.protocol

section rounds

variable {w : World ι}

theorem Founded.of_group (h : Founded w) {g : Group ι} (hmembers : g.members = w.group.members)
    (hprotocol : g.subProtocol = w.group.subProtocol) (hrounds : Recorded g.rounds g.epoch) :
    Founded { w with group := g } where
  rests := h.rests
  speaks := by
    intro p hp id m hm
    rw [hprotocol] at hp
    rw [hmembers] at hm
    exact h.speaks p hp id m hm
  order := by
    rw [hmembers]
    exact h.order
  recorded := hrounds
  protocol := by
    rw [hmembers, hprotocol]
    exact h.protocol

variable [DecidableEq ι]

theorem after_rebalance_founded (h : Founded w) (asked : Value) (abort : Bool) :
    After (rebalance asked abort) w fun _ w' => Founded w' := by
  unfold rebalance
  refine after_group ?_
  split
  · exact after_throw h
  rename_i leader chosen hleader
  refine after_group ((gives_revokeAll_serves h.rests).bind_after ?_)
  intro _ w₁ h₁
  refine after_update (after_group ?_)
  have hadvanced : Founded { w₁ with group := { w₁.group with epoch := w₁.group.epoch + 1 } } :=
    (h.serve h₁).of_group rfl rfl ((h.serve h₁).recorded.mono (Int.le_add_one (Int.le_refl _)))
  refine after_gather_serves.bind ?_ fun _ _ h₃ => hadvanced.serve h₃
  intro metadata w₃ h₃
  refine after_assign_serves.bind ?_ fun _ _ h₄ => hadvanced.serve (h₃.trans h₄)
  intro assignments w₄ h₄
  have hserved := h₃.trans h₄
  dsimp only
  split
  · exact after_throw (hadvanced.serve hserved)
  rename_i hmissing
  -- whichever way the round ends, it is whole and comes after all that were kept before
  have hkeep : ∀ w', Serves { w₁ with group := { w₁.group with epoch := w₁.group.epoch + 1 } } w' →
      ∀ delivered, Gives (keepRound ⟨w₁.group.epoch + 1, leader, w.group.members.entries.map Prod.fst,
        assignments, delivered⟩) w' fun _ w'' => Founded w'' := by
    intro w' hw' delivered
    refine ⟨(), _, rfl, (hadvanced.serve hw').of_group rfl rfl ?_⟩
    rw [hw'.group]
    refine (h.serve h₁).recorded.keep rfl ⟨?_, w.group.members.nodup, ?_⟩
    · exact List.mem_map_of_mem (mem_of_leaderOf hleader)
    · have hsent := Roster.none_missing_iff.mp (Bool.eq_false_iff.mpr hmissing)
      exact List.forall_mem_map.mpr hsent
  split
  · refine (gives_revokeAll_serves (hadvanced.serve hserved).rests).bind_after ?_
    intro _ w₅ h₅
    exact (hkeep w₅ (hserved.trans h₅) _).bind_after fun _ _ h₆ => after_pure h₆
  · refine (after_deliver_serves (hadvanced.serve hserved).rests).bind ?_ ?_
    · intro _ w₅ h₅
      refine (hkeep w₅ (hserved.trans h₅) _).bind_after ?_
      exact fun _ w₆ h₆ => after_log (after_pure (h₆.serve (.completed w₆ _ _)))
    · exact fun _ _ h₅ => hadvanced.serve (hserved.trans h₅)

end rounds

theorem dedup_concat (l : List MemberId) (id : MemberId) :
    (l ++ [id]).dedup = l.dedup.filter (· != id) ++ [id] := by
  induction l with
  | nil => rfl
  | cons other rest ih =>
    rw [List.cons_append, List.dedup_cons, List.dedup_cons, ih]
    by_cases hmem : other ∈ rest
    · simp [hmem]
    · by_cases hid : other = id
      · subst hid
        simp [hmem]
      · simp [hmem, hid]

def Admits (w : World ι) (m : Handler ι) (p : Value) : Prop :=
  (w.group.subProtocol = none ∧ (w.nodes m.node).node.config.subProtocol = p) ∨
    (w.group.subProtocol = some p ∧ (w.nodes m.node).node.config.subProtocol.same p = true)

def idFor (g : Group ι) (memberId : Option MemberId) : MemberId :=
  memberId.getD (generatedId g.nextMember)

def countAfter (g : Group ι) : Option MemberId → Nat
  | some _ => g.nextMember
  | none => g.nextMember + 1

def enter (m : Handler ι) (memberId : Option MemberId) : GroupM ι MemberId := do
  let id ← chooseId memberId
  if (← group).members.contains id then throw (.alreadyJoined id)
  update fun g => { g with members := g.members.insert id m }
  log (.joined id)
  return id

section joining

variable {w : World ι} {m : Handler ι} {p : Value} {memberId : Option MemberId}

theorem get_bind {α : Type} (f : World ι → GroupM ι α) (w : World ι) : (get >>= f) w = f w w := rfl

theorem group_bind {α : Type} (f : Group ι → GroupM ι α) (w : World ι) :
    (group >>= f) w = f w.group w := rfl

theorem enter_of_taken (h : w.group.members.contains (idFor w.group memberId) = true) :
    enter m memberId w = .error (.alreadyJoined (idFor w.group memberId))
      { w with group := { w.group with nextMember := countAfter w.group memberId } } := by
  cases memberId <;>
    show (if w.group.members.contains _ then _ else _ : GroupM ι MemberId) _ = _ <;>
    exact congrFun (if_pos h) _

theorem enter_of_free (h : w.group.members.contains (idFor w.group memberId) = false) :
    enter m memberId w = .ok (idFor w.group memberId) { w with
      group := { w.group with
        nextMember := countAfter w.group memberId
        members := w.group.members.insert (idFor w.group memberId) m }
      trace := w.trace ++ [.logged w.group.groupId (.joined (idFor w.group memberId))] } := by
  cases memberId <;>
    show (if w.group.members.contains _ then _ else _ : GroupM ι MemberId) _ = _ <;>
    exact congrFun (if_neg (Bool.eq_false_iff.mp h)) _

theorem join_of_admits (h : Admits w m p) (memberId : Option MemberId) :
    join m memberId w = enter m memberId { w with group := { w.group with subProtocol := some p } } := by
  rw [join, get_bind, group_bind]
  rcases h with ⟨hnone, rfl⟩ | ⟨hsome, hsame⟩
  · simp only [hnone]
    rfl
  · have hw : { w with group := { w.group with subProtocol := some p } } = w := by
      rw [← hsome]
    rw [hw]
    simp only [hsome, hsame]
    rfl

theorem join_of_mismatch (hsome : w.group.subProtocol = some p)
    (hdiffers : (w.nodes m.node).node.config.subProtocol.same p = false) (memberId : Option MemberId) :
    join m memberId w = .error (.protocolMismatch p (w.nodes m.node).node.config.subProtocol) w := by
  rw [join, get_bind, group_bind]
  simp only [hsome, hdiffers]
  rfl

theorem admits_or_mismatch (w : World ι) (m : Handler ι) : (∃ p, Admits w m p) ∨
    ∃ p, w.group.subProtocol = some p ∧ (w.nodes m.node).node.config.subProtocol.same p = false := by
  cases hprotocol : w.group.subProtocol with
  | none => exact .inl ⟨_, .inl ⟨hprotocol, rfl⟩⟩
  | some p =>
    cases hsame : (w.nodes m.node).node.config.subProtocol.same p with
    | true => exact .inl ⟨p, .inr ⟨hprotocol, hsame⟩⟩
    | false => exact .inr ⟨p, rfl, hsame⟩

end joining

inductive JoinEnds (w : World ι) (m : Handler ι) : Except Error MemberId → World ι → Prop
  | mismatch (expected : Value) : w.group.subProtocol = some expected →
    (w.nodes m.node).node.config.subProtocol.same expected = false →
    JoinEnds w m (.error (.protocolMismatch expected (w.nodes m.node).node.config.subProtocol)) w
  | taken (p : Value) (n : Nat) (id : MemberId) : Admits w m p → w.group.members.contains id = true →
    JoinEnds w m (.error (.alreadyJoined id))
      { w with group := { w.group with subProtocol := some p, nextMember := n } }
  | admitted (p : Value) (n : Nat) (id : MemberId) : Admits w m p → w.group.members.contains id = false →
    JoinEnds w m (.ok id)
      { w with
        group := { w.group with
          subProtocol := some p, nextMember := n, members := w.group.members.insert id m }
        trace := w.trace ++ [.logged w.group.groupId (.joined id)] }

theorem join_ends (w : World ι) (m : Handler ι) (memberId : Option MemberId) :
    After (join m memberId) w (JoinEnds w m) := by
  rcases admits_or_mismatch w m with ⟨p, hadmits⟩ | ⟨p, hsome, hdiffers⟩
  · have hjoins := join_of_admits hadmits memberId
    cases htaken : w.group.members.contains (idFor w.group memberId) with
    | true =>
      exact after_of_error (hjoins.trans (enter_of_taken htaken)) (.taken p _ _ hadmits htaken)
    | false =>
      exact after_of_ok (hjoins.trans (enter_of_free htaken)) (.admitted p _ _ hadmits htaken)
  · exact after_of_error (join_of_mismatch hsome hdiffers memberId) (.mismatch p hsome hdiffers)

theorem Admits.speaks {w : World ι} {m : Handler ι} {p : Value} (h : Admits w m p) :
    Speaks p (w.nodes m.node).node := by
  rcases h with ⟨_, hfirst⟩ | ⟨_, hsame⟩
  · exact .inl hfirst
  · exact .inr hsame

theorem Founded.join {w w' : World ι} {m : Handler ι} {result : Except Error MemberId} (h : Founded w)
    (hjoin : JoinEnds w m result w') : Founded w' := by
  cases hjoin with
  | mismatch expected _ _ => exact h
  | taken p n id hp htaken =>
    -- a group without a sub-protocol has no members, so no id is taken in it
    have hsome : w.group.subProtocol = some p := by
      rcases hp with ⟨hnone, _⟩ | ⟨hsome, _⟩
      · have hempty := h.protocol.mp hnone
        rw [Roster.contains_iff, hempty] at htaken
        cases htaken
      · exact hsome
    exact h.of_group rfl hsome.symm h.recorded
  | admitted p n id hp hfree =>
    have hnew : id ∉ w.group.members.keys := by
      rw [← Roster.contains_iff, hfree]
      simp
    have hkeys : (w.group.members.insert id m).keys = w.group.members.keys ++ [id] := by
      rw [Roster.keys_insert, if_neg hnew]
    refine ⟨⟨h.rests, ?_, ?_, h.recorded⟩, ?_⟩
    · intro q hq other m' hm'
      cases hq
      dsimp only at hm'
      rw [Roster.get?_insert] at hm'
      split at hm'
      · cases hm'
        exact hp.speaks
      · rcases hp with ⟨hnone, _⟩ | ⟨hsome, _⟩
        · have hempty := h.protocol.mp hnone
          exact absurd (Roster.mem_keys_of_get? hm') (by simp [hempty])
        · exact h.speaks p hsome other m' hm'
    · show (w.group.members.insert id m).keys = (joined (w.trace ++ [_])).dedup.filter
        fun other => (w.group.members.insert id m).contains other
      have hjoined : joined (w.trace ++ [.logged w.group.groupId (.joined id)]) =
          joined w.trace ++ [id] := joined_append _ _
      rw [hkeys, hjoined, dedup_concat, List.filter_append, List.filter_filter, h.order]
      simp only [Roster.contains_insert]
      congr 1
      · apply List.filter_congr
        intro other _
        by_cases hother : id = other
        · subst hother
          simp [hfree]
        · simp [hother, Ne.symm hother]
      · simp
    · simp [hkeys]

section leaving

variable {w : World ι}

def World.without (w : World ι) (memberId : MemberId) : World ι :=
  { w with group := { w.group with
    members := w.group.members.erase memberId
    metadataOverrides := w.group.metadataOverrides.erase memberId
    assignmentOverrides := w.group.assignmentOverrides.erase memberId } }

theorem Kept.without (h : Kept w) (memberId : MemberId) : Kept (w.without memberId) where
  rests := h.rests
  speaks := fun p hp id m hm => h.speaks p hp id m ((Roster.get?_erase _ _ _ _).mp hm).2
  order := by
    unfold World.without
    simp only [Roster.keys_erase, Roster.contains_erase]
    rw [h.order, List.filter_filter]
  recorded := h.recorded

variable [DecidableEq ι]

theorem after_leave_founded (h : Founded w) (memberId : MemberId) :
    After (leave memberId) w fun _ w' => Founded w' := by
  unfold leave
  refine (after_handler memberId).bind ?_ ?_
  · rintro m w' ⟨hw', hm⟩
    rw [hw']
    have hrevoke := gives_onNode_revoke_serves (w := w.without memberId) h.rests m.node
    refine after_update (hrevoke.bind_after ?_)
    intro _ w₁ h₁
    have hkept := (h.toKept.without memberId).serve h₁
    refine after_group (after_ite ?_ ?_)
    · intro hempty
      have hkeys : w₁.group.members.keys = [] := by
        rw [Roster.keys, List.isEmpty_iff.mp hempty, List.map_nil]
      refine after_of_ok rfl ⟨⟨hkept.rests, ?_, hkept.order, hkept.recorded⟩, ?_⟩
      · intro p hp
        cases hp
      · exact iff_of_true rfl hkeys
    · intro hothers
      have hkeys : w₁.group.members.keys ≠ [] := by
        intro hnil
        exact hothers (List.isEmpty_iff.mpr (List.map_eq_nil_iff.mp hnil))
      have hsome : w.group.subProtocol ≠ none := by
        intro hnone
        have hempty := Roster.mem_keys_of_get? (hm m rfl)
        rw [h.protocol.mp hnone] at hempty
        cases hempty
      refine after_pure ⟨hkept, iff_of_false ?_ hkeys⟩
      rw [h₁.group]
      exact hsome
  · rintro _ w' ⟨hw', _⟩
    rw [hw']
    exact h

end leaving

theorem Speaks.eq_text {t : Text} {n : Node} (h : Speaks (.text t) n) :
    n.config.subProtocol = .text t := by
  rcases h with h | h
  · exact h
  · cases hv : n.config.subProtocol <;> rw [hv] at h <;>
      simp_all [Value.same, Value.key?, Value.number?, Value.integer?]

section operations

variable [DecidableEq ι] {w : World ι}

theorem after_operate_founded (h : Founded w) (op : Operation ι) :
    After (operate op) w fun _ w' => Founded w' := by
  cases op with
  | join m memberId =>
    exact (join_ends w m memberId).bind (fun _ _ hjoin => after_pure (h.join hjoin))
      fun _ _ hjoin => h.join hjoin
  | leave memberId =>
    exact (after_leave_founded h memberId).bind (fun _ _ h' => after_pure h') fun _ _ h' => h'
  | rebalance leader abort =>
    exact (after_rebalance_founded h leader abort).bind (fun _ _ h' => after_pure h') fun _ _ h' => h'
  | poll =>
    have hpoll : After (poll : GroupM ι (Option Round)) w fun _ w' => Founded w' := by
      refine after_get (after_ite ?_ ?_)
      · exact fun _ => (after_rebalance_founded h .null false).bind (fun _ _ h' => after_pure h')
          fun _ _ h' => h'
      · exact fun _ => after_pure h
    exact hpoll.bind (fun _ _ h' => after_pure h') fun _ _ h' => h'
  | overrideMetadata memberId p => exact after_update (after_pure (h.of_group rfl rfl h.recorded))
  | overrideAssignment memberId p => exact after_update (after_pure (h.of_group rfl rfl h.recorded))
  | clearOverrides => exact after_update (after_pure (h.of_group rfl rfl h.recorded))
  | call i c =>
    have hcall : After (onNode i fun tell => perform tell c) w fun _ w' => Serves w w' :=
      serves_onNode fun _ htell => after_perform_keeps (h.rests i).not_following htell
    exact hcall.bind (fun _ _ hs => after_pure (h.serve hs)) fun _ _ hs => h.serve hs

theorem Course.founded {allowed : Operation ι → Prop} {groupId : Value} {nodes : ι → Session}
    (hnew : ∀ i, ∃ config script, nodes i = .start config script)
    (h : Course allowed ⟨{ groupId := groupId }, nodes, []⟩ w) : Founded w := by
  induction h with
  | begin =>
    refine ⟨⟨?_, by simp, rfl, ⟨.nil, by simp, by simp⟩⟩, iff_of_true rfl rfl⟩
    intro i
    obtain ⟨config, script, hnode⟩ := hnew i
    simp only [hnode]
    exact .inl rfl
  | operate op _ _ ih => exact after_left.mp (after_operate_founded ih op)

/--
A group always knows its members in the order in which they joined last, all of which speak the
sub-protocol that it remembers as long as it has any; its rounds are whole and ordered by their epochs.
Who joins is put last, and who is refused for the sub-protocol leaves no trace.
-/
theorem Course.members_in_order {allowed : Operation ι → Prop} {groupId : Value} {nodes : ι → Session}
    (hnew : ∀ i, ∃ config script, nodes i = .start config script)
    (h : Course allowed ⟨{ groupId := groupId }, nodes, []⟩ w) :
    w.group.members.keys.Nodup ∧
    w.group.members.keys = (joined w.trace).dedup.filter (fun id => w.group.members.contains id) ∧
    (w.group.subProtocol = none ↔ w.group.members.keys = []) ∧
    (∀ p, w.group.subProtocol = some p → ∀ id m, w.group.members.get? id = some m →
      Speaks p (w.nodes m.node).node ∧
        ∀ t, p = .text t → (w.nodes m.node).node.config.subProtocol = .text t) ∧
    (w.group.rounds.map Round.epoch).Pairwise (· < ·) ∧
    (∀ r ∈ w.group.rounds, r.epoch ≤ w.group.epoch ∧ r.leader ∈ r.members ∧ r.members.Nodup ∧
      ∀ id ∈ r.members, r.assignments.contains id = true) ∧
    (∀ m memberId id w', join m memberId w = .ok id w' →
      w'.group.members.keys = w.group.members.keys ++ [id] ∧
        joined w'.trace = joined w.trace ++ [id]) ∧
    ∀ m memberId expected actual w',
      join m memberId w = .error (.protocolMismatch expected actual) w' → w' = w := by
  have hfounded := h.founded hnew
  refine ⟨w.group.members.nodup, hfounded.order, hfounded.protocol, ?_,
    hfounded.recorded.increasing, ?_, ?_, ?_⟩
  · intro p hp id m hm
    have hspeaks := hfounded.speaks p hp id m hm
    refine ⟨hspeaks, ?_⟩
    rintro t rfl
    exact hspeaks.eq_text
  · intro r hr
    have hwhole := hfounded.recorded.whole r hr
    exact ⟨hfounded.recorded.bounded r hr, hwhole.leader, hwhole.members, hwhole.assigned⟩
  · intro m memberId id w' hjoin
    have hends := (join_ends w m memberId).of_ok hjoin
    cases hends with
    | admitted p n _ _ hfree =>
      have hnew : id ∉ w.group.members.keys := by
        rw [← Roster.contains_iff, hfree]
        simp
      exact ⟨by rw [Roster.keys_insert, if_neg hnew], joined_append _ _⟩
  · intro m memberId expected actual w' hjoin
    have hends := (join_ends w m memberId).of_error hjoin
    cases hends with
    | mismatch => rfl

end operations

def bilingual (i : Fin 3) : Session :=
  .start ⟨{
    host := .text (toString i.val)
    port := .int 1
    subProtocol := .text (if i.val = 2 then "v1" else "v0") }, .http⟩ {}

theorem Course.members_in_order_refounded :
    ∃ w : World (Fin 3), Course (fun _ => True) ⟨{ groupId := .text "g" }, bilingual, []⟩ w ∧
      w.group.members.keys = (["b", "a"] : List MemberId) ∧
      joined w.trace = (["z", "a", "b", "a"] : List MemberId) ∧
      w.group.rounds.map Round.epoch = [1, 2] ∧
      w.group.members.keys = (joined w.trace).dedup.filter (fun id => w.group.members.contains id) ∧
      (w.group.subProtocol = none ↔ w.group.members.keys = []) ∧
      (∀ r ∈ w.group.rounds, r.epoch ≤ w.group.epoch ∧ r.leader ∈ r.members ∧ r.members.Nodup ∧
        ∀ id ∈ r.members, r.assignments.contains id = true) := by
  have hbegin : Course (fun _ => True) ⟨{ groupId := .text "g" }, bilingual, []⟩ _ := .begin
  have hleft := (hbegin.operate (.join ⟨2, []⟩ (some "z")) trivial).operate (.leave "z") trivial
  have hrefounded := hleft.operate (.join ⟨0, []⟩ (some "a")) trivial
  have hrefused := hrefounded.operate (.join ⟨2, []⟩ none) trivial
  have hround := (hrefused.operate (.join ⟨1, []⟩ (some "b")) trivial).operate
    (.rebalance .null false) trivial
  have hrejoined := (hround.operate (.leave "a") trivial).operate (.join ⟨0, []⟩ (some "a")) trivial
  have hcourse := hrejoined.operate (.rebalance (.text "a") true) trivial
  have hordered := hcourse.members_in_order fun _ => ⟨_, {}, rfl⟩
  refine ⟨_, hcourse, ?_, ?_, ?_, hordered.2.1, hordered.2.2.1, hordered.2.2.2.2.2.1⟩ <;>
    decide +kernel

end PrimaryElection.Group
