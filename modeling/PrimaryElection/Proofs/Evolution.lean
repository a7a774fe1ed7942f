import PrimaryElection.Proofs.Views

/-!
Evolution. Whatever a group is asked to do, and wherever it fails, its nodes only go through hooks, and its
epoch does not fall. `Evolves` collects what can happen to a world whose listeners disturb no round; what no
hook can break holds of all that operations lead to.
-/

namespace PrimaryElection.Group

open GroupM

variable {ι : Type} [DecidableEq ι]

def AtRest (w : World ι) : Prop := ∀ i, (w.view i).Calm

theorem AtRest.poised {w : World ι} (h : AtRest w) : w.Poised (· = {}) :=
  fun i => ⟨heeds_react_silent, (h i).script, (h i).rests⟩

/-- Where `may` says which rounds a node can accept under an epoch of the group. -/
inductive Evolves (own : Script → Prop) (may : Int → Acceptance → Prop) (w : World ι) : World ι → Prop
  | refl : Evolves own may w w
  | group {w' : World ι} (g : Group ι) : Evolves own may w w' → w'.group.epoch ≤ g.epoch →
      Evolves own may w { w' with group := g }
  | log {w' : World ι} (groupId : Value) (entry : LogEntry) : Evolves own may w w' →
      Evolves own may w { w' with trace := w'.trace ++ [.logged groupId entry] }
  | node {w' : World ι} (i : ι) (r : Run) : Evolves own may w w' →
      Effective own (may w'.group.epoch) ⟨w'.nodes i, []⟩ r → Evolves own may w (w'.put i r)

namespace Evolves

variable {own : Script → Prop} {may : Int → Acceptance → Prop} {w w' w'' : World ι}

theorem trans (h : Evolves own may w w') (h' : Evolves own may w' w'') : Evolves own may w w'' := by
  induction h' with
  | refl => exact h
  | group g _ hepoch ih => exact ih.group g hepoch
  | log groupId entry _ ih => exact ih.log groupId entry
  | node i r _ heffective ih => exact ih.node i r heffective

theorem epoch_le (h : Evolves own may w w') : w.group.epoch ≤ w'.group.epoch := by
  induction h with
  | refl => exact Int.le_refl _
  | group _ _ hepoch ih => exact Int.le_trans ih hepoch
  | log _ _ _ ih => exact ih
  | node _ _ _ _ ih => exact ih

theorem poised (h : Evolves own may w w') (hw : w.Poised own) : w'.Poised own := by
  induction h with
  | refl => exact hw
  | group _ _ _ ih => exact ih
  | log _ _ _ ih => exact ih
  | node i r _ heffective ih => exact ih.put heffective

theorem atRest (h : Evolves (· = {}) may w w') (hw : AtRest w) : AtRest w' := by
  induction h with
  | refl => exact hw
  | group _ _ _ ih => exact ih
  | log _ _ _ ih => exact fun i => ⟨(ih i).rests, (ih i).rejoin, (ih i).script⟩
  | node i r _ heffective ih =>
    intro j
    by_cases hj : j = i
    · subst hj
      obtain ⟨hscript, given, heffect, _⟩ := heffective
      have hsettled := (Node.Settled.mk (ih j).rests (ih j).rejoin).step heffect
      rw [World.view_put_self]
      exact ⟨hsettled.rests, hsettled.rejoin, hscript⟩
    · rw [World.view_put_other _ r hj]
      exact ih j

theorem epoch_view_le (h : Evolves own (fun epoch a => a.epoch ≤ epoch) w w')
    (hw : ∀ i, (w.view i).epoch ≤ w.group.epoch) (i : ι) : (w'.view i).epoch ≤ w'.group.epoch := by
  induction h with
  | refl => exact hw i
  | group g _ hepoch ih => exact Int.le_trans ih hepoch
  | log _ _ _ ih => exact ih
  | @node w' j r _ heffective ih =>
    by_cases hi : i = j
    · subst hi
      obtain ⟨_, given, heffect, _⟩ := heffective
      rw [World.view_put_self]
      cases heffect with
      | silent haccepted _ _ _ =>
        rw [View.epoch, Run.view, haccepted]
        exact ih
      | assigned a hallowed _ _ _ haccepted =>
        rw [View.epoch, Run.view, haccepted]
        exact hallowed
      | revoked _ _ haccepted _ =>
        rw [View.epoch, Run.view, haccepted]
        exact ih
    · rw [World.view_put_other _ r hi]
      exact ih

end Evolves

def Leads {α : Type} (own : Script → Prop) (may : Int → Acceptance → Prop) (x : GroupM ι α)
    (w : World ι) : Prop :=
  After x w fun _ w' => Evolves own may w w'

section leads

variable {own : Script → Prop} {may : Int → Acceptance → Prop} {w : World ι}

theorem Leads.bind {α β : Type} {x : GroupM ι α} {f : α → GroupM ι β} (hx : Leads own may x w)
    (hf : ∀ a w', Evolves own may w w' → Leads own may (f a) w') : Leads own may (x >>= f) w := by
  apply After.bind hx
  · intro a w' h
    exact (hf a w' h).mono fun _ _ h' => h.trans h'
  · exact fun _ _ h => h

theorem leads_pure {α : Type} (a : α) : Leads own may (pure a) w := after_pure .refl

theorem leads_throw {α : Type} (e : Error) : Leads own may (throw e : GroupM ι α) w := after_throw .refl

theorem leads_update {f : Group ι → Group ι} (h : w.group.epoch ≤ (f w.group).epoch) :
    Leads own may (update f) w :=
  after_of_ok rfl (Evolves.refl.group _ h)

theorem leads_log (entry : LogEntry) : Leads own may (log entry) w :=
  after_of_ok rfl (Evolves.refl.log _ entry)

theorem leads_onNode {α : Type} {i : ι} {work : (Notice → HookM Unit) → HookM α}
    (hwork : After (work (react (w.nodes i).listener.script.size)) ⟨w.nodes i, []⟩ fun _ r =>
      Effective own (may w.group.epoch) ⟨w.nodes i, []⟩ r) :
    Leads own may (onNode i work) w :=
  after_onNode hwork (fun _ r hr => Evolves.refl.node i r hr) fun _ r hr => Evolves.refl.node i r hr

theorem leads_revoke (hw : w.Poised own) (i : ι) : Leads own may (onNode i Node.revoke) w := by
  obtain ⟨hkept, hown, hrests⟩ := hw i
  exact leads_onNode ((after_revoke_effective (hkept _) hown hrests).mono fun _ _ h => h.2.2.2)

theorem leads_revokeAll {members : List (MemberId × Handler ι)} (hw : w.Poised own) :
    Leads own may (revokeAll members) w := by
  induction members generalizing w with
  | nil => exact leads_pure ()
  | cons e rest ih => exact (leads_revoke hw e.2.node).bind fun _ _ h => ih (h.poised hw)

theorem leads_gather {members : List (MemberId × Handler ι)} (hw : w.Poised own) :
    Leads own may (gather members) w := by
  induction members generalizing w with
  | nil => exact leads_pure []
  | cons e rest ih =>
    obtain ⟨id, m⟩ := e
    obtain ⟨_, hown, hrests⟩ := hw m.node
    have hmetadata : Leads own may (onNode m.node fun _ => Node.metadata) w := by
      apply leads_onNode
      apply (Node.after_metadata _).mono
      rintro _ r ⟨_, hnode, hq⟩
      exact (Undisturbed.of_quiet hnode hq).effective hown hrests
    refine hmetadata.bind fun submitted w' h => ?_
    refine after_group ((ih (h.poised hw)).bind fun others w'' _ => leads_pure _)

theorem leads_assign {m : Handler ι} {epoch : Int} {leader : MemberId} {metadata : Roster Payload}
    (hw : w.Poised own) : Leads own may (assign m epoch leader metadata) w := by
  have hcompute : Leads own may (onNode m.node fun _ => Node.compute epoch (.text leader) metadata) w := by
    obtain ⟨_, hown, hrests⟩ := hw m.node
    exact leads_onNode ((after_compute_effective hown hrests).mono fun _ _ h => h.2)
  exact hcompute.bind fun computed _ _ => leads_pure _

theorem leads_deliver {members : List (MemberId × Handler ι)} {epoch : Int} {assignments : Roster Bytes}
    (hmay : ∀ e a, a.epoch ≤ e → may e a) (hw : w.Poised own) (hepoch : epoch ≤ w.group.epoch) :
    Leads own may (deliver epoch assignments members) w := by
  induction members generalizing w with
  | nil => exact leads_pure ()
  | cons e rest ih =>
    obtain ⟨id, m⟩ := e
    unfold deliver
    refine after_group ?_
    split
    · rename_i payload _
      have hcomplete : Leads own may (onNode m.node fun tell => Node.complete tell epoch id payload) w := by
        obtain ⟨hkept, hown, hrests⟩ := hw m.node
        apply leads_onNode
        apply (after_complete_effective (hkept _) hown hrests).mono
        rintro _ r hr
        exact hr.mono fun a ha => hmay _ a (Int.le_trans (Int.le_of_eq ha.1) hepoch)
      refine hcomplete.bind fun _ w' h => ih (h.poised hw) ?_
      exact Int.le_trans hepoch h.epoch_le
    · exact leads_throw _

theorem leads_keepRound (round : Round) : Leads own may (keepRound round) w :=
  leads_update (Int.le_refl _)

theorem leads_rebalance (hmay : ∀ e a, a.epoch ≤ e → may e a) (hw : w.Poised own) (asked : Value)
    (abort : Bool) : Leads own may (rebalance asked abort) w := by
  unfold rebalance
  refine after_group ?_
  split
  · exact leads_throw _
  rename_i leader chosen _
  refine after_group ((leads_revokeAll hw).bind fun _ w₁ h₁ => ?_)
  refine (leads_update (Int.le_add_one (Int.le_refl _))).bind fun _ w₂ h₂ => after_group ?_
  have hrest₂ := h₂.poised (h₁.poised hw)
  refine (leads_gather hrest₂).bind fun metadata w₃ h₃ => ?_
  have hrest₃ := h₃.poised hrest₂
  refine (leads_assign hrest₃).bind fun assignments w₄ h₄ => ?_
  have hrest₄ := h₄.poised hrest₃
  dsimp only
  split
  · exact leads_throw _
  split
  · refine (leads_revokeAll hrest₄).bind fun _ w₅ _ => ?_
    exact (leads_keepRound _).bind fun _ _ _ => leads_pure _
  · refine (leads_deliver hmay hrest₄ (h₃.trans h₄).epoch_le).bind fun _ w₅ _ => ?_
    refine (leads_keepRound _).bind fun _ w₆ _ => ?_
    exact (leads_log _).bind fun _ _ _ => leads_pure _

theorem leads_join (m : Handler ι) (memberId : Option MemberId) : Leads own may (join m memberId) w := by
  have hname : ∀ w' : World ι, Leads own may (do
      let id ← chooseId memberId
      if (← group).members.contains id then throw (.alreadyJoined id)
      update fun g => { g with members := g.members.insert id m }
      log (.joined id)
      return id) w' := by
    intro w'
    have hchoose : Leads own may (chooseId memberId) w' := by
      cases memberId with
      | some id => exact leads_pure id
      | none => exact after_group ((leads_update (Int.le_refl _)).bind fun _ _ _ => leads_pure _)
    refine hchoose.bind fun id w'' _ => after_group ?_
    split
    · exact leads_throw _
    · refine (leads_update (Int.le_refl _)).bind fun _ _ _ => ?_
      exact (leads_log _).bind fun _ _ _ => leads_pure _
  unfold join
  refine after_get (after_group ?_)
  cases w.group.subProtocol with
  | none => exact (leads_update (Int.le_refl _)).bind fun _ _ _ => hname _
  | some expected =>
    apply after_ite
    · exact fun _ => leads_throw _
    · exact fun _ => hname w

theorem leads_leave (hw : w.Poised own) (memberId : MemberId) : Leads own may (leave memberId) w := by
  have hhandler : Leads own may (handler memberId) w := by
    refine after_group ?_
    split
    · exact leads_pure _
    · exact leads_throw _
  refine hhandler.bind fun m w₁ h₁ => ?_
  refine (leads_update (Int.le_refl _)).bind fun _ w₂ h₂ => ?_
  refine (leads_revoke (h₂.poised (h₁.poised hw)) m.node).bind fun _ w₃ _ => after_group ?_
  apply after_ite
  · exact fun _ => leads_update (Int.le_refl _)
  · exact fun _ => leads_pure ()

end leads

def Operation.Driven : Operation ι → Prop
  | .call _ c => c.completes = false
  | _ => True

theorem leads_operate {own : Script → Prop} {may : Int → Acceptance → Prop} {w : World ι}
    {op : Operation ι} (hmay : ∀ e a, a.epoch ≤ e → may e a) (hcall : op.Driven ∨ ∀ e a, may e a)
    (hw : w.Poised own) : Leads own may (operate op) w := by
  cases op with
  | join m memberId => exact (leads_join m memberId).bind fun _ _ _ => leads_pure _
  | leave memberId => exact (leads_leave hw memberId).bind fun _ _ _ => leads_pure _
  | rebalance leader abort =>
    exact (leads_rebalance hmay hw leader abort).bind fun _ _ _ => leads_pure _
  | poll =>
    have hpoll : Leads own may (poll : GroupM ι (Option Round)) w := by
      refine after_get (after_ite ?_ ?_)
      · exact fun _ => (leads_rebalance hmay hw .null false).bind fun _ _ _ => leads_pure _
      · exact fun _ => leads_pure _
    exact hpoll.bind fun _ _ _ => leads_pure _
  | overrideMetadata memberId p => exact (leads_update (Int.le_refl _)).bind fun _ _ _ => leads_pure _
  | overrideAssignment memberId p => exact (leads_update (Int.le_refl _)).bind fun _ _ _ => leads_pure _
  | clearOverrides => exact (leads_update (Int.le_refl _)).bind fun _ _ _ => leads_pure _
  | call i c =>
    have hperform : Leads own may (onNode i fun tell => perform tell c) w := by
      obtain ⟨hkept, hown, hrests⟩ := hw i
      apply leads_onNode
      apply (after_perform_effective (hkept _) hown hrests).mono
      intro _ r hr
      apply hr.mono
      intro a ha
      rcases hcall with hdriven | hany
      · exact (Call.not_offers hdriven _ a ha).elim
      · exact hany _ a
    exact hperform.bind fun _ _ _ => leads_pure _

theorem atRest_start (groupId : Value) {nodes : ι → Session}
    (hnew : ∀ i, ∃ config, nodes i = .start config {}) :
    AtRest ⟨{ groupId := groupId }, nodes, []⟩ := by
  intro i
  obtain ⟨config, hnode⟩ := hnew i
  simp only [World.view, Run.view, hnode]
  exact ⟨.inl rfl, fun _ => rfl, rfl⟩

theorem Course.evolves {own : Script → Prop} {may : Int → Acceptance → Prop}
    {allowed : Operation ι → Prop} {first w : World ι} (h : Course allowed first w)
    (hmay : ∀ e a, a.epoch ≤ e → may e a)
    (hcall : ∀ op, allowed op → op.Driven ∨ ∀ e a, may e a) (hfirst : first.Poised own) :
    Evolves own may first w := by
  induction h with
  | begin => exact .refl
  | operate op _ hop ih =>
    exact ih.trans (after_left.mp (leads_operate hmay (hcall op hop) (ih.poised hfirst)))

theorem Course.atRest {allowed : Operation ι → Prop} {groupId : Value} {nodes : ι → Session}
    {w : World ι} (hnew : ∀ i, ∃ config, nodes i = .start config {})
    (h : Course allowed ⟨{ groupId := groupId }, nodes, []⟩ w) : AtRest w := by
  have hfirst := atRest_start groupId hnew
  have hevolves : Evolves (· = {}) (fun _ _ => True) _ w :=
    h.evolves (fun _ _ _ => trivial) (fun _ _ => .inr fun _ _ => trivial) hfirst.poised
  exact hevolves.atRest hfirst

theorem Course.epoch_view_le {groupId : Value} {nodes : ι → Session} {w : World ι}
    (hnew : ∀ i, ∃ config, nodes i = .start config {})
    (h : Course Operation.Driven ⟨{ groupId := groupId }, nodes, []⟩ w) (i : ι) :
    (w.view i).epoch ≤ w.group.epoch := by
  have hevolves := h.evolves (fun _ _ => id) (fun _ hop => .inl hop) (atRest_start groupId hnew).poised
  apply hevolves.epoch_view_le
  intro j
  obtain ⟨config, hnode⟩ := hnew j
  have hepoch : (World.view ⟨{ groupId := groupId }, nodes, []⟩ j).epoch = noEpoch := by
    simp only [View.epoch, World.view, Run.view, hnode]
    rfl
  rw [hepoch]
  exact (by decide : noEpoch ≤ 0)

end PrimaryElection.Group
