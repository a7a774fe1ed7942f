import PrimaryElection.Proofs.Agreement

namespace PrimaryElection.Group

open GroupM

variable {ι : Type} [DecidableEq ι]

section work

variable {w : World ι}

omit [DecidableEq ι] in
theorem Sound.poised (h : Sound w) : w.Poised (Script.Only Patient) :=
  fun i => ⟨heeds_react, h.patient i, h.rests i⟩

theorem after_onNode_unassigned {α : Type} {i : ι} {work : (Notice → HookM Unit) → HookM α}
    {P : α → Prop} (h : Agreed w)
    (hwork : After (work (react (w.nodes i).listener.script.size)) ⟨w.nodes i, []⟩ fun result r =>
      (∀ a, result = .ok a → P a) ∧
        Effective (Script.Only Patient) (fun _ => False) ⟨w.nodes i, []⟩ r) :
    After (onNode i work) w fun result w' =>
      (∀ a, result = .ok a → P a) ∧ Agreed w' ∧ Unassigned w w' := by
  apply after_onNode hwork
  · rintro a r ⟨hp, heffective⟩
    refine ⟨?_, h.put heffective fun _ hfalse => hfalse.elim, .put heffective⟩
    intro b hb
    cases hb
    exact hp a rfl
  · rintro e r ⟨_, heffective⟩
    exact ⟨by simp, h.put heffective fun _ hfalse => hfalse.elim, .put heffective⟩

theorem gives_revokeAll_agreed {members : List (MemberId × Handler ι)} (h : Agreed w) :
    Gives (revokeAll members) w fun _ w' => Agreed w' ∧ Unassigned w w' ∧
      ∀ e ∈ members, w'.Joins e.2.node := by
  have hkept : ∀ w' i r, Agreed w' ∧ Unassigned w w' →
      Effective (Script.Only Patient) (fun _ => False) ⟨w'.nodes i, []⟩ r →
      Agreed (w'.put i r) ∧ Unassigned w (w'.put i r) := by
    rintro w' i r ⟨hagreed, hunassigned⟩ heffective
    exact ⟨hagreed.put heffective fun _ hfalse => hfalse.elim, hunassigned.trans (.put heffective)⟩
  apply (gives_revokeAll (fun _ hw' => hw'.1.poised) hkept ⟨h, .refl w⟩).mono
  rintro _ w' ⟨⟨hagreed, hunassigned⟩, _, _, hrevoked⟩
  exact ⟨hagreed, hunassigned, hrevoked⟩

theorem after_gather {members : List (MemberId × Handler ι)} (h : Agreed w) :
    After (gather members) w fun _ w' => Agreed w' ∧ Unassigned w w' := by
  induction members generalizing w with
  | nil => exact after_pure ⟨h, .refl w⟩
  | cons e rest ih =>
    obtain ⟨id, m⟩ := e
    have hmetadata : After Node.metadata ⟨w.nodes m.node, []⟩ fun result r =>
        (∀ a, result = .ok a → True) ∧
          Effective (Script.Only Patient) (fun _ => False) ⟨w.nodes m.node, []⟩ r := by
      obtain ⟨_, hown, hrests⟩ := h.poised m.node
      apply (Node.after_metadata _).mono
      rintro _ r ⟨_, hnode, hq⟩
      exact ⟨fun _ _ => trivial, (Undisturbed.of_quiet hnode hq).effective hown hrests⟩
    refine (after_onNode_unassigned h hmetadata).bind ?_ ?_
    · rintro submitted w' ⟨_, hagreed, hunassigned⟩
      refine after_group ((ih hagreed).bind ?_ ?_)
      · rintro others w'' ⟨hagreed', hunassigned'⟩
        exact after_pure ⟨hagreed', hunassigned.trans hunassigned'⟩
      · rintro _ w'' ⟨hagreed', hunassigned'⟩
        exact ⟨hagreed', hunassigned.trans hunassigned'⟩
    · rintro _ w' ⟨_, hagreed, hunassigned⟩
      exact ⟨hagreed, hunassigned⟩

theorem after_assign {m : Handler ι} {epoch : Int} {leader : MemberId} {metadata : Roster Payload}
    (h : Agreed w) :
    After (assign m epoch leader metadata) w fun result w' => Agreed w' ∧ Unassigned w w' ∧
      ∀ assignments, result = .ok assignments → ∃ o, ∀ id bytes,
        assignments.get? id = some bytes → Outcome.decode (.bytes bytes) = .ok o := by
  have hcompute : After (Node.compute epoch (.text leader) metadata) ⟨w.nodes m.node, []⟩ fun result r =>
      (∀ computed, result = .ok computed → ∃ bytes,
        (Election.elect (Node.readable metadata) (Value.text leader).text?).encode = .ok bytes ∧
          computed = metadata.map fun _ => bytes) ∧
        Effective (Script.Only Patient) (fun _ => False) ⟨w.nodes m.node, []⟩ r := by
    obtain ⟨_, hown, hrests⟩ := h.poised m.node
    exact after_compute_effective hown hrests
  refine (after_onNode_unassigned h hcompute).bind ?_ ?_
  · rintro computed w' ⟨hcomputed, hagreed, hunassigned⟩
    refine after_pure ⟨hagreed, hunassigned, ?_⟩
    intro assignments hassignments
    cases hassignments
    obtain ⟨bytes, hencode, hmap⟩ := hcomputed computed rfl
    refine ⟨Election.elect (Node.readable metadata) (Value.text leader).text?, ?_⟩
    intro id sent hsent
    rw [Roster.get?_without, hmap, Roster.get?_map_const] at hsent
    rw [← hsent.2.2]
    exact Outcome.decode_eq_ok_iff.mpr hencode
  · rintro e w' ⟨_, hagreed, hunassigned⟩
    exact ⟨hagreed, hunassigned, by simp⟩

theorem after_onNode_complete {m : Handler ι} {epoch : Int} {id : MemberId} {payload : Payload}
    {o : Outcome} (h : Agreed w) (hdecided : Decided w o) (hepoch : epoch = w.group.epoch)
    (hmember : w.group.members.get? id = some m)
    (hdecode : ∀ o', Outcome.decode payload = .ok o' → o' = o) :
    After (onNode m.node fun tell => Node.complete tell epoch id payload) w fun _ w' =>
      w'.group = w.group ∧ Agreed w' ∧ Decided w' o := by
  obtain ⟨hkept, hown, hrests⟩ := h.poised m.node
  have hcomplete : After (Node.complete (react (w.nodes m.node).listener.script.size) epoch id payload)
      ⟨w.nodes m.node, []⟩ fun _ r => Effective (Script.Only Patient)
        (fun a => a.epoch = epoch ∧ a.memberId = id ∧ Outcome.decode payload = .ok a.outcome)
        ⟨w.nodes m.node, []⟩ r := after_complete_effective (hkept _) hown hrests
  have hagreed : ∀ r, Effective (Script.Only Patient) (fun a => a.epoch = epoch ∧ a.memberId = id ∧
      Outcome.decode payload = .ok a.outcome) ⟨w.nodes m.node, []⟩ r →
      Agreed (w.put m.node r) ∧ Decided (w.put m.node r) o := by
    intro r heffective
    constructor
    · apply h.put heffective
      rintro a ⟨hepoch', hid, houtcome⟩
      refine ⟨hepoch'.trans hepoch, ?_, m, ?_, rfl⟩
      · rw [hdecode _ houtcome]
        exact hdecided
      · rw [hid]
        exact hmember
    · exact hdecided.put heffective fun a ha => hdecode _ ha.2.2
  exact after_onNode hcomplete (fun _ r hr => ⟨rfl, hagreed r hr⟩) fun _ r hr => ⟨rfl, hagreed r hr⟩

theorem after_deliver {members : List (MemberId × Handler ι)} {epoch : Int} {assignments : Roster Bytes}
    {o : Outcome} (h : Agreed w) (hdecided : Decided w o) (hepoch : epoch = w.group.epoch)
    (hmembers : ∀ e ∈ members, w.group.members.get? e.1 = some e.2)
    (hassigned : ∀ id bytes, assignments.get? id = some bytes → Outcome.decode (.bytes bytes) = .ok o) :
    After (deliver epoch assignments members) w fun _ w' => Agreed w' := by
  induction members generalizing w with
  | nil => exact after_pure h
  | cons e rest ih =>
    obtain ⟨id, m⟩ := e
    unfold deliver
    refine after_group ?_
    split
    · rename_i payload hpayload
      have hdecode : ∀ o', Outcome.decode payload = .ok o' → o' = o := by
        intro o' ho'
        rcases Option.or_eq_some_iff.mp hpayload with hoverride | ⟨_, hsent⟩
        · obtain ⟨e, he⟩ := h.refused id payload hoverride
          rw [he] at ho'
          cases ho'
        · obtain ⟨bytes, hbytes, rfl⟩ := Option.map_eq_some_iff.mp hsent
          rw [hassigned id bytes hbytes] at ho'
          exact (Except.ok.inj ho').symm
      have hmember := hmembers _ List.mem_cons_self
      refine (after_onNode_complete h hdecided hepoch hmember hdecode).bind ?_ ?_
      · rintro _ w' ⟨hgroup, hagreed, hdecided'⟩
        refine ih hagreed hdecided' (by rw [hgroup]; exact hepoch) ?_
        intro e hmem
        rw [hgroup]
        exact hmembers e (List.mem_cons_of_mem _ hmem)
      · rintro _ w' ⟨_, hagreed, _⟩
        exact hagreed
    · exact after_throw h

omit [DecidableEq ι] in
theorem not_active_of_revoked (h : Agreed w)
    (hrevoked : ∀ e ∈ w.group.members.entries, w.Joins e.2.node) (i : ι) :
    (w.nodes i).node.phase ≠ .active := by
  intro hactive
  obtain ⟨id, o, m, _, hmember, hnode, _⟩ := h.held i hactive
  have hjoining := (hrevoked (id, m) ((w.group.members.get?_eq_some_iff id m).mp hmember)).phase
  rw [hnode, hactive] at hjoining
  cases hjoining

omit [DecidableEq ι] in
theorem Agreed.advance (h : Agreed w) (hidle : ∀ i, (w.nodes i).node.phase ≠ .active) :
    Agreed { w with group := { w.group with epoch := w.group.epoch + 1 } } where
  toSound := h.toSound.of_group (Int.le_add_one (Int.le_refl _)) h.refused
  held := fun i hactive => (hidle i hactive).elim

omit [DecidableEq ι] in
theorem after_keepRound (h : Agreed w) (round : Round) :
    After (keepRound round) w fun _ w' => Agreed w' :=
  after_of_ok rfl (h.of_group rfl (fun _ _ hm => hm) h.refused)

theorem after_rebalance (h : Agreed w) (asked : Value) (abort : Bool) :
    After (rebalance asked abort) w fun _ w' => Agreed w' := by
  unfold rebalance
  refine after_group ?_
  split
  · exact after_throw h
  rename_i leader chosen hleader
  refine after_group ((gives_revokeAll_agreed h).bind_after ?_)
  rintro _ w₁ ⟨h₁, hu₁, hrevoked⟩
  rw [← hu₁.group] at hrevoked
  refine after_update (after_group ?_)
  have h₂ := h₁.advance (not_active_of_revoked h₁ hrevoked)
  refine (after_gather h₂).bind ?_ fun _ _ h₃ => h₃.1
  rintro metadata w₃ ⟨h₃, hu₃⟩
  refine (after_assign h₃).bind ?_ fun _ _ h₄ => h₄.1
  rintro assignments w₄ ⟨h₄, hu₄, hassigned⟩
  obtain ⟨o, ho⟩ := hassigned assignments rfl
  dsimp only
  split
  · exact after_throw h₄
  split
  · refine (gives_revokeAll_agreed h₄).bind_after ?_
    rintro _ w₅ ⟨h₅, _⟩
    refine (after_keepRound h₅ _).bind ?_ fun _ _ h₆ => h₆
    exact fun _ _ h₆ => after_pure h₆
  · have hgroup : w₄.group = { w₁.group with epoch := w₁.group.epoch + 1 } := hu₄.group.trans hu₃.group
    have hdecided : Decided w₄ o := by
      intro o' hmem
      have hpast := h₁.past o' _ (hu₃.assigned _ _ (hu₄.assigned _ _ hmem))
      rw [hgroup] at hpast
      dsimp only at hpast
      omega
    have hmembers : ∀ e ∈ w.group.members.entries, w₄.group.members.get? e.1 = some e.2 := by
      intro e hmem
      rw [hgroup, hu₁.group]
      exact (w.group.members.get?_eq_some_iff _ _).mpr hmem
    refine (after_deliver h₄ hdecided (by rw [hgroup]) hmembers ho).bind ?_ fun _ _ h₅ => h₅
    intro _ w₅ h₅
    refine (after_keepRound h₅ _).bind ?_ fun _ _ h₆ => h₆
    intro _ w₆ h₆
    refine after_log (after_pure (h₆.log _ _))

omit [DecidableEq ι] in
theorem after_chooseId (h : Agreed w) (memberId : Option MemberId) :
    After (chooseId memberId) w fun _ w' => Agreed w' := by
  cases memberId with
  | some id => exact after_pure h
  | none =>
    let counted : Group ι := { w.group with nextMember := w.group.nextMember + 1 }
    have hcounted : Agreed { w with group := counted } := h.of_group rfl (fun _ _ hm => hm) h.refused
    unfold chooseId
    exact after_group (after_update (after_pure hcounted))

omit [DecidableEq ι] in
theorem after_join (h : Agreed w) (m : Handler ι) (memberId : Option MemberId) :
    After (join m memberId) w fun _ w' => Agreed w' := by
  have hinsert : ∀ (w' : World ι) (id : MemberId), Agreed w' → After (do
      if (← group).members.contains id then throw (.alreadyJoined id)
      update fun g => { g with members := g.members.insert id m }
      log (.joined id)
      return id) w' fun _ w'' => Agreed w'' := by
    intro w' id hw'
    refine after_group ?_
    split
    · exact after_throw hw'
    · rename_i hnew
      have hmembers : ∀ id' m', w'.group.members.get? id' = some m' →
          (w'.group.members.insert id m).get? id' = some m' := by
        intro id' m' hmember
        have hne : id ≠ id' := by
          rintro rfl
          exact hnew ((Option.isSome_iff_exists).mpr ⟨m', hmember⟩)
        rw [Roster.get?_insert, if_neg hne]
        exact hmember
      let joined : Group ι := { w'.group with members := w'.group.members.insert id m }
      have hjoined : Agreed { w' with group := joined } := hw'.of_group rfl hmembers hw'.refused
      exact after_update (after_log (after_pure (hjoined.log _ _)))
  have hname : ∀ w' : World ι, Agreed w' → After (do
      let id ← chooseId memberId
      if (← group).members.contains id then throw (.alreadyJoined id)
      update fun g => { g with members := g.members.insert id m }
      log (.joined id)
      return id) w' fun _ w'' => Agreed w'' := by
    intro w' hw'
    exact (after_chooseId hw' memberId).bind (fun id w'' hw'' => hinsert w'' id hw'')
      fun _ _ hw'' => hw''
  unfold join
  refine after_get (after_group ?_)
  cases w.group.subProtocol with
  | none =>
    let settled : Group ι :=
      { w.group with subProtocol := some (w.nodes m.node).node.config.subProtocol }
    have hsettled : Agreed { w with group := settled } := h.of_group rfl (fun _ _ hm => hm) h.refused
    exact after_update (hname _ hsettled)
  | some expected =>
    apply after_ite
    · exact fun _ => after_throw h
    · exact fun _ => hname w h

theorem after_leave (h : Agreed w) (memberId : MemberId) :
    After (leave memberId) w fun _ w' => Agreed w' := by
  unfold leave
  refine (after_handler memberId).bind ?_ ?_
  · rintro m w' ⟨hw', hm⟩
    have hmember := hm m rfl
    rw [hw']
    let g : Group ι := { w.group with
      members := w.group.members.erase memberId
      metadataOverrides := w.group.metadataOverrides.erase memberId
      assignmentOverrides := w.group.assignmentOverrides.erase memberId }
    have hsound : Sound { w with group := g } := by
      refine h.toSound.of_group ?_ ?_
      · exact Int.le_refl _
      · exact fun id p hp => h.refused id p ((Roster.get?_erase _ memberId id p).mp hp).2
    refine after_update ((gives_onNode_revoke (hsound.poised m.node)).bind_after ?_)
    rintro _ _ ⟨r, rfl, hjoining, _, heffective⟩
    have hleft : Agreed (World.put { w with group := g } m.node r) := by
      refine ⟨hsound.put heffective fun _ hfalse => hfalse.elim, ?_⟩
      intro j
      by_cases hj : j = m.node
      · intro hactive
        rw [hj, World.put_self, hjoining] at hactive
        cases hactive
      · apply Held.put_other hj
        refine (h.held j).of_group (g := g) rfl ?_
        intro id m' hmember' hnode
        rw [Roster.get?_erase]
        refine ⟨?_, hmember'⟩
        rintro rfl
        rw [hmember] at hmember'
        cases hmember'
        exact hj hnode.symm
    refine after_group (after_ite ?_ ?_)
    · exact fun _ => after_of_ok rfl (hleft.of_group rfl (fun _ _ hm => hm) hleft.refused)
    · exact fun _ => after_pure hleft
  · rintro _ _ ⟨hw', _⟩
    rw [hw']
    exact h

end work

def Operation.Orderly : Operation ι → Prop
  | .overrideAssignment _ p => ∃ e, Outcome.decode p = .error e
  | .call _ c => c.completes = false
  | _ => True

theorem after_operate {w : World ι} (h : Agreed w) {op : Operation ι} (hop : op.Orderly) :
    After (operate op) w fun _ w' => Agreed w' := by
  cases op with
  | join m memberId =>
    exact (after_join h m memberId).bind (fun _ _ h' => after_pure h') fun _ _ h' => h'
  | leave memberId => exact (after_leave h memberId).bind (fun _ _ h' => after_pure h') fun _ _ h' => h'
  | rebalance leader abort =>
    exact (after_rebalance h leader abort).bind (fun _ _ h' => after_pure h') fun _ _ h' => h'
  | poll =>
    have hpoll : After (poll : GroupM ι (Option Round)) w fun _ w' => Agreed w' := by
      refine after_get (after_ite ?_ ?_)
      · exact fun _ => (after_rebalance h .null false).bind (fun _ _ h' => after_pure h') fun _ _ h' => h'
      · exact fun _ => after_pure h
    exact hpoll.bind (fun _ _ h' => after_pure h') fun _ _ h' => h'
  | overrideMetadata memberId p =>
    exact after_update (after_pure (h.of_group rfl (fun _ _ hm => hm) h.refused))
  | overrideAssignment memberId p =>
    refine after_update (after_pure (h.of_group rfl (fun _ _ hm => hm) ?_))
    intro id p' hp'
    rw [Roster.get?_insert] at hp'
    split at hp'
    · cases hp'
      exact hop
    · exact h.refused id p' hp'
  | clearOverrides =>
    exact after_update (after_pure (h.of_group rfl (fun _ _ hm => hm) (by simp)))
  | call i c =>
    obtain ⟨hkept, hown, hrests⟩ := h.poised i
    have hperform : After (perform (react (w.nodes i).listener.script.size) c) ⟨w.nodes i, []⟩
        fun result r => (∀ a, result = .ok a → True) ∧
          Effective (Script.Only Patient) (fun _ => False) ⟨w.nodes i, []⟩ r :=
      (after_perform_effective (hkept _) hown hrests).mono fun _ _ hr =>
        ⟨fun _ _ => trivial, hr.mono fun a => Call.not_offers hop _ a⟩
    exact (after_onNode_unassigned h hperform).bind (fun _ _ h' => after_pure h'.2.1) fun _ _ h' => h'.2.1

omit [DecidableEq ι] in
theorem agreed_start {groupId : Value} {nodes : ι → Session}
    (hnew : ∀ i, ∃ config script, nodes i = .start config script ∧ script.Only Patient) :
    Agreed ⟨{ groupId := groupId }, nodes, []⟩ where
  rests := by
    intro i
    obtain ⟨config, script, hnode, _⟩ := hnew i
    dsimp only
    rw [hnode]
    exact .inl rfl
  patient := by
    intro i
    obtain ⟨config, script, hnode, honly⟩ := hnew i
    dsimp only
    rw [hnode]
    exact honly
  refused := by
    intro id p h
    cases h
  past := by
    intro o e h
    cases h
  agree := by
    intro o o' e h
    cases h
  held := by
    intro i hactive
    obtain ⟨config, script, hnode, _⟩ := hnew i
    dsimp only at hactive
    rw [hnode] at hactive
    cases hactive

theorem Course.agreed {groupId : Value} {nodes : ι → Session} {w : World ι}
    (hnew : ∀ i, ∃ config script, nodes i = .start config script ∧ script.Only Patient)
    (h : Course Operation.Orderly ⟨{ groupId := groupId }, nodes, []⟩ w) : Agreed w := by
  induction h with
  | begin => exact agreed_start hnew
  | operate op _ hop ih => exact after_left.mp (after_operate ih hop)

theorem primary_of_isPrimary {n : Node} (h : n.isPrimary = some true) :
    n.phase = .active ∧ ∀ e id o, n.accepted = some ⟨e, id, o⟩ → o.primaryId? = some id := by
  unfold Node.isPrimary at h
  split at h
  · rename_i hactive
    refine ⟨hactive, ?_⟩
    intro e id o haccepted
    rw [Node.outcome, Node.memberId, haccepted] at h
    simpa [Outcome.isPrimary] using h
  · cases h

/-- In every course at most one node is primary, and whoever is active or was told agrees on the round. -/
theorem Course.single_primary {groupId : Value} {nodes : ι → Session} {w : World ι}
    (hnew : ∀ i, ∃ config script, nodes i = .start config script ∧ script.Only Patient)
    (h : Course Operation.Orderly ⟨{ groupId := groupId }, nodes, []⟩ w) :
    (∀ i j, (w.nodes i).node.isPrimary = some true → (w.nodes j).node.isPrimary = some true → i = j) ∧
    (∀ i, (w.nodes i).node.phase = .active → (w.nodes i).node.epoch = w.group.epoch) ∧
    ∀ i j o o' e, Note.node i (.notified (.assigned o e)) ∈ w.trace →
      Note.node j (.notified (.assigned o' e)) ∈ w.trace → o = o' := by
  have hagreed := h.agreed hnew
  refine ⟨?_, ?_, ?_⟩
  · intro i j hi hj
    obtain ⟨hactive, hprimary⟩ := primary_of_isPrimary hi
    obtain ⟨hactive', hprimary'⟩ := primary_of_isPrimary hj
    obtain ⟨id, o, m, haccepted, hmember, hnode, htold⟩ := hagreed.held i hactive
    obtain ⟨id', o', m', haccepted', hmember', hnode', htold'⟩ := hagreed.held j hactive'
    have hid := hprimary _ _ _ haccepted
    have hid' := hprimary' _ _ _ haccepted'
    rw [hagreed.agree o o' _ htold htold', hid'] at hid
    cases hid
    rw [hmember] at hmember'
    cases hmember'
    exact hnode.symm.trans hnode'
  · intro i hactive
    obtain ⟨id, o, m, haccepted, _⟩ := hagreed.held i hactive
    rw [Node.epoch, haccepted]
    rfl
  · intro i j o o' e hmem hmem'
    exact hagreed.agree o o' e (mem_notified hmem) (mem_notified hmem')

def pair (i : Bool) : Session :=
  .start ⟨{ host := .text (if i then "x" else "y"), port := .int 1 }, .http⟩
    ⟨[[.call .revoke true, .raise "no"]], []⟩

theorem pair_new (i : Bool) :
    ∃ config script, pair i = .start config script ∧ script.Only Patient := by
  refine ⟨_, _, rfl, ?_, by simp⟩
  intro actions hmem c caught haction _
  rw [List.mem_singleton.mp hmem] at haction
  simp only [List.mem_cons, List.not_mem_nil, reduceCtorEq, or_false, Action.call.injEq] at haction
  rw [haction.1]
  rfl

theorem Course.single_primary_pair :
    ∃ w : World Bool, Course Operation.Orderly ⟨{ groupId := .text "g" }, pair, []⟩ w ∧
      (w.nodes true).node.isPrimary = some true ∧ (w.nodes false).node.isPrimary = some false ∧
      w.group.epoch = 3 ∧
      (∀ i j, (w.nodes i).node.isPrimary = some true → (w.nodes j).node.isPrimary = some true → i = j) ∧
      (∀ i, (w.nodes i).node.phase = .active → (w.nodes i).node.epoch = w.group.epoch) ∧
      ∀ i j o o' e, Note.node i (.notified (.assigned o e)) ∈ w.trace →
        Note.node j (.notified (.assigned o' e)) ∈ w.trace → o = o' := by
  have hbegin : Course Operation.Orderly ⟨{ groupId := .text "g" }, pair, []⟩ _ := .begin
  have hjoined := (hbegin.operate (.join ⟨true, []⟩ (some "a")) trivial).operate
    (.join ⟨false, []⟩ (some "b")) trivial
  have hround := hjoined.operate (.rebalance (.text "b") false) trivial
  have haborted := (hround.operate (.call false .revoke) rfl).operate (.rebalance .null true) trivial
  have hcourse := haborted.operate .poll trivial
  refine ⟨_, hcourse, ?_, ?_, ?_, hcourse.single_primary pair_new⟩ <;> decide +kernel

end PrimaryElection.Group
