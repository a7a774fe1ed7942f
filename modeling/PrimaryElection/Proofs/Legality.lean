import PrimaryElection.Proofs.Rounds
import PrimaryElection.Proofs.SinglePrimary

namespace PrimaryElection.Group

open GroupM

variable {ι : Type} [DecidableEq ι]

def Granted {α : Type} (result : Except Error α) : Prop :=
  ∀ source target, result ≠ .error (.node (.transition source target))

theorem granted_ok {α : Type} (a : α) : Granted (.ok a) := by
  intro source target h
  cases h

theorem Granted.error {α β : Type} {e : Error} (h : Granted (.error e : Except Error α)) :
    Granted (.error e : Except Error β) := by
  intro source target he
  exact h source target (congrArg _ (Except.error.inj he))

theorem granted_of_lawful {α : Type} {e : Failure} (h : Lawful (.error e : Except Failure α)) :
    Granted (.error (.node e) : Except Error α) := by
  intro source target he
  injection he with he
  injection he with he
  exact h source target (congrArg _ he)

section loops

variable {own : Script → Prop} {w : World ι}

theorem after_metadata_granted (i : ι) :
    After (onNode i fun _ => Node.metadata) w fun result w' =>
      Granted result ∧ w'.group = w.group ∧ w'.nodes = w.nodes := by
  have hnodes : ∀ r : Run, r.node = (w.nodes i).node → Quiet ⟨w.nodes i, []⟩ r →
      (w.put i r).nodes = w.nodes := by
    intro r hnode hq
    funext j
    by_cases hj : j = i
    · rw [hj, World.put_self, Session.eq_of_quiet hnode hq]
    · exact World.put_other w i r hj
  apply after_onNode (Node.after_metadata _)
  · rintro data r ⟨_, hnode, hq⟩
    exact ⟨granted_ok data, rfl, hnodes r hnode hq⟩
  · rintro e r ⟨hlawful, hnode, hq⟩
    exact ⟨granted_of_lawful hlawful, rfl, hnodes r hnode hq⟩

theorem after_gather_granted {members : List (MemberId × Handler ι)} :
    After (gather members) w fun result w' =>
      Granted result ∧ w'.group = w.group ∧ w'.nodes = w.nodes := by
  induction members generalizing w with
  | nil => exact after_pure ⟨granted_ok _, rfl, rfl⟩
  | cons e rest ih =>
    obtain ⟨id, m⟩ := e
    refine (after_metadata_granted m.node).bind ?_ fun e _ h => ⟨h.1.error, h.2⟩
    rintro submitted w₁ ⟨_, hgroup, hnodes⟩
    refine after_group (ih.bind ?_ ?_)
    · rintro others w₂ ⟨_, hgroup', hnodes'⟩
      exact after_pure ⟨granted_ok _, hgroup'.trans hgroup, hnodes'.trans hnodes⟩
    · rintro e w₂ ⟨hgranted, hgroup', hnodes'⟩
      exact ⟨hgranted.error, hgroup'.trans hgroup, hnodes'.trans hnodes⟩

structure Headed (i : ι) (w w' : World ι) : Prop where
  group : w'.group = w.group
  phase : (w'.nodes i).node.phase = .leading
  rejoin : (w.nodes i).node.rejoinNeeded = true → (w'.nodes i).node.rejoinNeeded = true
  others : ∀ j, j ≠ i → w'.nodes j = w.nodes j

theorem after_assign_granted {m : Handler ι} {epoch : Int} {leader : MemberId}
    {metadata : Roster Payload} (hjoining : (w.nodes m.node).node.phase = .joining) :
    After (assign m epoch leader metadata) w fun result w' => Granted result ∧ Headed m.node w w' := by
  have hcompute : After (onNode m.node fun _ => Node.compute epoch (.text leader) metadata) w
      fun result w' => Granted result ∧ Headed m.node w w' := by
    have hheaded : ∀ r : Run, r.node.phase = .leading →
        r.node.rejoinNeeded = ((w.nodes m.node).node.rejoinNeeded ||
          (w.nodes m.node).node.phase.inRound) → Headed m.node w (w.put m.node r) := by
      intro r hphase hrejoin
      refine ⟨rfl, ?_, ?_, fun j hj => World.put_other w _ r hj⟩
      · rw [World.put_self]
        exact hphase
      · intro hwanted
        rw [World.put_self, hrejoin, hwanted, Bool.true_or]
    apply after_onNode (Node.after_compute (by rw [hjoining]; decide) (by rw [hjoining]; decide))
    · rintro computed r ⟨_, hs, _⟩
      exact ⟨granted_ok _, hheaded r (by rw [hs]) (by rw [hs])⟩
    · rintro e r ⟨hresult, hs, _⟩
      refine ⟨granted_of_lawful (α := Roster Bytes) ?_, hheaded r (by rw [hs]) (by rw [hs])⟩
      rw [hresult]
      exact lawful_mapError (fun _ => rfl) _
  refine hcompute.bind ?_ fun _ _ h => h
  rintro computed w' ⟨_, hheaded⟩
  exact after_pure ⟨granted_ok _, hheaded⟩

theorem exists_delivery {assignments : Roster Bytes} {id : MemberId}
    (h : assignments.contains id = true) (overrides : Roster Payload) :
    ∃ payload, (overrides.get? id).or ((assignments.get? id).map .bytes) = some payload := by
  obtain ⟨bytes, hbytes⟩ := Option.isSome_iff_exists.mp h
  rw [hbytes]
  cases overrides.get? id <;> exact ⟨_, rfl⟩

theorem gives_deliver_poised {members : List (MemberId × Handler ι)} {epoch : Int}
    {assignments : Roster Bytes} (h : w.Poised own) (honce : (members.map (·.2.node)).Nodup)
    (hphase : ∀ e ∈ members,
      (w.nodes e.2.node).node.phase = .joining ∨ (w.nodes e.2.node).node.phase = .leading)
    (hsent : ∀ e ∈ members, assignments.contains e.1 = true) :
    Gives (deliver epoch assignments members) w fun _ _ => True := by
  induction members generalizing w with
  | nil => exact gives_pure trivial
  | cons e rest ih =>
    obtain ⟨id, m⟩ := e
    simp only [List.map_cons, List.nodup_cons] at honce
    obtain ⟨payload, hpayload⟩ := exists_delivery (hsent _ List.mem_cons_self) w.group.assignmentOverrides
    have hcomplete : After (onNode m.node fun tell => Node.complete tell epoch id payload) w
        fun result w' => result = .ok () ∧ w'.Poised own ∧ ∀ j, j ≠ m.node → w'.nodes j = w.nodes j := by
      obtain ⟨hkept, hown, hrests⟩ := h m.node
      apply after_onNode ((after_complete_ok (hkept _) hown (hphase _ List.mem_cons_self)).and
        (after_complete_effective (hkept _) hown hrests))
      · rintro _ r ⟨_, heffective⟩
        exact ⟨rfl, h.put heffective, fun j hj => World.put_other w _ r hj⟩
      · rintro e r ⟨hfalse, _⟩
        cases hfalse
    unfold deliver
    apply gives_group
    rw [hpayload]
    refine (gives_of_after hcomplete).bind ?_
    rintro _ w₁ ⟨hpoised, hothers⟩
    have hsame : ∀ e ∈ rest, w₁.nodes e.2.node = w.nodes e.2.node := by
      intro e he
      refine hothers _ fun heq => honce.1 (List.mem_map.mpr ⟨e, he, heq⟩)
    refine ih hpoised honce.2 ?_ fun e he => hsent e (List.mem_cons_of_mem _ he)
    intro e he
    rw [hsame e he]
    exact hphase e (List.mem_cons_of_mem _ he)

end loops

/-- A round that came to nothing: it used up an epoch, and no member holds an assignment. -/
structure Forfeited (w w' : World ι) : Prop where
  group : w'.group = { w.group with epoch := w.group.epoch + 1 }
  idle : ∀ e ∈ w.group.members.entries, (w'.nodes e.2.node).node.phase ≠ .active
  rejoin : ∀ e ∈ w.group.members.entries, (w'.nodes e.2.node).node.rejoinNeeded = true

section operations

variable {own : Script → Prop} {w : World ι}

theorem Headed.forfeited {w₁ w₂ w₃ : World ι} {i : ι} (h : Headed i w₂ w₃)
    (hgroup : w₂.group = { w.group with epoch := w.group.epoch + 1 })
    (hnodes : w₂.nodes = w₁.nodes) (hjoins : ∀ e ∈ w.group.members.entries, w₁.Joins e.2.node) :
    Forfeited w w₃ := by
  refine ⟨h.group.trans hgroup, ?_, ?_⟩
  · intro e he
    by_cases hi : e.2.node = i
    · rw [hi, h.phase]
      decide
    · rw [h.others _ hi, hnodes, (hjoins e he).phase]
      decide
  · intro e he
    by_cases hi : e.2.node = i
    · rw [hi]
      apply h.rejoin
      rw [hnodes, ← hi]
      exact (hjoins e he).rejoin
    · rw [h.others _ hi, hnodes]
      exact (hjoins e he).rejoin

omit [DecidableEq ι] in
theorem Forfeited.of_joins {w' : World ι} (hgroup : w'.group = { w.group with epoch := w.group.epoch + 1 })
    (hjoins : ∀ e ∈ w.group.members.entries, w'.Joins e.2.node) : Forfeited w w' where
  group := hgroup
  idle := by
    intro e he
    rw [(hjoins e he).phase]
    decide
  rejoin := fun e he => (hjoins e he).rejoin

omit [DecidableEq ι] in
theorem granted_leaderOf (g : Group ι) (asked : Value) : Granted (leaderOf g asked) := by
  intro source target h
  unfold leaderOf at h
  split at h
  · cases h
  split at h
  · cases h
  split at h
  · cases h
  split at h <;> cases h

theorem after_rebalance_granted (h : w.Poised own)
    (honce : (w.group.members.entries.map (·.2.node)).Nodup) (asked : Value) (abort : Bool) :
    After (rebalance asked abort) w fun result w' => Granted result ∧
      ∀ leader, leaderOf w.group asked = .ok leader → ∀ e, result = .error e → Forfeited w w' := by
  unfold rebalance
  refine after_group ?_
  split
  · rename_i e he
    exact after_throw ⟨(he ▸ granted_leaderOf w.group asked).error, by simp [he]⟩
  rename_i leader chosen hleader
  have hchosen := mem_of_leaderOf hleader
  have hended : ∀ (round : Round) (w' : World ι), Granted (.ok round : Except Error Round) ∧
      ∀ leader, leaderOf w.group asked = .ok leader →
        ∀ e, (.ok round : Except Error Round) = .error e → Forfeited w w' :=
    fun round _ => ⟨granted_ok round, by simp⟩
  -- Once all are revoked, every member is joining and wants another round; the rest is legal from there.
  refine after_group ((gives_revokeAll (fun _ hw' => hw') (fun _ _ _ hw' heffective => hw'.put heffective)
    h).bind_after ?_)
  rintro _ w₁ ⟨h₁, hgroup₁, _, hjoins⟩
  refine after_update (after_group (after_gather_granted.bind ?_ ?_))
  · rintro metadata w₃ ⟨_, hgroup₃, hnodes₃⟩
    have hgroup : w₃.group = { w.group with epoch := w.group.epoch + 1 } := by
      rw [hgroup₃, hgroup₁]
    have hnodes : w₃.nodes = w₁.nodes := hnodes₃
    have h₃ : w₃.Poised own := by
      intro i
      rw [hnodes]
      exact h₁ i
    have hjoining : (w₃.nodes chosen.node).node.phase = .joining := by
      rw [hnodes]
      exact (hjoins _ hchosen).phase
    have hleads : ∀ epoch, Leads own (fun _ _ => True)
        (assign chosen epoch leader (.ofList metadata)) w₃ := fun _ => leads_assign h₃
    refine ((after_assign_granted hjoining).and (hleads _)).bind ?_ ?_
    · rintro assignments w₄ ⟨⟨_, hheaded⟩, hevolves⟩
      have hforfeited := hheaded.forfeited hgroup hnodes hjoins
      have h₄ := hevolves.poised h₃
      dsimp only
      split
      · exact after_throw ⟨by simp [Granted], fun _ _ _ _ => hforfeited⟩
      rename_i hmissing
      split
      · refine (gives_revokeAll (fun _ hw' => hw')
          (fun _ _ _ hw' heffective => hw'.put heffective) h₄).bind_after ?_
        intro _ w₅ _
        exact after_update (after_pure (hended _ _))
      · have hsent : ∀ e ∈ w.group.members.entries, assignments.contains e.1 = true :=
          Roster.none_missing_iff.mp (Bool.eq_false_iff.mpr hmissing)
        have hphase : ∀ e ∈ w.group.members.entries, (w₄.nodes e.2.node).node.phase = .joining ∨
            (w₄.nodes e.2.node).node.phase = .leading := by
          intro e he
          exact ((h₄ e.2.node).rests.eq_of_ne_active (hforfeited.idle e he))
        refine (gives_deliver_poised h₄ honce hphase hsent).bind_after ?_
        intro _ w₅ _
        exact after_update (after_log (after_pure (hended _ _)))
    · rintro e w₄ ⟨⟨hgranted, hheaded⟩, _⟩
      exact ⟨hgranted.error, fun _ _ _ _ => hheaded.forfeited hgroup hnodes hjoins⟩
  · rintro e w₃ ⟨hgranted, hgroup₃, hnodes₃⟩
    refine ⟨hgranted.error, fun _ _ _ _ => .of_joins ?_ ?_⟩
    · rw [hgroup₃, hgroup₁]
    · intro e he
      constructor <;> rw [hnodes₃]
      · exact (hjoins e he).phase
      · exact (hjoins e he).rejoin

omit [DecidableEq ι] in
theorem after_join_granted (m : Handler ι) (memberId : Option MemberId) :
    After (join m memberId) w fun result _ => Granted result := by
  have hnamed : ∀ (w' : World ι) (id : MemberId), After (do
      if (← group).members.contains id then throw (.alreadyJoined id)
      update fun g => { g with members := g.members.insert id m }
      log (.joined id)
      return id) w' fun result _ => Granted result := by
    intro w' id
    refine after_group ?_
    split
    · exact after_throw (by simp [Granted])
    · exact after_update (after_log (after_pure (granted_ok id)))
  have hchosen : ∀ w' : World ι, After (do
      let id ← chooseId memberId
      if (← group).members.contains id then throw (.alreadyJoined id)
      update fun g => { g with members := g.members.insert id m }
      log (.joined id)
      return id) w' fun result _ => Granted result := by
    intro w'
    have hchoose : After (chooseId memberId) w' fun result _ => Granted result := by
      cases memberId with
      | some id => exact after_pure (granted_ok id)
      | none => exact after_group (after_update (after_pure (granted_ok _)))
    exact hchoose.bind (fun id w'' _ => hnamed w'' id) fun _ _ he => he.error
  unfold join
  refine after_get (after_group ?_)
  cases w.group.subProtocol with
  | none => exact after_update (hchosen _)
  | some expected =>
    apply after_ite
    · exact fun _ => after_throw (by simp [Granted])
    · exact fun _ => hchosen w

theorem after_leave_granted (h : w.Poised own) (memberId : MemberId) :
    After (leave memberId) w fun result _ => Granted result := by
  have hhandler : After (handler memberId) w fun result w' => Granted result ∧ w' = w := by
    refine after_group ?_
    split
    · exact after_pure ⟨granted_ok _, rfl⟩
    · exact after_throw ⟨by simp [Granted], rfl⟩
  refine hhandler.bind ?_ fun _ _ h' => h'.1.error
  rintro m w' ⟨_, hw'⟩
  rw [hw']
  let g : Group ι := { w.group with
    members := w.group.members.erase memberId
    metadataOverrides := w.group.metadataOverrides.erase memberId
    assignmentOverrides := w.group.assignmentOverrides.erase memberId }
  have hpoised : World.Poised own { w with group := g } := h
  refine after_update ((gives_onNode_revoke (hpoised m.node)).bind_after ?_)
  intro _ w'' _
  refine after_group (after_ite ?_ ?_)
  · exact fun _ => after_of_ok rfl (granted_ok ())
  · exact fun _ => after_pure (granted_ok ())

def Operation.Internal : Operation ι → Prop
  | .call _ _ => False
  | _ => True

theorem after_operate_granted (h : w.Poised own)
    (honce : (w.group.members.entries.map (·.2.node)).Nodup) {op : Operation ι} (hop : op.Internal) :
    After (operate op) w fun result _ => Granted result := by
  have hanswers : ∀ {α : Type} {x : GroupM ι α} {f : α → Answer},
      After x w (fun result _ => Granted result) →
      After (x >>= fun a => pure (f a)) w fun result _ => Granted result := by
    intro α x f hx
    exact hx.bind (fun _ _ _ => after_pure (granted_ok _)) fun _ _ he => he.error
  have hrebalance : ∀ asked abort, After (rebalance asked abort) w fun result _ => Granted result :=
    fun asked abort => (after_rebalance_granted h honce asked abort).mono fun _ _ hr => hr.1
  cases op with
  | join m memberId => exact hanswers (after_join_granted m memberId)
  | leave memberId => exact hanswers (after_leave_granted h memberId)
  | rebalance asked abort => exact hanswers (hrebalance asked abort)
  | poll =>
    apply hanswers
    refine after_get (after_ite ?_ ?_)
    · exact fun _ => (hrebalance .null false).bind (fun _ _ _ => after_pure (granted_ok _))
        fun _ _ he => he.error
    · exact fun _ => after_pure (granted_ok _)
  | overrideMetadata memberId p => exact after_update (after_pure (granted_ok _))
  | overrideAssignment memberId p => exact after_update (after_pure (granted_ok _))
  | clearOverrides => exact after_update (after_pure (granted_ok _))
  | call i c => exact hop.elim

end operations

theorem Course.poised {allowed : Operation ι → Prop} {groupId : Value} {nodes : ι → Session} {w : World ι}
    (hnew : ∀ i, ∃ config script, nodes i = .start config script ∧ script.Only Patient)
    (h : Course allowed ⟨{ groupId := groupId }, nodes, []⟩ w) : w.Poised (Script.Only Patient) := by
  have hfirst : World.Poised (Script.Only Patient) ⟨{ groupId := groupId }, nodes, []⟩ := by
    intro i
    obtain ⟨config, script, hnode, honly⟩ := hnew i
    dsimp only
    rw [hnode]
    exact ⟨heeds_react, honly, .inl rfl⟩
  have hevolves : Evolves (Script.Only Patient) (fun _ _ => True) _ w :=
    h.evolves (fun _ _ _ => trivial) (fun _ _ => .inr fun _ _ => trivial) hfirst
  exact hevolves.poised hfirst

/--
Whatever has happened to a group and to its nodes, no node refuses what the group asks of it; and a round
that fails once its leader is known uses up one epoch and leaves all members in want of another round.
-/
theorem Course.never_refused {groupId : Value} {nodes : ι → Session} {w : World ι}
    (hnew : ∀ i, ∃ config script, nodes i = .start config script ∧ script.Only Patient)
    (h : Course (fun _ => True) ⟨{ groupId := groupId }, nodes, []⟩ w)
    (honce : (w.group.members.values.map Handler.node).Nodup) :
    (∀ op : Operation ι, op.Internal → ∀ source target w',
      Group.operate op w ≠ .error (.node (.transition source target)) w') ∧
    ∀ asked abort leader e w', leaderOf w.group asked = .ok leader →
      rebalance asked abort w = .error e w' →
        (∀ m ∈ w'.group.members.values, (w'.nodes m.node).node.phase ≠ .active ∧
          (w'.nodes m.node).node.rejoinNeeded = true) ∧
        w'.group.members = w.group.members ∧ w'.group.rounds = w.group.rounds ∧
        w'.group.epoch = w.group.epoch + 1 := by
  have hpoised := h.poised hnew
  rw [Roster.values, List.map_map] at honce
  constructor
  · intro op hop source target w' hrefused
    exact (after_operate_granted hpoised honce hop).of_error hrefused source target rfl
  · intro asked abort leader e w' hleader hfails
    have hforfeited := (after_rebalance_granted hpoised honce asked abort).of_error hfails
    have hforfeited := hforfeited.2 leader hleader e rfl
    refine ⟨?_, by rw [hforfeited.group], by rw [hforfeited.group], by rw [hforfeited.group]⟩
    intro m hm
    rw [hforfeited.group] at hm
    obtain ⟨entry, hentry, rfl⟩ := List.mem_map.mp hm
    exact ⟨hforfeited.idle entry hentry, hforfeited.rejoin entry hentry⟩

def withholding : World Bool :=
  [.join ⟨true, ["b"]⟩ (some "a"), .join ⟨false, []⟩ (some "b"), .rebalance (.text "b") false,
    .call true (.complete 9 "z" (.outcome .noCandidate))].foldl (fun w op => left (operate op) w)
    ⟨{ groupId := .text "g" }, pair, []⟩

theorem Course.never_refused_withholding :
    Course (fun _ => True) ⟨{ groupId := .text "g" }, pair, []⟩ withholding ∧
      (withholding.group.members.values.map Handler.node).Nodup ∧
      (withholding.nodes true).node.phase = .active ∧
      (∀ op : Operation Bool, op.Internal → ∀ source target w',
        Group.operate op withholding ≠ .error (.node (.transition source target)) w') ∧
      ∃ e w', rebalance .null false withholding = .error e w' ∧
        (∀ m ∈ w'.group.members.values, (w'.nodes m.node).node.phase ≠ .active ∧
          (w'.nodes m.node).node.rejoinNeeded = true) ∧
        w'.group.members = withholding.group.members ∧ w'.group.rounds = withholding.group.rounds ∧
        w'.group.epoch = withholding.group.epoch + 1 := by
  have hbegin : Course (fun _ => True) ⟨{ groupId := .text "g" }, pair, []⟩ _ := .begin
  have hcourse : Course (fun _ => True) ⟨{ groupId := .text "g" }, pair, []⟩ withholding :=
    hbegin.operateAll fun _ _ => trivial
  have honce : (withholding.group.members.values.map Handler.node).Nodup := by decide +kernel
  have hleader : (leaderOf withholding.group .null).toOption.isSome = true := by decide +kernel
  have hfails : (match rebalance .null false withholding with
    | .ok _ _ => false
    | .error _ _ => true) = true := by decide +kernel
  obtain ⟨hgranted, hforfeited⟩ := hcourse.never_refused pair_new honce
  refine ⟨hcourse, honce, by decide +kernel, hgranted, ?_⟩
  cases hfound : leaderOf withholding.group .null with
  | error e => simp [hfound, Except.toOption] at hleader
  | ok leader =>
    cases hrun : rebalance .null false withholding with
    | ok round w' => simp [hrun] at hfails
    | error e w' => exact ⟨e, w', rfl, hforfeited .null false leader e w' hfound hrun⟩

end PrimaryElection.Group
