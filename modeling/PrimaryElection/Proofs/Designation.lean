import PrimaryElection.Proofs.Delivery
import PrimaryElection.Proofs.Homecoming
import PrimaryElection.Proofs.Legality
import PrimaryElection.Proofs.Membership

namespace PrimaryElection

def Failure.OfValue : Failure → Prop
  | .unwritable (.textTooLong _) => True
  | .invalidIdentity _ => True
  | _ => False

theorem after_complete_transition {tell : Notice → HookM Unit} {epoch : Int} {memberId : MemberId}
    {data : Payload} {r : Run} (hfollowing : r.node.phase ≠ .following) :
    After (Node.complete tell epoch memberId data) r fun result _ =>
      ∀ e, result = .error e → ∃ source target, e = .transition source target := by
  by_cases hrefused : r.node.phase = .synced ∨ r.node.phase = .active ∨ r.node.phase = .revoking
  · apply (Node.after_complete_refused hrefused).mono
    rintro _ _ ⟨rfl, _⟩ e he
    exact ⟨_, _, (Except.error.inj he).symm⟩
  have hphase := Phase.free_of_not_refused hfollowing hrefused
  cases hdata : Outcome.decode data with
  | error e =>
    apply (Node.after_complete_undecodable hphase hdata).mono
    rintro _ _ ⟨rfl, _⟩ e he
    cases he
  | ok o =>
    by_cases hstale : epoch ≤ r.node.epoch
    · apply (Node.after_complete_stale hphase hdata hstale).mono
      rintro _ _ ⟨rfl, _⟩ e he
      cases he
    · refine Node.after_complete_accepted hphase hdata (Int.not_le.mp hstale) fun entered _ _ => ?_
      have htold : Gives (HookM.tellSafely tell (.assigned o epoch)) entered fun _ _ => True :=
        HookM.gives_tellSafely (P := fun _ => True) (after_left.mpr fun _ _ _ => trivial)
      refine htold.bind_after fun _ s _ => ?_
      cases hmove : s.node.phase.canMoveTo .active with
      | true =>
        apply after_of_ok (Node.move_eq_ok hmove)
        intro _ _ _ e he
        cases he
      | false =>
        apply after_of_error (Node.move_eq_error hmove)
        intro _ _ _ e he
        exact ⟨_, _, (Except.error.inj he).symm⟩

namespace Group

open GroupM Wire

variable {ι : Type}

def Error.OfValue : Error → Prop
  | .leaderNotComparable _ => False
  | .unknownMember _ => False
  | .node failure => failure.OfValue
  | _ => True

structure Written (w : World ι) : Prop where
  whole : ∀ h ∈ w.group.members.values, h.withheld = []
  named : ∀ id ∈ w.group.members.keys, id.Writable
  writable : ∀ h ∈ w.group.members.values, (w.nodes h.node).node.config.Writable

instance (w : World ι) : Decidable (Written w) :=
  decidable_of_iff ((∀ h ∈ w.group.members.values, h.withheld = []) ∧
    (∀ id ∈ w.group.members.keys, id.Writable) ∧
    ∀ h ∈ w.group.members.values, (w.nodes h.node).node.config.Writable)
    ⟨fun ⟨whole, named, writable⟩ => ⟨whole, named, writable⟩,
      fun h => ⟨h.whole, h.named, h.writable⟩⟩

inductive RoundEnds (w : World ι) (l : MemberId) (abort : Bool) : Except Error Round → World ι → Prop
  | kept (round : Round) (w' : World ι) : round.leader = l → round.epoch = w.group.epoch + 1 →
    round.members = w.group.members.keys → round.delivered = !abort →
    w'.group = { w.group with epoch := w.group.epoch + 1, rounds := w.group.rounds ++ [round] } →
    RoundEnds w l abort (.ok round) w'
  | refused (source target : Phase) (w' : World ι) : abort = false →
    w'.group = { w.group with epoch := w.group.epoch + 1 } →
    RoundEnds w l abort (.error (.node (.transition source target))) w'

section leaders

variable {g : Group ι} {l : MemberId}

theorem leaderOf_unknown (hl : l ∉ g.members.keys) (hnamed : l ≠ "") :
    leaderOf g (.text l) =
      .error (if g.members.keys = [] then .empty else .unknownLeader (.text l)) := by
  have hnone : g.members.get? l = none := (g.members.get?_eq_none_iff l).mpr hl
  unfold leaderOf
  cases hentries : g.members.entries with
  | nil => simp [Roster.keys, hentries]
  | cons first rest =>
    simp [Roster.keys, hentries, Value.isBlank, Value.key?, Value.text?, hnamed, hnone]

theorem leaderOf_blank (g : Group ι) : leaderOf g (.text "") = leaderOf g .null := by
  unfold leaderOf
  cases g.members.entries <;> rfl

end leaders

variable [DecidableEq ι]

theorem rebalance_of_error {w : World ι} {asked : Value} {e : Error}
    (h : leaderOf w.group asked = .error e) (abort : Bool) : rebalance asked abort w = .error e w := by
  have hended : After (rebalance asked abort) w fun result w' => result = .error e ∧ w' = w := by
    unfold rebalance
    refine after_group ?_
    rw [h]
    exact after_throw ⟨rfl, rfl⟩
  cases hrun : rebalance asked abort w with
  | ok round w' => cases (hended.of_ok hrun).1
  | error e' w' =>
    obtain ⟨he, rfl⟩ := hended.of_error hrun
    cases he
    rfl

theorem rebalance_blank (w : World ι) (abort : Bool) :
    rebalance (.text "") abort w = rebalance .null abort w := by
  simp only [rebalance, leaderOf_blank]

section loops

variable {w : World ι}

theorem after_onNode_run {α : Type} (i : ι) (work : (Notice → HookM Unit) → HookM α) :
    After (onNode i work) w fun _ w' =>
      w'.nodes i = ((w.nodes i).run work).session ∧ ∀ j, j ≠ i → w'.nodes j = w.nodes j := by
  cases hresult : ((w.nodes i).run work).result with
  | ok a =>
    apply after_of_ok (a := a) (by simp only [onNode, hresult]; rfl)
    exact ⟨if_pos rfl, fun j hj => if_neg hj⟩
  | error e =>
    apply after_of_error (e := .node e) (by simp only [onNode, hresult]; rfl)
    exact ⟨if_pos rfl, fun j hj => if_neg hj⟩

theorem gives_onNode_revoke_joining (hw : w.Rests) (i : ι) :
    Gives (onNode i Node.revoke) w fun _ w' => Serves w w' ∧
      (w'.nodes i).node.phase = .joining ∧ ∀ j, j ≠ i → w'.nodes j = w.nodes j := by
  obtain ⟨_, w', hrun, hserves⟩ := gives_onNode_revoke_serves hw i
  obtain ⟨hself, hothers⟩ := (after_onNode_run i Node.revoke).of_ok hrun
  refine ⟨(), w', hrun, hserves, ?_, hothers⟩
  rw [hself, Session.run_eq_runAs, (Session.returned _ (hw i)).node]

theorem gives_revokeAll_joining {members : List (MemberId × Handler ι)} (hw : w.Rests) :
    Gives (revokeAll members) w fun _ w' => Serves w w' ∧
      (∀ j, (w.nodes j).node.phase = .joining → (w'.nodes j).node.phase = .joining) ∧
      ∀ e ∈ members, (w'.nodes e.2.node).node.phase = .joining := by
  induction members generalizing w with
  | nil => exact gives_pure ⟨.refl w, fun _ => id, by simp⟩
  | cons e rest ih =>
    refine (gives_onNode_revoke_joining hw e.2.node).bind ?_
    rintro _ w₁ ⟨h₁, hself, hothers⟩
    apply (ih (h₁.rests hw)).mono
    rintro _ w' ⟨h', hstays, hrest⟩
    refine ⟨h₁.trans h', ?_, ?_⟩
    · intro j hj
      apply hstays
      by_cases heq : j = e.2.node
      · rw [heq, hself]
      · rw [hothers j heq, hj]
    · intro e' he'
      rcases List.mem_cons.mp he' with rfl | he'
      · exact hstays _ hself
      · exact hrest e' he'

theorem gives_onNode_metadata {i : ι} (hwritable : (w.nodes i).node.config.Writable) :
    Gives (onNode i fun _ => Node.metadata) w fun _ w' => w'.group = w.group ∧ w'.nodes = w.nodes := by
  obtain ⟨_, data, hidentity, hencode⟩ := hwritable
  have hsubmits : After Node.metadata ⟨w.nodes i, []⟩ fun result _ => result = .ok data :=
    (gives_metadata_view [] hidentity hencode).after fun _ _ h => congrArg _ h.1
  have hok : After (onNode i fun _ => Node.metadata) w fun result _ => result = .ok data := by
    apply after_onNode hsubmits
    · rintro _ _ h
      cases h
      rfl
    · rintro _ _ h
      cases h
  exact gives_of_after ((hok.and (after_metadata_granted i)).mono fun _ _ h => ⟨h.1, h.2.2⟩)

theorem gives_gather_keys {members : List (MemberId × Handler ι)}
    (hwritable : ∀ e ∈ members, (w.nodes e.2.node).node.config.Writable) :
    Gives (gather members) w fun submitted w' => submitted.map Prod.fst = members.map Prod.fst ∧
      w'.group = w.group ∧ w'.nodes = w.nodes := by
  induction members generalizing w with
  | nil => exact gives_pure ⟨rfl, rfl, rfl⟩
  | cons e rest ih =>
    obtain ⟨id, m⟩ := e
    refine (gives_onNode_metadata (hwritable _ List.mem_cons_self)).bind ?_
    rintro submitted w₁ ⟨hgroup, hnodes⟩
    have hrest : ∀ e ∈ rest, (w₁.nodes e.2.node).node.config.Writable := by
      intro e he
      rw [hnodes]
      exact hwritable e (List.mem_cons_of_mem _ he)
    refine gives_group ((ih hrest).bind ?_)
    rintro others w₂ ⟨hkeys, hgroup', hnodes'⟩
    exact gives_pure ⟨congrArg (id :: ·) hkeys, hgroup'.trans hgroup, hnodes'.trans hnodes⟩

theorem gives_assign_keys {m : Handler ι} {epoch : Int} {leader : MemberId} {metadata : Roster Payload}
    (hjoining : (w.nodes m.node).node.phase = .joining) (hwhole : m.withheld = [])
    (hnamed : ∀ id ∈ metadata.keys, id.Writable) :
    Gives (assign m epoch leader metadata) w fun assignments w' =>
      Serves w w' ∧ assignments.keys = metadata.keys := by
  obtain ⟨data, hdata⟩ :
      ∃ data, (Election.elect (Node.readable metadata) (some leader)).encode = .ok data := by
    apply Node.encode_elected_readable
    intro id i helected
    obtain ⟨p, hp, _⟩ := (Node.get?_readable metadata id i).mp (Election.get?_of_elected helected)
    exact hnamed id (Roster.mem_keys_of_get? hp)
  have hresult : After (Node.compute epoch (.text leader) metadata) ⟨w.nodes m.node, []⟩ fun result _ =>
      result = .ok (metadata.map fun _ => data) := by
    apply (Node.after_compute (by simp [hjoining]) (by simp [hjoining])).mono
    rintro _ _ ⟨rfl, _⟩
    change ((Election.elect (Node.readable metadata) (some leader)).encode.map _).mapError _ = _
    rw [hdata]
    rfl
  have hcompute : After (onNode m.node fun _ => Node.compute epoch (.text leader) metadata) w
      fun result w' => result = .ok (metadata.map fun _ => data) ∧ Serves w w' := by
    apply after_onNode (hresult.and after_compute_keeps)
    · rintro _ r ⟨hcomputed, hkeeps⟩
      cases hcomputed
      exact ⟨rfl, .put hkeeps⟩
    · rintro _ _ ⟨hfalse, _⟩
      cases hfalse
  refine (gives_eq_of_after hcompute).bind ?_
  rintro _ w' ⟨rfl, hserves⟩
  refine gives_pure ⟨hserves, ?_⟩
  rw [hwhole, Roster.without_nil, Roster.keys_map]

theorem after_deliver_ends {epoch : Int} {assignments : Roster Bytes}
    {members : List (MemberId × Handler ι)} (hw : w.Rests)
    (hsent : ∀ e ∈ members, assignments.contains e.1 = true) :
    After (deliver epoch assignments members) w fun result w' => w'.group = w.group ∧
      ∀ e, result = .error e → ∃ source target, e = .node (.transition source target) := by
  induction members generalizing w with
  | nil => exact after_pure ⟨rfl, by simp⟩
  | cons e rest ih =>
    obtain ⟨id, m⟩ := e
    obtain ⟨payload, hpayload⟩ := exists_delivery (hsent _ List.mem_cons_self) w.group.assignmentOverrides
    have hfollowing := (hw m.node).not_following
    have hcomplete : After (onNode m.node fun tell => Node.complete tell epoch id payload) w
        fun result w' => Serves w w' ∧
          ∀ e, result = .error e → ∃ source target, e = .node (.transition source target) := by
      apply after_onNode ((after_complete_keeps hfollowing (conserves_react _)).and
        (after_complete_transition hfollowing))
      · rintro _ r ⟨hkeeps, _⟩
        exact ⟨.put hkeeps, by simp⟩
      · rintro e r ⟨hkeeps, herror⟩
        obtain ⟨source, target, rfl⟩ := herror e rfl
        refine ⟨.put hkeeps, ?_⟩
        rintro _ ⟨⟩
        exact ⟨source, target, rfl⟩
    unfold deliver
    refine after_group ?_
    rw [hpayload]
    refine hcomplete.bind ?_ ?_
    · rintro _ w₁ ⟨h₁, _⟩
      apply (ih (h₁.rests hw) fun e he => hsent e (List.mem_cons_of_mem _ he)).mono
      rintro _ w' ⟨hgroup, herror⟩
      exact ⟨hgroup.trans h₁.group, herror⟩
    · rintro e w₁ ⟨h₁, herror⟩
      refine ⟨h₁.group, ?_⟩
      rintro _ ⟨⟩
      exact herror e rfl

end loops

theorem rebalance_ends {w : World ι} {asked : Value} {l : MemberId} {chosen : Handler ι}
    (hrests : w.Rests) (hwritten : Written w) (hleader : leaderOf w.group asked = .ok (l, chosen))
    (abort : Bool) : After (rebalance asked abort) w (RoundEnds w l abort) := by
  have hchosen := mem_of_leaderOf hleader
  unfold rebalance
  refine after_group ?_
  rw [hleader]
  refine after_group ((gives_revokeAll_joining hrests).bind_after ?_)
  rintro _ w₁ ⟨h₁, _, hjoining⟩
  refine after_update (after_group ?_)
  have hwritable : ∀ e ∈ w.group.members.entries, (w₁.nodes e.2.node).node.config.Writable := by
    intro e he
    rw [h₁.config]
    exact hwritten.writable _ (List.mem_map.mpr ⟨e, he, rfl⟩)
  let w₂ : World ι := { w₁ with group := { w₁.group with epoch := w₁.group.epoch + 1 } }
  refine (gives_gather_keys (w := w₂) hwritable).bind_after ?_
  rintro submitted w₃ ⟨hkeys, hgroup₃, hnodes₃⟩
  have hsubmitted : (submitted.map Prod.fst).Nodup := hkeys ▸ w.group.members.nodup
  have hmetadata : (Roster.ofList submitted).keys = w.group.members.keys :=
    (Roster.keys_ofList hsubmitted).trans hkeys
  refine (gives_assign_keys (by rw [hnodes₃]; exact hjoining _ hchosen)
    (hwritten.whole _ (List.mem_map.mpr ⟨_, hchosen, rfl⟩)) (hmetadata ▸ hwritten.named)).bind_after ?_
  rintro assignments w₄ ⟨h₄, hassigned⟩
  have hgroup : w₄.group = { w.group with epoch := w.group.epoch + 1 } := by
    rw [h₄.group, hgroup₃]
    simp only [w₂, h₁.group]
  have hrests₄ : w₄.Rests := by
    apply h₄.rests
    intro i
    rw [hnodes₃]
    exact h₁.rests hrests i
  have hsent : ∀ e ∈ w.group.members.entries, assignments.contains e.1 = true := by
    intro e he
    rw [Roster.contains_iff, hassigned, hmetadata]
    exact List.mem_map_of_mem he
  let round : Round := ⟨w₁.group.epoch + 1, l, w.group.members.keys, assignments, !abort⟩
  have hkept : ∀ w₅ w₆ : World ι, w₅.group = w₄.group →
      w₆.group = { w₅.group with rounds := w₅.group.rounds ++ [round] } →
      RoundEnds w l abort (.ok round) w₆ := by
    intro w₅ w₆ hgroup₅ hgroup₆
    refine .kept round w₆ rfl ?_ rfl rfl ?_
    · simp only [round, h₁.group]
    · rw [hgroup₆, hgroup₅, hgroup]
  dsimp only
  rw [Roster.none_missing_iff.mpr hsent]
  refine after_ite (fun hfalse => absurd hfalse (by decide)) fun _ => after_ite ?_ ?_
  · intro _
    refine (gives_revokeAll_joining hrests₄).bind_after ?_
    rintro _ w₅ ⟨h₅, _⟩
    exact after_update (after_pure (hkept w₅ _ h₅.group rfl))
  · intro hdelivers
    refine (after_deliver_ends hrests₄ hsent).bind ?_ ?_
    · rintro _ w₅ ⟨hgroup₅, _⟩
      exact after_update (after_log (after_pure (hkept w₅ _ hgroup₅ rfl)))
    · rintro e w₅ ⟨hgroup₅, herror⟩
      obtain ⟨source, target, rfl⟩ := herror e rfl
      exact .refused source target w₅ (Bool.eq_false_iff.mpr hdelivers) (hgroup₅.trans hgroup)

structure Designates (w : World ι) (l : MemberId) (abort : Bool) : Prop where
  refuses : (∃ e w', rebalance (.text l) abort w = .error e w' ∧ e.OfValue) ↔
    w.group.members.keys = [] ∨ l ∉ w.group.members.keys
  untouched : ∀ e w', rebalance (.text l) abort w = .error e w' → e.OfValue → w' = w
  led : ∀ round w', rebalance (.text l) abort w = .ok round w' →
    round.leader = l ∧ w'.group.rounds = w.group.rounds ++ [round]
  unfinished : ∀ e w', rebalance (.text l) abort w = .error e w' → ¬ e.OfValue →
    ∃ source target, e = .node (.transition source target) ∧ abort = false ∧
      w'.group.rounds = w.group.rounds

section answers

variable {w : World ι} {l : MemberId}

theorem designates_of_stranger (hl : l ∉ w.group.members.keys) (hnamed : l ≠ "") (abort : Bool) :
    Designates w l abort := by
  have hrun := rebalance_of_error (leaderOf_unknown hl hnamed) abort
  have hvalue : Error.OfValue
      (if w.group.members.keys = [] then .empty else .unknownLeader (.text l)) := by
    split <;> trivial
  refine ⟨iff_of_true ⟨_, w, hrun, hvalue⟩ (.inr hl), ?_, ?_, ?_⟩ <;> rw [hrun]
  · rintro _ _ ⟨⟩ _
    rfl
  · rintro _ _ ⟨⟩
  · rintro _ _ ⟨⟩ hnot
    exact (hnot hvalue).elim

theorem not_missing {keys : List MemberId} (hl : l ∈ keys) : ¬ (keys = [] ∨ l ∉ keys) := by
  rintro (rfl | hnot)
  · cases hl
  · exact hnot hl

theorem designates_of_ends {abort : Bool} (hl : l ∈ w.group.members.keys)
    (hends : After (rebalance (.text l) abort) w (RoundEnds w l abort)) : Designates w l abort := by
  have herror : ∀ e w', rebalance (.text l) abort w = .error e w' → ¬ e.OfValue ∧
      ∃ source target, e = .node (.transition source target) ∧ abort = false ∧
        w'.group.rounds = w.group.rounds := by
    intro e w' hrun
    cases hends.of_error hrun with
    | refused source target _ hdelivers hgroup =>
      exact ⟨fun hvalue => hvalue, source, target, rfl, hdelivers, by rw [hgroup]⟩
  refine ⟨iff_of_false ?_ (not_missing hl), ?_, ?_, fun e w' hrun _ => (herror e w' hrun).2⟩
  · rintro ⟨e, w', hrun, hvalue⟩
    exact (herror e w' hrun).1 hvalue
  · intro e w' hrun hvalue
    exact ((herror e w' hrun).1 hvalue).elim
  · intro round w' hrun
    cases hends.of_ok hrun with
    | kept _ _ hled _ _ _ hgroup => exact ⟨hled, by rw [hgroup]⟩

end answers

omit [DecidableEq ι] in
theorem script_of_start {nodes : ι → Session} {own : Script → Prop}
    (hnew : ∀ i, ∃ config script, nodes i = .start config script)
    (hown : ∀ i, own (nodes i).listener.script) (i : ι) :
    ∃ config script, nodes i = .start config script ∧ own script := by
  obtain ⟨config, script, hstart⟩ := hnew i
  refine ⟨config, script, hstart, ?_⟩
  have hscript := hown i
  rw [hstart] at hscript
  exact hscript

/--
Whatever has happened to a group and to its nodes, a round under a leader of choice is refused with an error
that blames a value exactly when the group has no such member, and then the world is as it was. Any round
that is run is led by that member and kept as the last one; only a node that refuses the outcome, for a
listener that drives it elsewhere, can keep the round from its end. The blank id counts as no choice.
-/
theorem Course.designated {groupId : Value} {nodes : ι → Session} {w : World ι}
    (hnew : ∀ i, ∃ config script, nodes i = .start config script)
    (h : Course (fun _ => True) ⟨{ groupId := groupId }, nodes, []⟩ w) (hwritten : Written w)
    (l : MemberId) (abort : Bool) :
    (l = "" → rebalance (.text l) abort w = rebalance .null abort w) ∧
    (l ≠ "" → Designates w l abort ∧
      (l ∈ w.group.members.keys → abort = true ∨ ((∀ i, (nodes i).listener.script.Only Patient) ∧
          (w.group.members.values.map Handler.node).Nodup) →
        ∃ round w', rebalance (.text l) abort w = .ok round w')) := by
  refine ⟨?_, fun hnamed => ?_⟩
  · rintro rfl
    exact rebalance_blank w abort
  by_cases hl : l ∈ w.group.members.keys
  · obtain ⟨chosen, hleader⟩ := leaderOf_text hl hnamed
    have hdesignates := designates_of_ends hl
      (rebalance_ends (h.founded hnew).rests hwritten hleader abort)
    refine ⟨hdesignates, fun _ hcalm => ?_⟩
    cases hrun : rebalance (.text l) abort w with
    | ok round w' => exact ⟨round, w', rfl⟩
    | error e w' =>
      have hvalue : ¬ e.OfValue := fun hvalue =>
        not_missing hl (hdesignates.refuses.mp ⟨e, w', hrun, hvalue⟩)
      obtain ⟨source, target, rfl, hdelivers, _⟩ := hdesignates.unfinished e w' hrun hvalue
      rcases hcalm with habort | ⟨hpatient, honce⟩
      · rw [hdelivers] at habort
        cases habort
      · rw [Roster.values, List.map_map] at honce
        have hpoised := h.poised (script_of_start hnew hpatient)
        have hgranted := (after_rebalance_granted hpoised honce (.text l) abort).of_error hrun
        exact (hgranted.1 source target rfl).elim
  · exact ⟨designates_of_stranger hl hnamed abort, fun hmem => (hl hmem).elim⟩

def designatedPair : World Bool :=
  [.join ⟨true, []⟩ (some "a"), .join ⟨false, []⟩ (some "b"), .rebalance .null false].foldl
    (fun w op => left (operate op) w) ⟨{ groupId := .text "g" }, pair, []⟩

theorem Course.designated_pair :
    Course (fun _ => True) ⟨{ groupId := .text "g" }, pair, []⟩ designatedPair ∧ Written designatedPair ∧
      designatedPair.group.members.keys = (["a", "b"] : List MemberId) ∧
      (∃ round w', rebalance (.text "b") false designatedPair = .ok round w' ∧ round.leader = "b" ∧
        w'.group.rounds = designatedPair.group.rounds ++ [round]) ∧
      (∃ e, rebalance (.text "z") true designatedPair = .error e designatedPair ∧ e.OfValue) ∧
      rebalance (.text "") false designatedPair = rebalance .null false designatedPair := by
  have hbegin : Course (fun _ => True) ⟨{ groupId := .text "g" }, pair, []⟩ _ := .begin
  have hcourse : Course (fun _ => True) ⟨{ groupId := .text "g" }, pair, []⟩ designatedPair :=
    hbegin.operateAll fun _ _ => trivial
  have hwritten : Written designatedPair := by decide +kernel
  have hkeys : designatedPair.group.members.keys = (["a", "b"] : List MemberId) := by decide +kernel
  have hnew : ∀ i, ∃ config script, pair i = .start config script := fun _ => ⟨_, _, rfl⟩
  have hpatient : ∀ i, (pair i).listener.script.Only Patient := by
    intro i
    obtain ⟨_, _, hstart, honly⟩ := pair_new i
    rw [hstart]
    exact honly
  obtain ⟨_, hchosen⟩ := hcourse.designated hnew hwritten "b" false
  obtain ⟨hmember, hruns⟩ := hchosen (by decide)
  obtain ⟨round, w', hrun⟩ := hruns (by rw [hkeys]; decide) (.inr ⟨hpatient, by decide +kernel⟩)
  obtain ⟨_, hasked⟩ := hcourse.designated hnew hwritten "z" true
  obtain ⟨hstranger, _⟩ := hasked (by decide)
  obtain ⟨e, w'', hfails, hvalue⟩ := hstranger.refuses.mpr (.inr (by rw [hkeys]; decide))
  rw [hstranger.untouched e w'' hfails hvalue] at hfails
  refine ⟨hcourse, hwritten, hkeys, ⟨round, w', hrun, hmember.led round w' hrun⟩, ⟨e, hfails, hvalue⟩, ?_⟩
  exact (hcourse.designated hnew hwritten "" false).1 rfl

def blankPair (second : Bool) : World Bool :=
  (Operation.join ⟨true, []⟩ (some "a") :: if second then [.join ⟨false, []⟩ (some "")] else []).foldl
    (fun w op => left (operate op) w) ⟨{ groupId := .text "g" }, pair, []⟩

theorem Course.blank_leader_ignored :
    (∀ second, Course (fun _ => True) ⟨{ groupId := .text "g" }, pair, []⟩ (blankPair second) ∧
      Written (blankPair second) ∧
      ∃ round w', rebalance (.text "") false (blankPair second) = .ok round w' ∧
        round.leader = "a" ∧ w'.group.rounds.map Round.leader = (["a"] : List MemberId)) ∧
    (blankPair false).group.members.keys = (["a"] : List MemberId) ∧
    (blankPair true).group.members.keys = (["a", ""] : List MemberId) := by
  refine ⟨fun second => ?_, by decide +kernel, by decide +kernel⟩
  have hbegin : Course (fun _ => True) ⟨{ groupId := .text "g" }, pair, []⟩ _ := .begin
  have hwritten : Written (blankPair second) := by
    cases second <;> decide +kernel
  have hruns : (match rebalance (.text "") false (blankPair second) with
    | .ok round w' => decide (round.leader = "a" ∧ w'.group.rounds.map Round.leader = (["a"] : List MemberId))
    | .error _ _ => false) = true := by
    cases second <;> decide +kernel
  refine ⟨hbegin.operateAll fun _ _ => trivial, hwritten, ?_⟩
  cases hrun : rebalance (.text "") false (blankPair second) with
  | ok round w' =>
    rw [hrun] at hruns
    exact ⟨round, w', rfl, of_decide_eq_true hruns⟩
  | error e w' =>
    rw [hrun] at hruns
    cases hruns

end Group

end PrimaryElection
