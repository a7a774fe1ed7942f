import PrimaryElection.Proofs.Broadcast
import PrimaryElection.Proofs.Evolution

namespace PrimaryElection

open Wire

def Config.Writable (c : Config) : Prop := ∃ i data, c.identity = .ok i ∧ i.encode = .ok data

theorem Config.writable_iff (c : Config) :
    c.Writable ↔ (c.identity.toOption.bind fun i => i.encode.toOption).isSome = true := by
  unfold Writable
  cases c.identity with
  | error violations => simp [Except.toOption]
  | ok i => cases hencode : i.encode <;> simp [Except.toOption, hencode]

instance (c : Config) : Decidable c.Writable := decidable_of_iff _ c.writable_iff.symm

def Session.submitted (s : Session) : Payload :=
  match (s.run fun _ => Node.metadata).result with
  | .ok data => .bytes data
  | .error _ => .foreign .null

namespace Session

theorem submitted_eq {s : Session} {i : Identity} {data : Bytes}
    (hidentity : s.node.config.identity = .ok i) (hencode : i.encode = .ok data) :
    s.submitted = .bytes data := by
  obtain ⟨_, r, hrun, rfl, _⟩ := gives_metadata_view [] (r := ⟨s, []⟩) hidentity hencode
  simp only [submitted, run, hrun]

theorem decode_submitted {s : Session} (h : s.node.config.Writable) :
    ∃ i, s.node.config.identity = .ok i ∧ Identity.decode s.submitted = .ok i := by
  obtain ⟨i, data, hidentity, hencode⟩ := h
  refine ⟨i, hidentity, ?_⟩
  rw [submitted_eq hidentity hencode]
  exact Identity.decode_eq_ok_iff.mpr hencode

end Session

structure Node.Holds (n : Node) (a : Acceptance) : Prop where
  active : n.phase = .active
  accepted : n.accepted = some a
  settled : n.rejoinNeeded = false

structure Node.Waits (n n' : Node) : Prop where
  joining : n'.phase = .joining
  accepted : n'.accepted = n.accepted
  rejoin : n'.rejoinNeeded = true

namespace Group

open GroupM

variable {ι : Type} [DecidableEq ι]

namespace World

def submission (w : World ι) (e : MemberId × Handler ι) : MemberId × Payload :=
  (e.1, (w.group.metadataOverrides.get? e.1).getD (w.nodes e.2.node).submitted)

def submissions (w : World ι) : Roster Payload := .ofList (w.group.members.entries.map w.submission)

def outcome (w : World ι) (leader : MemberId) : Outcome :=
  Election.elect (Node.readable w.submissions) (some leader)

def received (w : World ι) (o : Outcome) (id : MemberId) : Option Outcome :=
  match w.group.assignmentOverrides.get? id with
  | some p => (Outcome.decode p).toOption
  | none => some o

def Unaltered (w : World ι) : Prop :=
  ∀ id ∈ w.group.members.keys,
    w.group.metadataOverrides.get? id = none ∧ w.group.assignmentOverrides.get? id = none

variable {w : World ι} {o : Outcome} {id : MemberId} {p : Payload}

omit [DecidableEq ι]

theorem received_of_none (h : w.group.assignmentOverrides.get? id = none) :
    w.received o id = some o := by
  simp only [received, h]

theorem received_of_some (h : w.group.assignmentOverrides.get? id = some p) :
    w.received o id = (Outcome.decode p).toOption := by
  simp only [received, h]

end World

/-- Every member has a node of its own, withholds nothing and can be written out. -/
structure Fit (w : World ι) : Prop where
  once : (w.group.members.values.map Handler.node).Nodup
  whole : ∀ h ∈ w.group.members.values, h.withheld = []
  named : ∀ id ∈ w.group.members.keys, id.Writable
  writable : ∀ h ∈ w.group.members.values, (w.nodes h.node).node.config.Writable

instance (w : World ι) : Decidable (Fit w) :=
  decidable_of_iff ((w.group.members.values.map Handler.node).Nodup ∧
    (∀ h ∈ w.group.members.values, h.withheld = []) ∧
    (∀ id ∈ w.group.members.keys, id.Writable) ∧
    ∀ h ∈ w.group.members.values, (w.nodes h.node).node.config.Writable)
    ⟨fun ⟨once, whole, named, writable⟩ => ⟨once, whole, named, writable⟩,
      fun h => ⟨h.once, h.whole, h.named, h.writable⟩⟩

omit [DecidableEq ι] in
theorem submission_congr {w w' : World ι} {e : MemberId × Handler ι}
    (hwritable : (w.nodes e.2.node).node.config.Writable)
    (hoverrides : w'.group.metadataOverrides = w.group.metadataOverrides)
    (hconfig : (w'.nodes e.2.node).node.config = (w.nodes e.2.node).node.config) :
    w'.submission e = w.submission e := by
  obtain ⟨i, data, hidentity, hencode⟩ := hwritable
  unfold World.submission
  rw [hoverrides, Session.submitted_eq hidentity hencode,
    Session.submitted_eq (hconfig ▸ hidentity) hencode]

omit [DecidableEq ι] in
theorem gives_group {α : Type} {f : Group ι → GroupM ι α} {w : World ι} {P : α → World ι → Prop}
    (h : Gives (f w.group) w P) : Gives (GroupM.group >>= f) w P := h

theorem gives_update (f : Group ι → Group ι) (w : World ι) :
    Gives (GroupM.update f) w fun _ w' => w'.group = f w.group ∧ w'.view = w.view :=
  ⟨(), _, rfl, rfl, rfl⟩

theorem gives_log (entry : LogEntry) (w : World ι) :
    Gives (GroupM.log entry) w fun _ w' => w'.group = w.group ∧ w'.view = w.view := by
  refine ⟨(), _, rfl, rfl, ?_⟩
  funext i
  simp [World.view, told]

section loops

variable {w : World ι}

theorem gives_revokeAll_view {members : List (MemberId × Handler ι)} (hw : AtRest w) :
    Gives (revokeAll members) w fun _ w' => w'.group = w.group ∧
      ∀ i, w'.view i = if i ∈ members.map (·.2.node) then (w.view i).revoked else w.view i := by
  induction members generalizing w with
  | nil => exact gives_pure ⟨rfl, by simp⟩
  | cons e rest ih =>
    have hrevoke := gives_onNode Node.revoke (fun _ v => v = (w.view e.2.node).revoked)
      (hw e.2.node).script (gives_revoke_view _ (hw e.2.node).rests)
    refine hrevoke.bind ?_
    rintro _ w₁ ⟨hgroup, hothers, hself⟩
    have hrest : AtRest w₁ := by
      intro i
      by_cases hi : i = e.2.node
      · rw [hi, hself]
        exact (hw _).revoked
      · rw [hothers i hi]
        exact hw i
    apply (ih hrest).mono
    rintro _ w' ⟨hgroup', hviews⟩
    refine ⟨hgroup'.trans hgroup, ?_⟩
    intro i
    rw [hviews i, List.map_cons]
    -- A node that stands behind a later member as well is revoked once more, to no effect.
    by_cases hi : i = e.2.node
    · subst hi
      rw [hself, View.revoked_revoked, ite_self, if_pos List.mem_cons_self]
    · rw [hothers i hi]
      simp only [List.mem_cons, hi, false_or]

theorem gives_gather {members : List (MemberId × Handler ι)} (hw : AtRest w)
    (hwritable : ∀ e ∈ members, (w.nodes e.2.node).node.config.Writable) :
    Gives (gather members) w fun submitted w' => submitted = members.map w.submission ∧
      w'.group = w.group ∧ w'.view = w.view := by
  induction members generalizing w with
  | nil => exact gives_pure ⟨rfl, rfl, rfl⟩
  | cons e rest ih =>
    obtain ⟨id, m⟩ := e
    obtain ⟨i, data, hidentity, hencode⟩ := hwritable _ List.mem_cons_self
    have hmetadata := gives_onNode (fun _ => Node.metadata)
      (fun submitted v => submitted = data ∧ v = w.view m.node)
      (hw m.node).script (gives_metadata_view _ hidentity hencode)
    refine hmetadata.bind ?_
    rintro _ w₁ ⟨hgroup, hothers, rfl, hself⟩
    have hview : w₁.view = w.view := by
      funext j
      by_cases hj : j = m.node
      · rw [hj, hself]
      · exact hothers j hj
    have hconfig : ∀ j, (w₁.nodes j).node.config = (w.nodes j).node.config :=
      fun j => congrArg View.config (congrFun hview j)
    have hrest : AtRest w₁ := by
      intro j
      rw [hview]
      exact hw j
    have hwritable₁ : ∀ e ∈ rest, (w₁.nodes e.2.node).node.config.Writable := by
      intro e he
      rw [hconfig]
      exact hwritable e (List.mem_cons_of_mem _ he)
    have hsame : rest.map w₁.submission = rest.map w.submission := by
      apply List.map_congr_left
      intro e he
      exact submission_congr (hwritable e (List.mem_cons_of_mem _ he)) (by rw [hgroup]) (hconfig _)
    apply gives_group
    refine (ih hrest hwritable₁).bind ?_
    rintro others w' ⟨hothers, hgroup', hview'⟩
    refine gives_pure ⟨?_, hgroup'.trans hgroup, hview'.trans hview⟩
    rw [hothers, hsame, List.map_cons, World.submission, hgroup,
      Session.submitted_eq hidentity hencode]

theorem gives_assign {m : Handler ι} {epoch : Int} {leader : MemberId} {metadata : Roster Payload}
    {data : Bytes} (hscript : (w.view m.node).script = {}) (hjoining : (w.view m.node).phase = .joining)
    (hencode : (Election.elect (Node.readable metadata) (some leader)).encode = .ok data) :
    Gives (assign m epoch leader metadata) w fun assignments w' =>
      assignments = (metadata.map fun _ => data).without m.withheld ∧ w'.group = w.group ∧
        (∀ j, j ≠ m.node → w'.view j = w.view j) ∧ w'.view m.node = (w.view m.node).leading := by
  have hcompute := gives_onNode (fun _ => Node.compute epoch (.text leader) metadata)
    (fun computed v => computed = metadata.map (fun _ => data) ∧ v = (w.view m.node).leading)
    hscript (gives_compute_view _ hjoining hencode)
  refine hcompute.bind ?_
  rintro _ w' ⟨hgroup, hothers, rfl, hself⟩
  exact gives_pure ⟨rfl, hgroup, hothers, hself⟩

theorem gives_deliver {members : List (MemberId × Handler ι)} {epoch : Int} {assignments : Roster Bytes}
    {data : Bytes} {o : Outcome} (honce : (members.map (·.2.node)).Nodup)
    (hphase : ∀ e ∈ members, (w.view e.2.node).phase = .joining ∨ (w.view e.2.node).phase = .leading)
    (hscript : ∀ e ∈ members, (w.view e.2.node).script = {})
    (hsent : ∀ e ∈ members, assignments.get? e.1 = some data)
    (hdata : Outcome.decode (.bytes data) = .ok o) :
    Gives (deliver epoch assignments members) w fun _ w' => w'.group = w.group ∧
      (∀ j, j ∉ members.map (·.2.node) → w'.view j = w.view j) ∧
      ∀ e ∈ members,
        w'.view e.2.node = (w.view e.2.node).completed epoch e.1 (w.received o e.1) := by
  induction members generalizing w with
  | nil => exact gives_pure ⟨rfl, fun _ _ => rfl, by simp⟩
  | cons e rest ih =>
    obtain ⟨id, m⟩ := e
    simp only [List.map_cons, List.nodup_cons] at honce
    have hne : ∀ e ∈ rest, e.2.node ≠ m.node := by
      rintro e he heq
      exact honce.1 (List.mem_map.mpr ⟨e, he, heq⟩)
    obtain ⟨payload, hpayload, hreceived⟩ : ∃ payload,
        (w.group.assignmentOverrides.get? id).or ((assignments.get? id).map .bytes) = some payload ∧
          (Outcome.decode payload).toOption = w.received o id := by
      rw [hsent _ List.mem_cons_self]
      unfold World.received
      cases w.group.assignmentOverrides.get? id with
      | none => exact ⟨_, rfl, by rw [hdata]; rfl⟩
      | some p => exact ⟨_, rfl, rfl⟩
    have hcomplete := gives_onNode (fun tell => Node.complete tell epoch id payload)
      (fun _ v => v = (w.view m.node).completed epoch id (Outcome.decode payload).toOption)
      (hscript _ List.mem_cons_self) (gives_complete_view _ (hphase _ List.mem_cons_self))
    rw [hreceived] at hcomplete
    unfold deliver
    apply gives_group
    rw [hpayload]
    refine hcomplete.bind ?_
    rintro _ w₁ ⟨hgroup, hothers, hself⟩
    -- The later members stand for other nodes, which this delivery does not reach.
    have hsame : ∀ e ∈ rest, w₁.view e.2.node = w.view e.2.node := fun e he => hothers _ (hne e he)
    have hphase₁ : ∀ e ∈ rest,
        (w₁.view e.2.node).phase = .joining ∨ (w₁.view e.2.node).phase = .leading := by
      intro e he
      rw [hsame e he]
      exact hphase e (List.mem_cons_of_mem _ he)
    have hscript₁ : ∀ e ∈ rest, (w₁.view e.2.node).script = {} := by
      intro e he
      rw [hsame e he]
      exact hscript e (List.mem_cons_of_mem _ he)
    apply (ih honce.2 hphase₁ hscript₁ fun e he => hsent e (List.mem_cons_of_mem _ he)).mono
    rintro _ w' ⟨hgroup', hothers', hrest'⟩
    refine ⟨hgroup'.trans hgroup, ?_, ?_⟩
    · intro j hj
      simp only [List.map_cons, List.mem_cons, not_or] at hj
      rw [hothers' j hj.2, hothers j hj.1]
    · intro e he
      rcases List.mem_cons.mp he with rfl | he
      · rw [hothers' _ honce.1, hself]
      · rw [hrest' e he, hsame e he, World.received, World.received, hgroup]

end loops

structure Rounded (w : World ι) (l : MemberId) (round : Round) (w' : World ι) : Prop where
  epoch : round.epoch = w.group.epoch + 1
  leader : round.leader = l
  members : round.members = w.group.members.keys
  delivered : round.delivered = true
  group : w'.group = { w.group with epoch := round.epoch, rounds := w.group.rounds ++ [round] }
  view : ∀ e ∈ w.group.members.entries, w'.view e.2.node =
    (w.view e.2.node).revoked.completed round.epoch e.1 (w.received (w.outcome l) e.1)
  others : ∀ i, i ∉ w.group.members.values.map Handler.node → w'.view i = w.view i

section submissions

variable {w : World ι}

omit [DecidableEq ι]

theorem entries_submissions (w : World ι) :
    w.submissions.entries = w.group.members.entries.map w.submission := by
  apply Roster.entries_ofList
  rw [List.map_map]
  exact w.group.members.nodup

theorem keys_submissions (w : World ι) : w.submissions.keys = w.group.members.keys := by
  rw [Roster.keys, entries_submissions, List.map_map]
  rfl

theorem Fit.writable_of_mem (h : Fit w) {e : MemberId × Handler ι} (he : e ∈ w.group.members.entries) :
    (w.nodes e.2.node).node.config.Writable :=
  h.writable _ (List.mem_map.mpr ⟨e, he, rfl⟩)

theorem Fit.exists_encode (h : Fit w) (l : MemberId) : ∃ data, (w.outcome l).encode = .ok data := by
  apply Node.encode_elected_readable
  intro id i helected
  obtain ⟨p, hp, _⟩ := (Node.get?_readable _ id i).mp (Election.get?_of_elected helected)
  apply h.named
  rw [← keys_submissions]
  exact Roster.mem_keys_of_get? hp

end submissions

structure Ready (w w' : World ι) : Prop where
  group : w'.group = { w.group with epoch := w.group.epoch + 1 }
  rest : AtRest w'
  view : ∀ e ∈ w.group.members.entries, w'.view e.2.node = (w.view e.2.node).revoked
  others : ∀ i, i ∉ w.group.members.entries.map (·.2.node) → w'.view i = w.view i

structure Led (w w' : World ι) : Prop where
  group : w'.group = { w.group with epoch := w.group.epoch + 1 }
  phase : ∀ e ∈ w.group.members.entries,
    (w'.view e.2.node).phase = .joining ∨ (w'.view e.2.node).phase = .leading
  script : ∀ e ∈ w.group.members.entries, (w'.view e.2.node).script = {}
  completed : ∀ e ∈ w.group.members.entries, ∀ epoch id taken,
    (w'.view e.2.node).completed epoch id taken = (w.view e.2.node).revoked.completed epoch id taken
  others : ∀ i, i ∉ w.group.members.entries.map (·.2.node) → w'.view i = w.view i

namespace Ready

variable {w w' w'' : World ι} {e : MemberId × Handler ι}

theorem of_revoked (hrest : AtRest w) (hgroup : w'.group = { w.group with epoch := w.group.epoch + 1 })
    (hview : ∀ i, w'.view i =
      if i ∈ w.group.members.entries.map (·.2.node) then (w.view i).revoked else w.view i) :
    Ready w w' := by
  refine ⟨hgroup, ?_, ?_, ?_⟩
  · intro i
    rw [hview]
    split
    · exact (hrest i).revoked
    · exact hrest i
  · intro e he
    rw [hview, if_pos (List.mem_map.mpr ⟨e, he, rfl⟩)]
  · intro i hi
    rw [hview, if_neg hi]

theorem config (h : Ready w w') (he : e ∈ w.group.members.entries) :
    (w'.nodes e.2.node).node.config = (w.nodes e.2.node).node.config :=
  congrArg View.config (h.view e he)

theorem submission (h : Ready w w') (hfit : Fit w) (he : e ∈ w.group.members.entries) :
    w'.submission e = w.submission e :=
  submission_congr (hfit.writable_of_mem he) (by rw [h.group]) (h.config he)

theorem writable (h : Ready w w') (hfit : Fit w) (he : e ∈ w.group.members.entries) :
    (w'.nodes e.2.node).node.config.Writable := by
  rw [h.config he]
  exact hfit.writable_of_mem he

theorem joining (h : Ready w w') (he : e ∈ w.group.members.entries) :
    (w'.view e.2.node).phase = .joining := by
  rw [h.view e he]
  rfl

theorem congr (h : Ready w w') (hgroup : w''.group = w'.group) (hview : w''.view = w'.view) :
    Ready w w'' := by
  refine ⟨hgroup.trans h.group, ?_, ?_, ?_⟩
  · intro i
    rw [hview]
    exact h.rest i
  · intro e he
    rw [hview]
    exact h.view e he
  · intro i hi
    rw [hview]
    exact h.others i hi

theorem led (h : Ready w w') {i : ι} (hi : i ∈ w.group.members.entries.map (·.2.node))
    (hgroup : w''.group = w'.group) (hothers : ∀ j, j ≠ i → w''.view j = w'.view j)
    (hself : w''.view i = (w'.view i).leading) : Led w w'' := by
  refine ⟨hgroup.trans h.group, ?_, ?_, ?_, ?_⟩
  · intro e he
    by_cases hnode : e.2.node = i
    · rw [hnode, hself]
      exact .inr rfl
    · rw [hothers _ hnode]
      exact .inl (h.joining he)
  · intro e he
    by_cases hnode : e.2.node = i
    · rw [hnode, hself]
      exact (h.rest i).script
    · rw [hothers _ hnode]
      exact (h.rest _).script
  · intro e he epoch id taken
    rw [← h.view e he]
    by_cases hnode : e.2.node = i
    · rw [hnode, hself, View.completed_leading]
    · rw [hothers _ hnode]
  · intro j hj
    have hne : j ≠ i := fun heq => hj (heq ▸ hi)
    rw [hothers j hne]
    exact h.others j hj

end Ready

theorem gives_rebalance {w : World ι} (hrest : AtRest w) (hfit : Fit w) {asked : Value} {l : MemberId}
    {chosen : Handler ι} (hleader : leaderOf w.group asked = .ok (l, chosen)) :
    Gives (rebalance asked false) w fun round w' => Rounded w l round w' := by
  have hchosen := mem_of_leaderOf hleader
  obtain ⟨data, hencode⟩ := hfit.exists_encode l
  have hdata : Outcome.decode (.bytes data) = .ok (w.outcome l) := Outcome.decode_eq_ok_iff.mpr hencode
  have hsent : ∀ e ∈ w.group.members.entries,
      (w.submissions.map fun _ => data).get? e.1 = some data := by
    intro e he
    rw [Roster.get?_map_const, keys_submissions]
    exact ⟨List.mem_map.mpr ⟨e, he, rfl⟩, rfl⟩
  unfold rebalance
  apply gives_group
  rw [hleader]
  apply gives_group
  refine (gives_revokeAll_view hrest).bind ?_
  rintro _ w₁ ⟨hgroup₁, hview₁⟩
  refine (gives_update _ _).bind ?_
  rintro _ w₂ ⟨hgroup₂, hview₂⟩
  have hready : Ready w w₂ := by
    refine .of_revoked hrest (by rw [hgroup₂, hgroup₁]) fun i => ?_
    rw [hview₂, hview₁]
  have hepoch : w₂.group.epoch = w.group.epoch + 1 := by rw [hready.group]
  apply gives_group
  refine (gives_gather hready.rest fun e => hready.writable hfit).bind ?_
  rintro submitted w₃ ⟨hsubmitted, hgroup₃, hview₃⟩
  have hready₃ := hready.congr hgroup₃ hview₃
  have hmetadata : Roster.ofList submitted = w.submissions := by
    rw [hsubmitted, List.map_congr_left fun e => hready.submission hfit]
    rfl
  rw [hmetadata]
  refine (gives_assign (hready₃.rest _).script (hready₃.joining hchosen) hencode).bind ?_
  rintro _ w₄ ⟨rfl, hgroup₄, hothers₄, hself₄⟩
  have hled := hready₃.led (List.mem_map.mpr ⟨_, hchosen, rfl⟩) hgroup₄ hothers₄ hself₄
  have hwhole : chosen.withheld = [] := hfit.whole _ (List.mem_map.mpr ⟨_, hchosen, rfl⟩)
  have hcontains : ∀ e ∈ w.group.members.entries,
      (w.submissions.map fun _ => data).contains e.1 = true := by
    intro e he
    rw [Roster.contains, hsent e he, Option.isSome_some]
  rw [hwhole, Roster.without_nil]
  dsimp only
  rw [Roster.none_missing_iff.mpr hcontains]
  have hnodes : w.group.members.values.map Handler.node = w.group.members.entries.map (·.2.node) :=
    List.map_map
  have honce : (w.group.members.entries.map (·.2.node)).Nodup := hnodes ▸ hfit.once
  refine (gives_deliver honce hled.phase hled.script hsent hdata).bind ?_
  rintro _ w₅ ⟨hgroup₅, hothers₅, hview₅⟩
  refine (gives_update _ _).bind ?_
  rintro _ w₆ ⟨hgroup₆, hview₆⟩
  refine (gives_log _ _).bind ?_
  rintro _ w₇ ⟨hgroup₇, hview₇⟩
  apply gives_pure
  refine ⟨hepoch, rfl, rfl, rfl, ?_, ?_, ?_⟩
  · rw [hgroup₇, hgroup₆, hgroup₅, hled.group, hepoch]
  · intro e he
    rw [hview₇, hview₆, hview₅ e he, hled.completed e he, World.received, World.received, hled.group]
  · intro i hi
    rw [hnodes] at hi
    rw [hview₇, hview₆, hothers₅ i hi, hled.others i hi]

theorem told_view (w : World ι) (i : ι) : (w.view i).told = told i w.trace := by
  simp [World.view, Run.view, notices]

namespace Rounded

variable {w w' : World ι} {l : MemberId} {round : Round} {e : MemberId × Handler ι} {o : Outcome}

theorem holds (h : Rounded w l round w') (he : e ∈ w.group.members.entries)
    (hreceived : w.received (w.outcome l) e.1 = some o)
    (hlater : (w.nodes e.2.node).node.epoch < round.epoch) :
    (w'.nodes e.2.node).node.Holds ⟨round.epoch, e.1, o⟩ := by
  have hepoch : (w.view e.2.node).revoked.epoch = (w.nodes e.2.node).node.epoch := rfl
  have hview := h.view e he
  simp only [hreceived, View.completed, hepoch, hlater, if_true] at hview
  exact ⟨congrArg View.phase hview, congrArg View.accepted hview, congrArg View.rejoinNeeded hview⟩

theorem waits_unread (h : Rounded w l round w') (he : e ∈ w.group.members.entries)
    (hreceived : w.received (w.outcome l) e.1 = none) :
    (w.nodes e.2.node).node.Waits (w'.nodes e.2.node).node := by
  have hview := h.view e he
  simp only [hreceived, View.completed] at hview
  exact ⟨congrArg View.phase hview, congrArg View.accepted hview, congrArg View.rejoinNeeded hview⟩

theorem waits_stale (h : Rounded w l round w') (he : e ∈ w.group.members.entries)
    (hstale : round.epoch ≤ (w.nodes e.2.node).node.epoch) :
    (w.nodes e.2.node).node.Waits (w'.nodes e.2.node).node := by
  cases hreceived : w.received (w.outcome l) e.1 with
  | none => exact h.waits_unread he hreceived
  | some o =>
    have hepoch : (w.view e.2.node).revoked.epoch = (w.nodes e.2.node).node.epoch := rfl
    have hview := h.view e he
    simp only [hreceived, View.completed, hepoch, Int.not_lt.mpr hstale, if_false] at hview
    exact ⟨congrArg View.phase hview, congrArg View.accepted hview, congrArg View.rejoinNeeded hview⟩

theorem told (h : Rounded w l round w') (he : e ∈ w.group.members.entries)
    (hlater : (w.nodes e.2.node).node.epoch < round.epoch) :
    Group.told e.2.node w'.trace = Group.told e.2.node w.trace ++
      (if (w.nodes e.2.node).node.phase = .active then [.revoked] else []) ++
      ((w.received (w.outcome l) e.1).map fun o => Notice.assigned o round.epoch).toList := by
  have hrevoked : (w.view e.2.node).revoked.told = Group.told e.2.node w.trace ++
      if (w.nodes e.2.node).node.phase = .active then [.revoked] else [] := by
    rw [← told_view]
    rfl
  have hepoch : (w.view e.2.node).revoked.epoch = (w.nodes e.2.node).node.epoch := rfl
  rw [← told_view w', h.view e he, ← hrevoked]
  cases w.received (w.outcome l) e.1 with
  | none => simp [View.completed]
  | some o => simp [View.completed, hepoch, hlater]

end Rounded

def trio : World (Fin 3) :=
  ⟨{ groupId := .text "g" },
    fun i => .start ⟨{ host := .text (toString i.val), port := .int 1 }, .http⟩ {}, []⟩

def joinedTrio : World (Fin 3) :=
  [.join ⟨0, []⟩ (some "a"), .join ⟨1, []⟩ (some "b"), .join ⟨2, []⟩ (some "c"), .rebalance .null false,
    .rebalance (.text "c") true].foldl (fun w op => left (operate op) w) trio

def staleTrio : World (Fin 3) :=
  [.call 2 (.complete 3 "z" (.payload (.bytes [0, 0, 0, 0, 0, 0]))), .join ⟨0, []⟩ (some "a"),
    .join ⟨1, []⟩ (some "b"), .join ⟨2, []⟩ (some "c"), .rebalance .null true].foldl
      (fun w op => left (operate op) w) trio

end Group

end PrimaryElection
