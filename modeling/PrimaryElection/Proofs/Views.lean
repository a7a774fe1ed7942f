import PrimaryElection.Proofs.Settled
import PrimaryElection.Proofs.Worlds

namespace PrimaryElection

open HookM

structure View where
  config : Config
  phase : Phase
  accepted : Option Acceptance
  rejoinNeeded : Bool
  script : Script
  told : List Notice

namespace View

def epoch (v : View) : Int := (v.accepted.map Acceptance.epoch).getD noEpoch

def revoked (v : View) : View :=
  { v with
    phase := .joining
    rejoinNeeded := true
    told := v.told ++ if v.phase = .active then [.revoked] else [] }

def leading (v : View) : View := { v with phase := .leading }

def completed (epoch : Int) (memberId : MemberId) (taken : Option Outcome) (v : View) : View :=
  match taken with
  | none => { v with phase := .joining, rejoinNeeded := true }
  | some o =>
    if v.epoch < epoch then
      { v with
        phase := .active
        accepted := some ⟨epoch, memberId, o⟩
        rejoinNeeded := false
        told := v.told ++ [.assigned o epoch] }
    else { v with phase := .joining, rejoinNeeded := true }

theorem revoked_revoked (v : View) : v.revoked.revoked = v.revoked := by
  simp [revoked]

theorem completed_leading (epoch : Int) (memberId : MemberId) (taken : Option Outcome) (v : View) :
    v.leading.completed epoch memberId taken = v.completed epoch memberId taken := by
  cases taken <;> rfl

structure Calm (v : View) : Prop where
  rests : v.phase.Rests
  rejoin : v.phase ≠ .active → v.rejoinNeeded = true
  script : v.script = {}

theorem Calm.completed {v : View} (h : v.Calm) (epoch : Int) (memberId : MemberId)
    (taken : Option Outcome) : (v.completed epoch memberId taken).Calm := by
  cases taken with
  | none => exact ⟨.inl rfl, fun _ => rfl, h.script⟩
  | some o =>
    unfold View.completed
    dsimp only
    split
    · exact ⟨.inr (.inr rfl), fun hfree => (hfree rfl).elim, h.script⟩
    · exact ⟨.inl rfl, fun _ => rfl, h.script⟩

theorem Calm.revoked {v : View} (h : v.Calm) : v.revoked.Calm := ⟨.inl rfl, fun _ => rfl, h.script⟩

end View

def Run.view (before : List Notice) (r : Run) : View where
  config := r.node.config
  phase := r.node.phase
  accepted := r.node.accepted
  rejoinNeeded := r.node.rejoinNeeded
  script := r.listener.script
  told := before ++ notices r.trace

theorem heeds_hear (own : Script → Prop) : Heeds own hear := by
  intro notice r hown _
  refine (gives_hear notice r).after ?_
  rintro _ s ⟨_, hscript, hs⟩
  exact ⟨hs, by rw [hscript]; exact hown⟩

theorem react_silent {notice : Notice} {r : Run} (h : r.listener.script = {}) (depth : Nat) :
    react depth notice r = hear notice r := by
  cases depth with
  | zero => rfl
  | succ depth =>
    obtain ⟨⟨node, ⟨heard, script⟩, broadcast⟩, trace⟩ := r
    cases h
    cases notice <;> rfl

theorem heeds_react_silent (depth : Nat) : Heeds (· = {}) (react depth) := by
  intro notice r hown hphase
  unfold After
  rw [react_silent hown]
  exact heeds_hear (· = {}) notice r hown hphase

section hooks

variable (before : List Notice) {r : Run}

theorem gives_revoke_view (hrests : r.node.phase.Rests) :
    Gives (Node.revoke hear) r fun _ r' => r'.view before = (r.view before).revoked := by
  by_cases hactive : r.node.phase = .active
  · let own : Script → Prop := (· = r.listener.script)
    have hheeds : Heeds own hear := heeds_hear own
    have hown : own r.listener.script := rfl
    apply gives_of_after (a := ())
    apply (after_revoke_heeded (hheeds .revoked) hown hactive).mono
    rintro _ s ⟨hresult, hscript, hs, _, hn, _⟩
    have hkept : s.listener.script = r.listener.script := hscript
    refine ⟨hresult, ?_⟩
    simp only [Run.view, View.revoked, hkept, hs, hn, hactive, if_true, List.append_assoc]
  · apply gives_of_after (a := ())
    apply (Node.after_revoke_idle (hrests.eq_of_ne_active hactive)).mono
    rintro _ s ⟨hresult, hs, hq⟩
    refine ⟨hresult, ?_⟩
    simp only [Run.view, View.revoked, hq.listener, hs, hq.notices, hactive, if_false, List.append_nil]

theorem gives_metadata_view {i : Identity} {bytes : Bytes} (hidentity : r.node.config.identity = .ok i)
    (hencode : i.encode = .ok bytes) :
    Gives Node.metadata r fun submitted r' => submitted = bytes ∧ r'.view before = r.view before := by
  have hrun : Node.metadata r = .ok bytes { r with trace := r.trace ++ [.logged (.submitting i)] } := by
    rw [Node.metadata_eq hidentity, hencode]
    rfl
  exact ⟨bytes, _, hrun, rfl, by simp [Run.view, notices]⟩

theorem gives_compute_view {epoch : Int} {leader : Value} {members : Roster Payload} {bytes : Bytes}
    (hjoining : r.node.phase = .joining)
    (hencode : (Election.elect (Node.readable members) leader.text?).encode = .ok bytes) :
    Gives (Node.compute epoch leader members) r fun computed r' =>
      computed = members.map (fun _ => bytes) ∧ r'.view before = (r.view before).leading := by
  have hcompute : After (Node.compute epoch leader members) r fun result r' =>
      result = .ok (members.map fun _ => bytes) ∧ r'.view before = (r.view before).leading := by
    apply (Node.after_compute (by rw [hjoining]; decide) (by rw [hjoining]; decide)).mono
    rintro result s ⟨hresult, hs, hq⟩
    rw [hencode] at hresult
    refine ⟨hresult, ?_⟩
    simp only [Run.view, View.leading, hq.listener, hq.notices]
    rw [hs]
    simp only [hjoining, Phase.inRound, Bool.or_false]
  unfold After at hcompute
  split at hcompute
  · rename_i computed s hrun
    exact ⟨computed, s, hrun, Except.ok.inj hcompute.1, hcompute.2⟩
  · cases hcompute.1

theorem gives_tellSafely_hear (notice : Notice) (r : Run) :
    Gives (tellSafely hear notice) r fun _ r' => r'.node = r.node ∧
      r'.listener.script = r.listener.script ∧ notices r'.trace = notices r.trace ++ [notice] :=
  ⟨(), _, rfl, rfl, rfl, by simp [notices]⟩

theorem gives_complete_view {epoch : Int} {memberId : MemberId} {data : Payload}
    (hphase : r.node.phase = .joining ∨ r.node.phase = .leading) :
    Gives (Node.complete hear epoch memberId data) r fun _ r' =>
      r'.view before = (r.view before).completed epoch memberId (Outcome.decode data).toOption := by
  apply gives_of_after (a := ())
  have hepoch : (r.view before).epoch = r.node.epoch := rfl
  cases hdata : Outcome.decode data with
  | error e =>
    apply (Node.after_complete_undecodable hphase hdata).mono
    rintro _ s ⟨hresult, hs, hq⟩
    refine ⟨hresult, ?_⟩
    simp only [Run.view, View.completed, Except.toOption, hs, hq.listener, hq.notices]
  | ok o =>
    by_cases hstale : epoch ≤ r.node.epoch
    · apply (Node.after_complete_stale hphase hdata hstale).mono
      rintro _ s ⟨hresult, hs, hq⟩
      refine ⟨hresult, ?_⟩
      simp only [View.completed, Except.toOption, hepoch, Int.not_lt.mpr hstale, if_false]
      simp only [Run.view, hs, hq.listener, hq.notices]
    · have hlater := Int.not_le.mp hstale
      refine Node.after_complete_accepted hphase hdata hlater fun entered he hqe => ?_
      refine (gives_tellSafely_hear _ entered).bind_after ?_
      rintro _ s ⟨hs, hscript, hn⟩
      apply (Node.gives_move (by rw [hs, he]; rfl)).after
      rintro _ t ⟨ht, hqt⟩ closed hclosed hqc
      have hq := hqt.trans hqc
      refine ⟨rfl, ?_⟩
      simp only [View.completed, Except.toOption, hepoch, hlater, if_true]
      simp only [Run.view, hclosed, ht, hs, he, hq.listener, hscript, hqe.listener, hq.notices, hn,
        hqe.notices, List.append_assoc]

end hooks

namespace Group

variable {ι : Type} [DecidableEq ι]

def told (i : ι) (trace : List (Note ι)) : List Notice :=
  trace.filterMap fun
    | .node j (.notified notice) => if j = i then some notice else none
    | _ => none

theorem told_append (i : ι) (l l' : List (Note ι)) : told i (l ++ l') = told i l ++ told i l' :=
  List.filterMap_append

theorem told_events (i j : ι) (events : List Event) :
    told j (events.map (.node i)) = if i = j then notices events else [] := by
  induction events with
  | nil => simp [told, notices]
  | cons e rest ih =>
    unfold told notices at ih
    cases e <;> by_cases hij : i = j <;> simp_all [told, notices]

namespace World

def view (w : World ι) (i : ι) : View := Run.view (told i w.trace) ⟨w.nodes i, []⟩

theorem view_put_self (w : World ι) (i : ι) (r : Run) :
    (w.put i r).view i = r.view (told i w.trace) := by
  have htold : told i (w.put i r).trace = told i w.trace ++ notices r.trace := by
    change told i (w.trace ++ r.trace.map (.node i)) = _
    rw [told_append, told_events, if_pos rfl]
  simp only [view, Run.view, put_self, htold, notices, List.filterMap_nil, List.append_nil]

theorem view_put_other (w : World ι) {i j : ι} (r : Run) (h : j ≠ i) :
    (w.put i r).view j = w.view j := by
  have htold : told j (w.put i r).trace = told j w.trace := by
    change told j (w.trace ++ r.trace.map (.node i)) = _
    rw [told_append, told_events, if_neg (Ne.symm h), List.append_nil]
  simp only [view, Run.view, put_other w i r h, htold]

end World

theorem gives_onNode {α : Type} {i : ι} {w : World ι} (work : (Notice → HookM Unit) → HookM α)
    (P : α → View → Prop) (hscript : (w.view i).script = {})
    (hwork : Gives (work hear) ⟨w.nodes i, []⟩ fun a r => P a (r.view (told i w.trace))) :
    Gives (GroupM.onNode i work) w fun a w' => w'.group = w.group ∧
      (∀ j, j ≠ i → w'.view j = w.view j) ∧ P a (w'.view i) := by
  obtain ⟨a, r, hr, hp⟩ := hwork
  have hsilent : react (w.nodes i).listener.script.size = hear := by
    rw [show (w.nodes i).listener.script = {} from hscript]
    rfl
  refine ⟨a, w.put i r, ?_, rfl, fun j hj => w.view_put_other r hj, ?_⟩
  · simp only [GroupM.onNode, Session.run, hsilent, hr]
    rfl
  · rw [World.view_put_self]
    exact hp

end Group

end PrimaryElection
