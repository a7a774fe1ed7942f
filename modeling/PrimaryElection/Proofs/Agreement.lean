import PrimaryElection.Proofs.Codec
import PrimaryElection.Proofs.Rosters
import PrimaryElection.Proofs.Worlds

namespace PrimaryElection.Group

variable {ι : Type}

/-- An active node holds the outcome of the last round, under the id of a member that it stands for. -/
def Held (w : World ι) (i : ι) : Prop :=
  (w.nodes i).node.phase = .active → ∃ id o h,
    (w.nodes i).node.accepted = some ⟨w.group.epoch, id, o⟩ ∧ w.group.members.get? id = some h ∧
      h.node = i ∧ .assigned o w.group.epoch ∈ notified w.trace

structure Sound (w : World ι) : Prop where
  rests : ∀ i, (w.nodes i).node.phase.Rests
  patient : ∀ i, (w.nodes i).listener.script.Only Patient
  refused : ∀ id p, w.group.assignmentOverrides.get? id = some p → ∃ e, Outcome.decode p = .error e
  past : ∀ o e, .assigned o e ∈ notified w.trace → e ≤ w.group.epoch
  agree : ∀ o o' e, .assigned o e ∈ notified w.trace → .assigned o' e ∈ notified w.trace → o = o'

structure Agreed (w : World ι) : Prop extends Sound w where
  held : ∀ i, Held w i

def Decided (w : World ι) (o : Outcome) : Prop :=
  ∀ o', .assigned o' w.group.epoch ∈ notified w.trace → o' = o

structure Unassigned (w w' : World ι) : Prop where
  group : w'.group = w.group
  assigned : ∀ o e, .assigned o e ∈ notified w'.trace → .assigned o e ∈ notified w.trace

theorem Unassigned.refl (w : World ι) : Unassigned w w := ⟨rfl, fun _ _ => id⟩

theorem Unassigned.trans {w w' w'' : World ι} (h : Unassigned w w') (h' : Unassigned w' w'') :
    Unassigned w w'' :=
  ⟨h'.group.trans h.group, fun o e hmem => h.assigned o e (h'.assigned o e hmem)⟩

namespace Sound

variable {w : World ι} {g : Group ι}

theorem of_group (h : Sound w) (hepoch : w.group.epoch ≤ g.epoch)
    (hrefused : ∀ id p, g.assignmentOverrides.get? id = some p → ∃ e, Outcome.decode p = .error e) :
    Sound { w with group := g } where
  rests := h.rests
  patient := h.patient
  refused := hrefused
  past := by
    intro o e hmem
    have hpast := h.past o e hmem
    change e ≤ g.epoch
    omega
  agree := h.agree

end Sound

theorem Held.of_group {w : World ι} {g : Group ι} {i : ι} (h : Held w i)
    (hepoch : g.epoch = w.group.epoch)
    (hmembers : ∀ id h, w.group.members.get? id = some h → h.node = i → g.members.get? id = some h) :
    Held { w with group := g } i := by
  intro hactive
  obtain ⟨id, o, m, haccepted, hmember, hnode, htold⟩ := h hactive
  rw [← hepoch] at haccepted htold
  exact ⟨id, o, m, haccepted, hmembers id m hmember hnode, hnode, htold⟩

theorem Agreed.of_group {w : World ι} {g : Group ι} (h : Agreed w) (hepoch : g.epoch = w.group.epoch)
    (hmembers : ∀ id h, w.group.members.get? id = some h → g.members.get? id = some h)
    (hrefused : ∀ id p, g.assignmentOverrides.get? id = some p → ∃ e, Outcome.decode p = .error e) :
    Agreed { w with group := g } where
  toSound := h.toSound.of_group (Int.le_of_eq hepoch.symm) hrefused
  held := fun i => (h.held i).of_group hepoch fun id m hmember _ => hmembers id m hmember

theorem Agreed.log {w : World ι} (h : Agreed w) (groupId : Value) (entry : LogEntry) :
    Agreed { w with trace := w.trace ++ [.logged groupId entry] } := by
  have hnotified : notified (w.trace ++ [.logged groupId entry]) = notified w.trace := by
    simp [notified]
  refine ⟨⟨h.rests, h.patient, h.refused, ?_, ?_⟩, ?_⟩
  · rw [hnotified]
    exact h.past
  · rw [hnotified]
    exact h.agree
  · intro i hactive
    rw [hnotified]
    exact h.held i hactive

section effects

variable [DecidableEq ι] {w : World ι} {i : ι} {r : Run} {may : Acceptance → Prop}

theorem mem_of_effect {n n' : Node} {given : List Notice} (h : Effect may n n' given) {o : Outcome}
    {e : Int} (hmem : .assigned o e ∈ given) :
    ∃ a, may a ∧ given = [.assigned a.outcome a.epoch] ∧ o = a.outcome ∧ e = a.epoch := by
  cases h with
  | silent _ _ _ _ => cases hmem
  | assigned a hallowed _ _ _ _ =>
    have heq := List.mem_singleton.mp hmem
    injection heq with ho he
    exact ⟨a, hallowed, rfl, ho, he⟩
  | revoked _ _ _ _ => cases List.mem_singleton.mp hmem

theorem Sound.put (h : Sound w) (heffective : Effective (Script.Only Patient) may ⟨w.nodes i, []⟩ r)
    (hmay : ∀ a, may a → a.epoch = w.group.epoch ∧ Decided w a.outcome) : Sound (w.put i r) := by
  obtain ⟨hscript, given, heffect, hnotices⟩ := heffective
  have hgiven : notices r.trace = given := hnotices
  constructor
  · intro j
    by_cases hj : j = i
    · subst hj
      rw [World.put_self]
      exact heffect.rests
    · rw [World.put_other w i r hj]
      exact h.rests j
  · intro j
    by_cases hj : j = i
    · subst hj
      rw [World.put_self]
      exact hscript
    · rw [World.put_other w i r hj]
      exact h.patient j
  · exact h.refused
  · intro o e hmem
    rw [World.put_notified, hgiven] at hmem
    rcases List.mem_append.mp hmem with hmem | hmem
    · exact h.past o e hmem
    · obtain ⟨a, hallowed, _, _, he⟩ := mem_of_effect heffect hmem
      have hepoch := (hmay a hallowed).1
      change e ≤ w.group.epoch
      omega
  · intro o o' e hmem hmem'
    rw [World.put_notified, hgiven] at hmem hmem'
    rcases List.mem_append.mp hmem with hmem | hmem
    · rcases List.mem_append.mp hmem' with hmem' | hmem'
      · exact h.agree o o' e hmem hmem'
      · obtain ⟨a, hallowed, _, ho, he⟩ := mem_of_effect heffect hmem'
        obtain ⟨hepoch, hdecided⟩ := hmay a hallowed
        rw [he, hepoch] at hmem
        rw [ho]
        exact hdecided o hmem
    · obtain ⟨a, hallowed, hlist, ho, he⟩ := mem_of_effect heffect hmem
      rcases List.mem_append.mp hmem' with hmem' | hmem'
      · obtain ⟨hepoch, hdecided⟩ := hmay a hallowed
        rw [he, hepoch] at hmem'
        rw [ho]
        exact (hdecided o' hmem').symm
      · rw [hlist] at hmem'
        have heq := List.mem_singleton.mp hmem'
        injection heq with ho' _
        rw [ho, ho']

theorem Held.put_other {j : ι} (hj : j ≠ i) (h : Held w j) : Held (w.put i r) j := by
  intro hactive
  rw [World.put_other w i r hj] at hactive
  obtain ⟨id, o, m, haccepted, hmember, hnode, htold⟩ := h hactive
  refine ⟨id, o, m, ?_, hmember, hnode, ?_⟩
  · rw [World.put_other w i r hj]
    exact haccepted
  · rw [World.put_notified]
    exact List.mem_append_left _ htold

theorem Held.put_self (h : Held w i)
    (heffective : Effective (Script.Only Patient) may ⟨w.nodes i, []⟩ r)
    (hmay : ∀ a, may a → a.epoch = w.group.epoch ∧
      ∃ m, w.group.members.get? a.memberId = some m ∧ m.node = i) : Held (w.put i r) i := by
  obtain ⟨_, given, heffect, hnotices⟩ := heffective
  have hgiven : notices r.trace = given := hnotices
  intro hactive
  rw [World.put_self] at hactive
  cases heffect with
  | silent haccepted _ hphase _ =>
    obtain ⟨id, o, m, haccepted', hmember, hnode, htold⟩ := h (hphase.mp hactive)
    refine ⟨id, o, m, ?_, hmember, hnode, ?_⟩
    · rw [World.put_self]
      exact haccepted.trans haccepted'
    · rw [World.put_notified]
      exact List.mem_append_left _ htold
  | assigned a hallowed _ _ _ haccepted =>
    obtain ⟨hepoch, m, hmember, hnode⟩ := hmay a hallowed
    refine ⟨a.memberId, a.outcome, m, ?_, hmember, hnode, ?_⟩
    · rw [World.put_self, World.put_group, ← hepoch]
      exact haccepted
    · rw [World.put_notified, hgiven, World.put_group, ← hepoch]
      exact List.mem_append_right _ (List.mem_singleton_self _)
  | revoked _ hjoining _ _ =>
    rw [hjoining] at hactive
    cases hactive

theorem Agreed.put (h : Agreed w) (heffective : Effective (Script.Only Patient) may ⟨w.nodes i, []⟩ r)
    (hmay : ∀ a, may a → a.epoch = w.group.epoch ∧ Decided w a.outcome ∧
      ∃ m, w.group.members.get? a.memberId = some m ∧ m.node = i) : Agreed (w.put i r) where
  toSound := h.toSound.put heffective fun a ha => ⟨(hmay a ha).1, (hmay a ha).2.1⟩
  held := by
    intro j
    by_cases hj : j = i
    · subst hj
      exact (h.held j).put_self heffective fun a ha => ⟨(hmay a ha).1, (hmay a ha).2.2⟩
    · exact (h.held j).put_other hj

theorem Unassigned.put (heffective : Effective (Script.Only Patient) (fun _ => False) ⟨w.nodes i, []⟩ r) :
    Unassigned w (w.put i r) := by
  obtain ⟨_, given, heffect, hnotices⟩ := heffective
  have hgiven : notices r.trace = given := hnotices
  refine ⟨rfl, ?_⟩
  intro o e hmem
  rw [World.put_notified, hgiven] at hmem
  rcases List.mem_append.mp hmem with hmem | hmem
  · exact hmem
  · obtain ⟨_, hfalse, _⟩ := mem_of_effect heffect hmem
    exact hfalse.elim

theorem Decided.put {o : Outcome} (h : Decided w o)
    (heffective : Effective (Script.Only Patient) may ⟨w.nodes i, []⟩ r)
    (hmay : ∀ a, may a → a.outcome = o) : Decided (w.put i r) o := by
  obtain ⟨_, given, heffect, hnotices⟩ := heffective
  have hgiven : notices r.trace = given := hnotices
  intro o' hmem
  rw [World.put_notified, hgiven] at hmem
  rcases List.mem_append.mp hmem with hmem | hmem
  · exact h o' hmem
  · obtain ⟨a, hallowed, _, ho, _⟩ := mem_of_effect heffect hmem
    rw [ho]
    exact hmay a hallowed

end effects

end PrimaryElection.Group
