import PrimaryElection.Proofs.Conduct
import PrimaryElection.Proofs.Conflicts

namespace PrimaryElection

namespace Roster

variable {α : Type} {r r' : Roster α}

theorem get?_of_perm (h : r'.entries.Perm r.entries) (key : Text) : r'.get? key = r.get? key := by
  ext a
  rw [get?_eq_some_iff, get?_eq_some_iff, h.mem_iff]

theorem perm_filterMap {β : Type} (h : r'.entries.Perm r.entries) (f : α → Option β) :
    (r'.filterMap f).entries.Perm (r.filterMap f).entries :=
  h.filterMap _

end Roster

namespace Election

theorem sortIds_eq_of_perm {ids ids' : List MemberId} (h : ids'.Perm ids) : sortIds ids' = sortIds ids := by
  apply List.Perm.eq_of_pairwise _ (pairwise_sortIds ids') (pairwise_sortIds ids)
  · exact (perm_sortBy _ ids').trans (h.trans (perm_sortBy _ ids).symm)
  · exact fun _ _ _ _ hab hba => Text.le_antisymm hab hba

section rounds

variable {round round' : Roster Identity} (h : round'.entries.Perm round.entries)

include h

theorem claimants_eq_of_perm (a : Address) : claimants round' a = claimants round a :=
  sortIds_eq_of_perm ((h.filter _).map _)

theorem candidates_eq_of_perm : candidates round' = candidates round :=
  sortIds_eq_of_perm ((h.filter _).map _)

theorem conflicts_isEmpty_of_perm : (conflicts round').isEmpty = (conflicts round).isEmpty := by
  have hmem : ∀ c, c ∈ conflicts round' ↔ c ∈ conflicts round := by
    rintro ⟨a, ids⟩
    rw [mem_conflicts, mem_conflicts, claimants_eq_of_perm h]
  rw [Bool.eq_iff_iff, List.isEmpty_iff, List.isEmpty_iff, List.eq_nil_iff_forall_not_mem,
    List.eq_nil_iff_forall_not_mem]
  simp only [hmem]

theorem elect_eq_of_perm (leader : Option MemberId) : elect round' leader = elect round leader := by
  have hget : round'.get? = round.get? := funext (Roster.get?_of_perm h)
  unfold elect choose?
  rw [conflicts_isEmpty_of_perm h, candidates_eq_of_perm h, hget]

theorem get?_conflictReport_of_perm (text : Text) :
    (conflictReport round').get? text = (conflictReport round).get? text := by
  ext ids
  simp only [get?_conflictReport, claimants_eq_of_perm h]

end rounds

end Election

namespace Node

variable {members members' : Roster Payload} (h : members'.entries.Perm members.entries)

include h

theorem perm_readable : (readable members').entries.Perm (readable members).entries :=
  Roster.perm_filterMap h _

theorem countRound_eq_of_perm (m : Metrics.Snapshot) : countRound m members' = countRound m members := by
  have hsize : members'.size = members.size := h.length_eq
  have hexcluded : excluded members' = excluded members := (h.map Prod.snd).countP_eq _
  rw [countRound, countRound, hsize, hexcluded]

end Node

inductive SameAnswer : Except Failure (Roster Bytes) → Except Failure (Roster Bytes) → Prop
  | failed (e : Failure) : SameAnswer (.error e) (.error e)
  | given {payloads payloads' : Roster Bytes} (same : ∀ id, payloads'.get? id = payloads.get? id) :
    SameAnswer (.ok payloads) (.ok payloads')

namespace Session

theorem computed (s : Session) (l : Conduct) (epoch : Int) (leader : Value) (members : Roster Payload) :
    let ended := s.runAs l fun _ => Node.compute epoch leader members
    if s.node.phase = .active ∨ s.node.phase = .revoking then
      ended.result = .error (.transition s.node.phase .leading) ∧ ended.session = s
    else
      ended.result = ((Election.elect (Node.readable members) leader.text?).encode.map
        fun bytes => members.map fun _ => bytes).mapError .unwritable ∧
      ended.session = { s with node := { s.node with
        phase := .leading
        rejoinNeeded := s.node.rejoinNeeded || s.node.phase.inRound
        metrics := Node.countRound s.node.metrics members } } ∧
      reports ended.events = Node.verdicts epoch leader members := by
  intro ended
  split
  · rename_i hrefused
    obtain ⟨hresult, hnode, hq⟩ := runAs_of_after (l := l) (fun _ => Node.compute epoch leader members)
      (Node.after_compute_refused (r := ⟨s, []⟩) hrefused)
    exact ⟨hresult, eq_of_quiet hnode hq⟩
  · rename_i hfree
    obtain ⟨hactive, hrevoking⟩ := not_or.mp hfree
    obtain ⟨⟨hresult, hnode, hq⟩, hreports⟩ :=
      runAs_of_after (l := l) (fun _ => Node.compute epoch leader members)
        ((Node.after_compute (r := ⟨s, []⟩) hactive hrevoking).and
          (Node.after_compute_reports (r := ⟨s, []⟩) hactive hrevoking))
    exact ⟨hresult, eq_with_of_quiet hnode hq, hreports⟩

theorem sameAnswer_of_perm {members members' : Roster Payload} (h : members'.entries.Perm members.entries)
    (written : Except Wire.WriteError Bytes) :
    SameAnswer ((written.map fun bytes => members.map fun _ => bytes).mapError .unwritable)
      ((written.map fun bytes => members'.map fun _ => bytes).mapError .unwritable) := by
  cases written with
  | error e => exact .failed (.unwritable e)
  | ok bytes => exact .given (Roster.get?_of_perm (Roster.perm_filterMap h _))

/--
Whatever state a node is in, the order in which the members of a round come makes no difference to it: it
answers the same, it keeps the same, its measurements included, and the conflicts that it reports are the
same, each with its members in order.
-/
theorem order_irrelevant (s : Session) (l : Conduct) (epoch : Int) (leader : Value)
    {members members' : Roster Payload} (h : members'.entries.Perm members.entries) :
    let ended := s.runAs l fun _ => Node.compute epoch leader members
    let ended' := s.runAs l fun _ => Node.compute epoch leader members'
    SameAnswer ended.result ended'.result ∧ ended'.session = ended.session ∧
    (s.node.phase ≠ .active → s.node.phase ≠ .revoking →
      Election.elect (Node.readable members) leader.text? = .duplicateAddress →
      ∃ report report', reports ended.events = [(epoch, report)] ∧
        reports ended'.events = [(epoch, report')] ∧
        (∀ address, report'.get? address = report.get? address) ∧
        ∀ address ids, report.get? address = some ids → ids.Pairwise (· ≤ ·)) := by
  intro ended ended'
  have hended := s.computed l epoch leader members
  have hended' := s.computed l epoch leader members'
  by_cases hrefused : s.node.phase = .active ∨ s.node.phase = .revoking
  · rw [if_pos hrefused] at hended hended'
    refine ⟨?_, hended'.2.trans hended.2.symm, ?_⟩
    · rw [hended.1, hended'.1]
      exact .failed _
    · intro hactive hrevoking
      exact (hrefused.elim hactive hrevoking).elim
  · rw [if_neg hrefused] at hended hended'
    obtain ⟨hresult, hsession, hreports⟩ := hended
    obtain ⟨hresult', hsession', hreports'⟩ := hended'
    have hreadable := Node.perm_readable h
    rw [Election.elect_eq_of_perm hreadable] at hresult'
    rw [Node.countRound_eq_of_perm h] at hsession'
    refine ⟨?_, hsession'.trans hsession.symm, fun _ _ hfails => ?_⟩
    · rw [hresult, hresult']
      exact sameAnswer_of_perm h _
    · have hfails' := (Election.elect_eq_of_perm hreadable leader.text?).trans hfails
      rw [Node.verdicts, hfails] at hreports
      rw [Node.verdicts, hfails'] at hreports'
      refine ⟨_, _, hreports, hreports', Election.get?_conflictReport_of_perm hreadable, ?_⟩
      intro address ids hids
      obtain ⟨a, _, rfl, _⟩ := Election.get?_conflictReport.mp hids
      exact Election.pairwise_sortIds _

def submissionOf (i : Identity) : Payload := .bytes (i.encode.toOption.getD [])

theorem order_irrelevant_neighbours :
    let near := submissionOf { host := "::1", port := 80, eligible := true }
    let far := submissionOf { host := "::1", port := 81, eligible := false }
    let front : List (MemberId × Payload) := [("b", near), ("d", far), ("x", .bytes [])]
    let back : List (MemberId × Payload) := [("c", far), ("a", near)]
    let members : Roster Payload := ⟨front ++ back, by decide⟩
    let members' : Roster Payload := ⟨back ++ front, by decide⟩
    let ended := (Session.start default {}).runAs .silent fun _ => Node.compute 3 (.text "a") members
    let ended' := (Session.start default {}).runAs .silent fun _ => Node.compute 3 (.text "a") members'
    members'.entries.Perm members.entries ∧
    SameAnswer ended.result ended'.result ∧ ended'.session = ended.session ∧
    ended.session.node.metrics.decodeFailures = 1 ∧
    ∃ report report', reports ended.events = [(3, report)] ∧ reports ended'.events = [(3, report')] ∧
      report.keys = (["::1:80", "::1:81"] : List Text) ∧
      report'.keys = (["::1:81", "::1:80"] : List Text) ∧
      (∀ address, report'.get? address = report.get? address) ∧
      report.get? "::1:80" = some (["a", "b"] : List MemberId) := by
  intro near far front back members members' ended ended'
  have hperm : members'.entries.Perm members.entries := List.perm_append_comm
  obtain ⟨hanswer, hsession, hfails⟩ :=
    (Session.start default {}).order_irrelevant .silent 3 (.text "a") hperm
  obtain ⟨report, report', hreport, hreport', hsame, _⟩ :=
    hfails (by decide) (by decide) (by decide +kernel)
  have hkeys : (reports ended.events).map (fun e => e.2.keys) =
      ([["::1:80", "::1:81"]] : List (List Text)) := by
    decide +kernel
  have hkeys' : (reports ended'.events).map (fun e => e.2.keys) =
      ([["::1:81", "::1:80"]] : List (List Text)) := by
    decide +kernel
  have hmembers : (reports ended.events).map (fun e => e.2.get? "::1:80") =
      ([some ["a", "b"]] : List (Option (List MemberId))) := by
    decide +kernel
  rw [hreport] at hkeys hmembers
  rw [hreport'] at hkeys'
  exact ⟨hperm, hanswer, hsession, by decide +kernel, report, report', hreport, hreport',
    (List.cons.inj hkeys).1, (List.cons.inj hkeys').1, hsame, (List.cons.inj hmembers).1⟩

end Session

end PrimaryElection
