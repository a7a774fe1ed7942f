import PrimaryElection.Proofs.Codec
import PrimaryElection.Proofs.Resting
import PrimaryElection.Proofs.Rosters

namespace PrimaryElection

open Wire

theorem Election.get?_of_elected {round : Roster Identity} {leader : Option MemberId} {id : MemberId}
    {i : Identity} (h : elect round leader = .elected id i) : round.get? id = some i := by
  unfold elect at h
  split at h
  · cases h
  · split at h
    · rename_i id' i' hchosen
      obtain ⟨chosen, _, hget⟩ := Option.bind_eq_some_iff.mp hchosen
      obtain ⟨found, hfound, hpair⟩ := Option.map_eq_some_iff.mp hget
      cases hpair
      cases h
      exact hfound
    · cases h

theorem Identity.host_le_of_decode {p : Payload} {i : Identity} (h : decode p = .ok i) :
    (utf8 i.host).length ≤ maxText := by
  cases p with
  | foreign value => cases h
  | bytes data =>
    have hencode := decode_eq_ok_iff.mp h
    rw [encode_eq] at hencode
    split at hencode
    · cases hencode
    · omega

namespace Node

theorem get?_readable (members : Roster Payload) (id : MemberId) (i : Identity) :
    (readable members).get? id = some i ↔
      ∃ p, members.get? id = some p ∧ Identity.decode p = .ok i := by
  unfold readable
  rw [Roster.get?_filterMap]
  simp only [toOption_eq_some_iff]

theorem encode_elected_readable {members : Roster Payload} {leader : Option MemberId}
    (h : ∀ id i, Election.elect (readable members) leader = .elected id i → id.Writable) :
    ∃ bytes, (Election.elect (readable members) leader).encode = .ok bytes := by
  apply Outcome.exists_encode
  intro id i helected
  obtain ⟨p, _, hdecode⟩ := (get?_readable members id i).mp (Election.get?_of_elected helected)
  exact ⟨h id i helected, Identity.host_le_of_decode hdecode⟩

theorem isPrimary_of_accepted {n : Node} {a : Acceptance} (hactive : n.phase = .active)
    (haccepted : n.accepted = some a) :
    n.isPrimary = some (decide (a.outcome.primaryId? = some a.memberId)) := by
  have hprimary : a.outcome.isPrimary (some a.memberId) =
      decide (a.outcome.primaryId? = some a.memberId) := by
    unfold Outcome.isPrimary
    by_cases hid : a.outcome.primaryId? = some a.memberId <;> simp [hid]
  rw [Node.isPrimary, if_pos hactive, Node.outcome, Node.memberId, haccepted]
  exact congrArg some hprimary

end Node

namespace Session

theorem result_compute {s : Session} {epoch : Int} {leader : Value} {members : Roster Payload}
    (hrests : s.node.phase.Rests) (hfree : s.node.phase ≠ .active) :
    (s.run fun _ => Node.compute epoch leader members).result =
      ((Election.elect (Node.readable members) leader.text?).encode.map
        fun bytes => members.map fun _ => bytes).mapError .unwritable := by
  rw [run_eq_runAs]
  exact (runAs_of_after (fun _ => Node.compute epoch leader members)
    (Node.after_compute (r := ⟨s, []⟩) hfree hrests.not_revoking)).1

structure TakesIn (l : Conduct) (a : Acceptance) (ended : Ended Unit) : Prop where
  told : (notices ended.events).head? = some (.assigned a.outcome a.epoch)
  returns : l.Only Patient → ended.result = .ok ()
  active : ended.result = .ok () → ended.session.node.phase = .active
  accepted : ended.result = .ok () → ended.session.node.accepted = some a
  primary : ended.result = .ok () →
    ended.session.node.isPrimary = some (decide (a.outcome.primaryId? = some a.memberId))

theorem takesIn_of_decode {t : Session} {epoch : Int} {m : MemberId} {data : Payload} {o : Outcome}
    (hrests : t.node.phase.Rests) (hfree : t.node.phase ≠ .active)
    (hdata : Outcome.decode data = .ok o) (hlater : t.node.epoch < epoch) (l : Conduct) :
    TakesIn l ⟨epoch, m, o⟩ (t.runAs l fun tell => Node.complete tell epoch m data) := by
  have hphase := hrests.eq_of_ne_active hfree
  obtain ⟨hstands, _, _, _, rest, hrest⟩ :=
    runAs_of_after (fun tell => Node.complete tell epoch m data)
      (after_complete_kept (r := ⟨t, []⟩) l.conserves hphase hdata hlater)
  refine ⟨?_, ?_, fun h => (hstands h).1, fun h => (hstands h).2, ?_⟩
  · dsimp only at hrest
    rw [← hrest]
    rfl
  · intro hl
    exact (runAs_of_after (fun tell => Node.complete tell epoch m data)
      (after_complete_heeded (r := ⟨t, []⟩) (Conduct.heeds hl) trivial hphase hdata hlater)).1
  · intro h
    obtain ⟨hactive, haccepted⟩ := hstands h
    dsimp only at hactive haccepted
    exact Node.isPrimary_of_accepted hactive haccepted

/--
A leader at rest fails if it elects an id that has no encoding, or one that is too long, and otherwise sends
to every member one payload, which reads back as the outcome of the election among the readable members.
-/
theorem Course.broadcast_exact {config : Config} {script : Script} {s : Session} {events : List Event}
    (hs : Course (fun _ _ => True) (.start config script) s events) (hfree : s.node.phase ≠ .active)
    (epoch : Int) (leader : Value) (members : Roster Payload) :
    let round := Node.readable members
    let outcome := Election.elect round leader.text?
    let computed := (s.run fun _ => Node.compute epoch leader members).result
    (∀ id i, round.get? id = some i ↔ ∃ p, members.get? id = some p ∧ Identity.decode p = .ok i) ∧
    (∀ id i, outcome = .elected id i → utf8? id = none → computed = .error (.unwritable (.noEncoding id))) ∧
    (∀ id i text, outcome = .elected id i → utf8? id = some text → 32767 < text.length →
      computed = .error (.unwritable (.textTooLong text.length))) ∧
    ((∀ id i, outcome = .elected id i → ∃ text, utf8? id = some text ∧ text.length ≤ 32767) →
      ∃ (assignments : Roster Bytes) (data : Bytes), computed = .ok assignments ∧
        assignments.keys = members.keys ∧ (∀ m ∈ members.keys, assignments.get? m = some data) ∧
        Outcome.decode (.bytes data) = .ok outcome ∧
        ∀ m ∈ members.keys, ∀ (config' : Config) (script' : Script) (t : Session) (events' : List Event),
          Course (fun _ _ => True) (.start config' script') t events' → t.node.phase ≠ .active →
          t.node.epoch < epoch → ∀ l : Conduct,
            TakesIn l ⟨epoch, m, outcome⟩
              (t.runAs l fun tell => Node.complete tell epoch m (.bytes data))) := by
  intro round outcome computed
  have hcomputed : computed =
      (outcome.encode.map fun bytes => members.map fun _ => bytes).mapError .unwritable :=
    result_compute hs.rests hfree
  refine ⟨Node.get?_readable members, ?_, ?_, ?_⟩
  · intro id i helected hnone
    rw [hcomputed, helected, Outcome.encode_of_no_encoding hnone]
    rfl
  · intro id i text helected htext hlong
    rw [hcomputed, helected, Outcome.encode_of_long_id htext hlong]
    rfl
  · intro hshort
    obtain ⟨data, hdata⟩ : ∃ data, outcome.encode = .ok data := Node.encode_elected_readable hshort
    have hdecode : Outcome.decode (.bytes data) = .ok outcome := Outcome.decode_eq_ok_iff.mpr hdata
    refine ⟨members.map fun _ => data, data, ?_, members.keys_map _, ?_, hdecode, ?_⟩
    · rw [hcomputed, hdata]
      rfl
    · intro m hm
      exact (members.get?_map_const data m data).mpr ⟨hm, rfl⟩
    · intro m _ config' script' t events' ht htfree hlater l
      exact takesIn_of_decode ht.rests htfree hdecode hlater l

def halfReadable : Roster Payload :=
  .ofList [("a", .bytes [0, 0, 0, 1, 104, 0, 0, 0, 1, 1]), ("b", .foreign .null)]

def readableIdentity : Identity := { host := "h", port := 1, eligible := true }

theorem elect_halfReadable :
    Election.elect (Node.readable halfReadable) (Value.text "b").text? =
      .elected "a" readableIdentity := by
  decide +kernel

theorem Course.broadcast_exact_halfReadable :
    Course (fun _ _ => True) (.start default {}) (.start default {}) [] ∧
    (Session.start default {}).node.phase ≠ .active ∧
    ∃ (assignments : Roster Bytes) (data : Bytes),
      ((Session.start default {}).run fun _ => Node.compute 1 (.text "b") halfReadable).result =
        .ok assignments ∧ assignments.keys = [Text.ofString "a", Text.ofString "b"] ∧
      assignments.get? "b" = some data ∧
      TakesIn .silent ⟨1, "b", .elected "a" readableIdentity⟩
        ((Session.start default {}).runAs .silent fun tell => Node.complete tell 1 "b" (.bytes data)) := by
  have hbegin : Course (fun _ _ => True) (.start default {}) (.start default {}) [] := .begin
  have hfree : (Session.start default {}).node.phase ≠ .active := by decide
  have hsent := Course.broadcast_exact hbegin hfree 1 (.text "b") halfReadable
  dsimp only at hsent
  rw [elect_halfReadable] at hsent
  have hwritable : ∀ id i, Outcome.elected "a" readableIdentity = .elected id i → id.Writable := by
    intro id i h
    cases h
    decide +kernel
  obtain ⟨assignments, data, hok, hkeys, hall, _, htaken⟩ := hsent.2.2.2 hwritable
  have hmem : (Text.ofString "b") ∈ halfReadable.keys := by decide +kernel
  have htake := htaken "b" hmem default {} _ [] .begin hfree (by decide) .silent
  exact ⟨hbegin, hfree, assignments, data, hok, hkeys, hall "b" hmem, htake⟩

def oddlyNamed : Roster Payload :=
  .ofList [(⟨[.surrogate 0]⟩, .bytes [0, 0, 0, 1, 104, 0, 0, 0, 1, 1])]

theorem Course.broadcast_fails_oddlyNamed :
    Course (fun _ _ => True) (.start default {}) (.start default {}) [] ∧
    (Session.start default {}).node.phase ≠ .active ∧
    ∃ id i, Election.elect (Node.readable oddlyNamed) none = .elected id i ∧
      (¬ ∃ text, utf8? id = some text ∧ 32767 < text.length) ∧
      ((Session.start default {}).run fun _ => Node.compute 1 .null oddlyNamed).result =
        .error (.unwritable (.noEncoding id)) := by
  have hfree : (Session.start default {}).node.phase ≠ .active := by decide
  have helected : Election.elect (Node.readable oddlyNamed) (Value.text? .null) =
      .elected ⟨[.surrogate 0]⟩ readableIdentity := by decide +kernel
  have hnone : utf8? ⟨[.surrogate 0]⟩ = none := rfl
  refine ⟨.begin, hfree, _, _, helected, ?_, ?_⟩
  · rintro ⟨text, htext, _⟩
    rw [hnone] at htext
    cases htext
  · rw [result_compute (Or.inl rfl) hfree, helected, Outcome.encode_of_no_encoding hnone]
    rfl

end Session

end PrimaryElection
