import PrimaryElection.Proofs.Broadcast
import PrimaryElection.Proofs.Halting
import PrimaryElection.Proofs.Turns

namespace PrimaryElection

open Wire

namespace Wire

variable {α β : Type}

/-- Every fault that is found in bytes holds of them, where `P` is given the number of all bytes. -/
def Halt.Sound (q : Halt) (P : Nat → Fault → Prop) : Prop :=
  ∀ fault offset taken left, q fault offset taken left → P (offset + taken.length + left.length) fault

theorem Halt.Sound.of_in {q : Halt} {P : Nat → Fault → Prop} (hq : q.Sound P) {fault : Fault} {offset : Nat}
    {bytes : Bytes} (h : q.In fault offset bytes) : P (offset + bytes.length) fault := by
  obtain ⟨taken, left, hfault, rfl⟩ := h
  rw [List.length_append, ← Nat.add_assoc]
  exact hq fault offset taken left hfault

theorem Halt.Sound.orBehind {q : Halt} {p : α → Bytes → Prop} {next : α → Halt}
    {P : Nat → Fault → Prop} (hq : q.Sound P) (hnext : ∀ a l, p a l → (next a).Sound P) :
    (q.orBehind p next).Sound P := by
  rintro fault offset taken left (h | ⟨a, l, r, hl, rfl, h⟩)
  · exact hq fault offset taken left h
  · rw [List.length_append, ← Nat.add_assoc]
    exact hnext a l hl fault (offset + l.length) r left h

end Wire

def Fault.Framed (size : Nat) : Fault → Prop
  | .truncated _ need offset available => offset + available = size ∧ available < need
  | .badFlag _ v => v ≠ 0 ∧ v ≠ 1
  | .negativeLength _ n => n < 0
  | .notUtf8 _ => True
  | .trailing n => 0 < n ∧ n ≤ size
  | .unsupportedVersion v => v ≠ 0
  | _ => False

namespace Wire

theorem sound_never (P : Nat → Fault → Prop) : never.Sound P := fun _ _ _ _ => False.elim

theorem sound_short (count : Nat) (field : String) : (short count field).Sound Fault.Framed := by
  rintro fault offset _ left ⟨hlt, rfl, rfl⟩
  exact ⟨rfl, hlt⟩

theorem sound_flag (field : String) : (noFlag field).Sound Fault.Framed := by
  refine (sound_short _ _).orBehind fun v _ _ => ?_
  rintro fault offset _ left ⟨hv, rfl, _⟩
  exact hv

theorem sound_sized (w : Width) (field : String) : (noSized w field).Sound Fault.Framed := by
  refine (sound_short _ _).orBehind fun n _ _ => ?_
  rintro fault offset taken left (⟨hn, rfl, _⟩ | ⟨_, hshort⟩)
  · exact hn
  · exact sound_short _ _ fault offset taken left hshort

theorem sound_string (field : String) : (noString field).Sound Fault.Framed := by
  refine (sound_sized .two field).orBehind fun b _ _ => ?_
  rintro fault offset _ left ⟨_, rfl, _⟩
  exact trivial

theorem Halt.Sound.mono {q : Halt} {P P' : Nat → Fault → Prop} (h : q.Sound P)
    (hP : ∀ size fault, P size fault → P' size fault) : q.Sound P' :=
  fun fault offset taken left hq => hP _ _ (h fault offset taken left hq)

theorem Halt.Sound.atEnd {q : Halt} {P : Nat → Fault → Prop}
    (hP : ∀ size fault, Fault.Framed size fault → P size fault) (hq : q.Sound P) : q.atEnd.Sound P := by
  rintro fault offset _ left ⟨rfl, ⟨hne, rfl⟩ | ⟨rfl, h⟩⟩
  · exact hP _ _ ⟨List.length_pos_iff.mpr hne, Nat.le_add_left _ _⟩
  · exact hq fault offset [] [] h

theorem Halt.Sound.versioned {q : Halt} {P : Nat → Fault → Prop}
    (hP : ∀ size fault, Fault.Framed size fault → P size fault) (hq : q.Sound P) :
    (q.versioned 0).Sound P := by
  refine ((sound_short _ _).mono hP).orBehind fun tag _ _ => ?_
  rintro fault offset taken left (⟨htag, rfl, _⟩ | ⟨_, h⟩)
  · exact hP _ _ htag
  · exact hq fault offset taken left h

theorem Halt.Sound.flagged {q : Halt} {P : Nat → Fault → Prop} (field : String)
    (hP : ∀ size fault, Fault.Framed size fault → P size fault) (hq : q.Sound P) :
    (q.flagged field).Sound P := by
  refine ((sound_flag field).mono hP).orBehind fun present _ _ => ?_
  cases present with
  | false => exact sound_never P
  | true => exact hq

end Wire

namespace Identity

def firstBroken? (host : Text) (port : Int) : Option Rule :=
  match host.string? with
  | none => some .hostIsUnicode
  | some s =>
    if s = "" then some .hostNotEmpty
    else if port < 1 then some .portAtLeastOne
    else if 65535 < port then some .portAtMostMax
    else none

theorem firstBroken?_eq_none {host : Text} {port : Int} {eligible : Bool} {i : Identity}
    (h : (Draft.of (.text host) (.int port) (.bool eligible)).check = .ok i) :
    firstBroken? host port = none := by
  obtain ⟨rfl, rfl, _⟩ := check_of_eq_ok_iff.mp h
  have hlow := i.port_pos
  have hhigh := i.port_le
  simp only [firstBroken?, Text.string?_ofString, i.host_ne, if_false]
  rw [if_neg (by omega), if_neg (by omega)]

theorem firstBroken?_eq_some {host : Text} {port : Int} {eligible : Bool} {violations : List Violation}
    (h : (Draft.of (.text host) (.int port) (.bool eligible)).check = .error violations) :
    firstBroken? host port = some (violations.head (ne_nil_of_check h)).rule := by
  have hne := ne_nil_of_check h
  show firstBroken? host port = some (violations.head hne).rule
  simp only [Draft.check, host?_of, port?_of, eligible?_of, checkHost, checkPort, checkEligible] at h
  cases hstring : host.string? with
  | none =>
    simp [hstring, complaints] at h
    subst h
    simp [firstBroken?, hstring]
  | some s =>
    by_cases hhost : s = ""
    · simp [hstring, hhost, complaints] at h
      subst h
      simp [firstBroken?, hstring, hhost]
    · by_cases hlow : 1 ≤ port
      · by_cases hhigh : port ≤ 65535
        · simp [hstring, hhost, hlow, hhigh] at h
        · simp [hstring, hhost, hlow, hhigh, complaints] at h
          subst h
          simp [firstBroken?, hstring, hhost, Int.not_lt.mpr hlow, Int.not_le.mp hhigh]
      · simp [hstring, hhost, hlow, complaints] at h
        subst h
        simp [firstBroken?, hstring, hhost, Int.not_le.mp hlow]

def invalid (host : Text) (port : Int) : Halt := fun fault _ taken _ =>
  (∃ rule, firstBroken? host port = some rule ∧ fault = .invalidIdentity rule) ∧ taken = []

theorem halts_expectValid (host : Text) (port : Int) (eligible : Bool) :
    Halts (expectValid (.of (.text host) (.int port) (.bool eligible))) (invalid host port) := by
  unfold expectValid
  split
  · rename_i i hi
    refine (halts_pure i).congr fun fault _ _ _ => ?_
    simp [never, invalid, firstBroken?_eq_none hi]
  · rename_i violations hviolations
    refine (halts_throw _).congr fun fault _ _ _ => ?_
    simp [always, invalid, firstBroken?_eq_some hviolations]

def blame : Halt :=
  Halt.versioned ((noString "host").orBehind (fun s bytes => (Field.string s).encode = .ok bytes)
    fun host => (short Width.four.size "port").orBehind (intAt .four) fun port =>
      (noFlag "eligible").orBehind (fun b bytes => (Field.flag b).encode = .ok bytes) fun _ =>
        (invalid host port).atEnd) version

theorem halts_read : Halts read blame :=
  .versioned version <| (halts_string "host").bind (reads_string "host") fun host =>
    (halts_int .four "port").bind (reads_int .four "port") fun port =>
      (halts_flag "eligible").bind (reads_flag "eligible") fun eligible =>
        halts_finish_then (halts_expectValid host port eligible)

def Faulty (size : Nat) (fault : Fault) : Prop :=
  fault.Framed size ∨
    ∃ rule ∈ [Rule.hostNotEmpty, .portAtLeastOne, .portAtMostMax], fault = .invalidIdentity rule

theorem sound_blame : blame.Sound Faulty := by
  have hframed : ∀ size fault, Fault.Framed size fault → Faulty size fault := fun _ _ => .inl
  -- what was read of a host came from its encoding, so it is a string
  have hinvalid : ∀ (host : String) (port : Int), (invalid host port).Sound Faulty := by
    rintro host port fault offset taken left ⟨⟨rule, hrule, rfl⟩, _⟩
    refine .inr ⟨rule, ?_, rfl⟩
    simp only [firstBroken?, Text.string?_ofString] at hrule
    split at hrule
    · cases hrule
      simp
    split at hrule
    · cases hrule
      simp
    split at hrule
    · cases hrule
      simp
    · cases hrule
  refine .versioned hframed ?_
  refine ((sound_string "host").mono hframed).orBehind fun host bytes hread => ?_
  obtain ⟨text, htext, _⟩ := encode_string_eq_ok_iff.mp hread
  obtain ⟨s, hs, _⟩ := Option.map_eq_some_iff.mp htext
  obtain rfl := Text.string?_eq_some_iff.mp hs
  refine ((sound_short _ "port").mono hframed).orBehind fun port _ _ => ?_
  refine ((sound_flag "eligible").mono hframed).orBehind fun _ _ _ => ?_
  exact .atEnd hframed (hinvalid s port)

end Identity

namespace Outcome

def unknownStatus (code : Int) : Halt := fun fault _ taken _ =>
  Status.ofCode? code = none ∧ fault = .unknownStatus code ∧ taken = []

theorem halts_expectStatus (code : Int) : Halts (expectStatus code) (unknownStatus code) := by
  unfold expectStatus
  cases hs : Status.ofCode? code with
  | none => exact (halts_throw _).congr fun _ _ _ _ => by simp [always, unknownStatus, hs]
  | some s => exact (halts_pure s).congr fun _ _ _ _ => by simp [never, unknownStatus, hs]

def noIdentity (nested : Bytes) : Halt := fun fault _ taken _ =>
  (∃ e, Identity.decode (.bytes nested) = .error e ∧ fault = .inPrimary e.fault) ∧ taken = []

theorem halts_expectIdentity (nested : Bytes) : Halts (expectIdentity nested) (noIdentity nested) := by
  unfold expectIdentity
  cases hd : Identity.decode (.bytes nested) with
  | ok i => exact (halts_pure i).congr fun _ _ _ _ => by simp [never, noIdentity, hd]
  | error e => exact (halts_throw _).congr fun _ _ _ _ => by simp [always, noIdentity, hd]

def inconsistent (s : Status) (memberId : Option MemberId) (identity : Option Identity) : Halt :=
  fun fault _ taken _ => (∃ e, ofParts s memberId identity = .error e ∧ fault = .inconsistent e) ∧ taken = []

theorem halts_expectConsistent (s : Status) (memberId : Option MemberId) (identity : Option Identity) :
    Halts (expectConsistent s memberId identity) (inconsistent s memberId identity) := by
  unfold expectConsistent
  cases hp : ofParts s memberId identity with
  | ok o => exact (halts_pure o).congr fun _ _ _ _ => by simp [never, inconsistent, hp]
  | error e => exact (halts_throw _).congr fun _ _ _ _ => by simp [always, inconsistent, hp]

def noPrimaryId : Halt := (noString "primary_member_id").flagged "has_primary_member_id"

theorem halts_primaryId : Halts readPrimaryId noPrimaryId :=
  .flagged _ ((halts_string "primary_member_id").bind_pure some (reads_string "primary_member_id"))

def noPrimaryIdentity : Halt :=
  ((noSized .four "primary_identity").orBehind
    (fun nested bytes => (Field.blob nested).encode = .ok bytes) noIdentity).flagged "has_primary_identity"

theorem halts_primaryIdentity : Halts readPrimaryIdentity noPrimaryIdentity :=
  .flagged _ <| (halts_sized .four "primary_identity").bind (reads_blob "primary_identity") fun nested =>
    (halts_expectIdentity nested).bind_pure some (reads_expectIdentity nested)

def blame : Halt :=
  Halt.versioned ((short Width.two.size "status").orBehind (intAt .two) fun code =>
    (unknownStatus code).orBehind (fun s bytes => code = Status.code s ∧ bytes = []) fun s =>
      noPrimaryId.orBehind (fun memberId bytes => encodeAll (idFields memberId) = .ok bytes) fun memberId =>
        noPrimaryIdentity.orBehind (fun identity bytes => encodeIdentity identity = .ok bytes)
          fun identity => (inconsistent s memberId identity).atEnd) version

theorem halts_read : Halts read blame :=
  .versioned version <| (halts_int .two "status").bind (reads_int .two "status") fun code =>
    (halts_expectStatus code).bind (reads_expectStatus code) fun s =>
      halts_primaryId.bind reads_primaryId fun memberId =>
        halts_primaryIdentity.bind reads_primaryIdentity fun identity =>
          halts_finish_then (halts_expectConsistent s memberId identity)

def Faulty (size : Nat) (fault : Fault) : Prop :=
  fault.Framed size ∨ (∃ code, Status.ofCode? code = none ∧ fault = .unknownStatus code) ∨
    (∃ nested e, Identity.decode (.bytes nested) = .error e ∧ fault = .inPrimary e.fault) ∨
    ∃ s memberId identity e, ofParts s memberId identity = .error e ∧ fault = .inconsistent e

theorem sound_blame : blame.Sound Faulty := by
  have hframed : ∀ size fault, Fault.Framed size fault → Faulty size fault := fun _ _ => .inl
  have hnested : ∀ nested, (noIdentity nested).Sound Faulty := by
    rintro nested fault offset taken left ⟨⟨e, he, rfl⟩, _⟩
    exact .inr (.inr (.inl ⟨nested, e, he, rfl⟩))
  refine .versioned hframed ?_
  refine ((sound_short _ "status").mono hframed).orBehind fun code _ _ => ?_
  have hstatus : (unknownStatus code).Sound Faulty := by
    rintro fault offset taken left ⟨hcode, rfl, _⟩
    exact .inr (.inl ⟨code, hcode, rfl⟩)
  refine hstatus.orBehind fun s _ _ => ?_
  refine (Halt.Sound.flagged _ hframed ((sound_string _).mono hframed)).orBehind fun memberId _ _ => ?_
  refine (Halt.Sound.flagged _ hframed
    (((sound_sized _ _).mono hframed).orBehind fun nested _ _ => hnested nested)).orBehind
    fun identity _ _ => ?_
  apply Halt.Sound.atEnd hframed
  rintro fault offset taken left ⟨⟨e, he, rfl⟩, _⟩
  exact .inr (.inr (.inr ⟨s, memberId, identity, e, he, rfl⟩))

/-- Up to the bytes of a nested identity there is no fault, whatever comes behind them. -/
def Carries (data nested : Bytes) : Prop :=
  ∃ (s : Status) (memberId : Option MemberId) (tag code id flag blob rest : Bytes),
    encodeInt .two version = .ok tag ∧ encodeInt .two s.code = .ok code ∧
    encodeAll (idFields memberId) = .ok id ∧ (Field.flag true).encode = .ok flag ∧
    (Field.blob nested).encode = .ok blob ∧ data = tag ++ (code ++ (id ++ (flag ++ (blob ++ rest))))

theorem not_inPrimary {q : Halt} (h : q.Sound Fault.Framed) (fault : Fault) (offset : Nat)
    (taken left : Bytes) : ¬ q (.inPrimary fault) offset taken left :=
  fun hq => h _ offset taken left hq

theorem blame_inPrimary_iff {fault : Fault} {data : Bytes} : blame.In (.inPrimary fault) 0 data ↔
    ∃ nested e, Carries data nested ∧ Identity.decode (.bytes nested) = .error e ∧ e.fault = fault := by
  constructor
  · rintro ⟨_, left, h, rfl⟩
    rcases h with ⟨_, h, _⟩ | ⟨_, tag, _, htag, rfl, ⟨_, h, _⟩ | ⟨rfl, h⟩⟩
    · cases h
    · cases h
    rcases h with ⟨_, h, _⟩ | ⟨_, code, _, hcode, rfl, ⟨_, h, _⟩ | ⟨s, _, _, ⟨rfl, rfl⟩, rfl, h⟩⟩
    · cases h
    · cases h
    rcases h with h | ⟨memberId, id, _, hid, rfl, h⟩
    · exact (not_inPrimary (Halt.Sound.flagged _ (fun _ _ h => h) (sound_string _)) _ _ _ _ h).elim
    rcases h with h | ⟨identity, _, _, _, rfl, _, ⟨_, h⟩ | ⟨_, ⟨_, _, h⟩, _⟩⟩
    · rcases h with h | ⟨present, flag, _, hflag, rfl, h⟩
      · exact (not_inPrimary (sound_flag _) _ _ _ _ h).elim
      cases present with
      | false => exact h.elim
      | true =>
        rcases h with h | ⟨nested, blob, rest, hblob, rfl, ⟨e, he, h⟩, rfl⟩
        · exact (not_inPrimary (sound_sized _ _) _ _ _ _ h).elim
        cases h
        refine ⟨nested, e, ⟨s, memberId, tag, code, id, flag, blob, left, htag, hcode, hid, hflag, hblob, ?_⟩,
          he, rfl⟩
        simp only [List.append_assoc, List.nil_append]
    · cases h
    · cases h
  · rintro ⟨nested, e, ⟨s, memberId, tag, code, id, flag, blob, rest, htag, hcode, hid, hflag, hblob, rfl⟩,
      he, rfl⟩
    refine ⟨tag ++ (code ++ ([] ++ (id ++ (flag ++ (blob ++ []))))), rest, ?_, ?_⟩
    · refine .inr ⟨_, tag, _, htag, rfl, .inr ⟨rfl, .inr ⟨_, code, _, hcode, rfl, .inr ⟨s, [], _,
        ⟨rfl, rfl⟩, rfl, .inr ⟨memberId, id, _, hid, rfl, .inl ?_⟩⟩⟩⟩⟩
      exact .inr ⟨true, flag, _, hflag, rfl, .inr ⟨nested, blob, [], hblob, rfl, ⟨e, he, rfl⟩, rfl⟩⟩
    · simp only [List.append_assoc, List.nil_append]

end Outcome

def RefusedAs (kind : String) (faulty : Nat → Fault → Prop) (p : Payload) (e : DecodeError) : Prop :=
  e.payload = kind ∧
    match p with
    | .foreign value => e.fault = .notBytes value.kindName
    | .bytes data => faulty data.length e.fault

theorem RefusedAs.of_error {α : Type} {kind : String} {work : Read α} {q : Halt}
    {faulty : Nat → Fault → Prop} (hhalts : Halts work q) (hsound : q.Sound faulty) {p : Payload}
    {e : DecodeError} (h : Wire.decode kind work p = .error e) : RefusedAs kind faulty p e := by
  cases p with
  | foreign value =>
    cases h
    exact ⟨rfl, rfl⟩
  | bytes data =>
    obtain ⟨hkind, hblame⟩ := (decode_eq_error_iff hhalts).mp h
    have hfaulty := hsound.of_in hblame
    rw [Nat.zero_add] at hfaulty
    exact ⟨hkind, hfaulty⟩

theorem Identity.decode_cases (p : Payload) :
    (∃ i : Identity, decode p = .ok i ∧ i.draft.check = .ok i) ∨
      ∃ e, decode p = .error e ∧ RefusedAs "identity" Faulty p e := by
  cases hd : decode p with
  | ok i => exact .inl ⟨i, rfl, i.check_draft⟩
  | error e => exact .inr ⟨e, rfl, .of_error halts_read sound_blame hd⟩

theorem Outcome.decode_cases (p : Payload) :
    (∃ o, decode p = .ok o) ∨ ∃ e, decode p = .error e ∧ RefusedAs "assignment" Faulty p e := by
  cases hd : decode p with
  | ok o => exact .inl ⟨o, rfl⟩
  | error e => exact .inr ⟨e, rfl, .of_error halts_read sound_blame hd⟩

theorem Outcome.decode_inPrimary_iff {data : Bytes} {fault : Fault} :
    decode (.bytes data) = .error ⟨"assignment", .inPrimary fault⟩ ↔
      ∃ nested e, Carries data nested ∧ Identity.decode (.bytes nested) = .error e ∧ e.fault = fault := by
  rw [← blame_inPrimary_iff]
  exact (decode_eq_error_iff halts_read).trans (and_iff_right rfl)

namespace Session

theorem result_compute_cases {s : Session} {epoch : Int} {leader : Value} {members : Roster Payload}
    (hrests : s.node.phase.Rests) (hfree : s.node.phase ≠ .active) :
    (∃ assignments : Roster Bytes,
      (s.run fun _ => Node.compute epoch leader members).result = .ok assignments ∧
        assignments.keys = members.keys) ∨
    ∃ id ∈ members.keys, (utf8? id = none ∧
        (s.run fun _ => Node.compute epoch leader members).result = .error (.unwritable (.noEncoding id))) ∨
      ∃ text, utf8? id = some text ∧ maxText < text.length ∧
        (s.run fun _ => Node.compute epoch leader members).result =
          .error (.unwritable (.textTooLong text.length)) := by
  rw [result_compute hrests hfree]
  by_cases hwritable : ∀ id i, Election.elect (Node.readable members) leader.text? = .elected id i →
      id.Writable
  · obtain ⟨data, hdata⟩ := Node.encode_elected_readable hwritable
    refine .inl ⟨members.map fun _ => data, ?_, members.keys_map _⟩
    rw [hdata]
    rfl
  · simp only [Classical.not_forall] at hwritable
    obtain ⟨id, i, helected, hnot⟩ := hwritable
    obtain ⟨p, hp, _⟩ := (Node.get?_readable members id i).mp (Election.get?_of_elected helected)
    refine .inr ⟨id, Roster.mem_keys_of_get? hp, ?_⟩
    rw [helected]
    rcases Text.not_writable_iff.mp hnot with hnone | ⟨text, htext, hlong⟩
    · refine .inl ⟨hnone, ?_⟩
      rw [Outcome.encode_of_no_encoding hnone]
      rfl
    · refine .inr ⟨text, htext, hlong, ?_⟩
      rw [Outcome.encode_of_long_id htext hlong]
      rfl

/--
Nothing but a fault ever comes of a payload that cannot be read, and a fault in a nested identity is passed
on with its reason. So no payload keeps a node at rest from leading a round, as long as the ids of the
members can be written, and none makes the completion of a round fail.
-/
theorem Course.decoding_contained {config : Config} {script : Script} {s : Session} {events : List Event}
    (h : Course (fun _ _ => True) (.start config script) s events) (hfree : s.node.phase ≠ .active) :
    (∀ p, (∃ i : Identity, Identity.decode p = .ok i ∧ i.draft.check = .ok i) ∨
      ∃ e, Identity.decode p = .error e ∧ RefusedAs "identity" Identity.Faulty p e) ∧
    (∀ p, (∃ o, Outcome.decode p = .ok o) ∨
      ∃ e, Outcome.decode p = .error e ∧ RefusedAs "assignment" Outcome.Faulty p e) ∧
    (∀ data fault, Outcome.decode (.bytes data) = .error ⟨"assignment", .inPrimary fault⟩ ↔
      ∃ nested e, Outcome.Carries data nested ∧ Identity.decode (.bytes nested) = .error e ∧
        e.fault = fault) ∧
    (∀ fault : Fault, (Fault.inPrimary fault).reason = "invalid primary identity: " ++ fault.reason) ∧
    (∀ epoch leader members,
      (∃ assignments : Roster Bytes,
        (s.run fun _ => Node.compute epoch leader members).result = .ok assignments ∧
          assignments.keys = members.keys) ∨
      ∃ id ∈ members.keys, (utf8? id = none ∧
          (s.run fun _ => Node.compute epoch leader members).result =
            .error (.unwritable (.noEncoding id))) ∨
        ∃ text, utf8? id = some text ∧ maxText < text.length ∧
          (s.run fun _ => Node.compute epoch leader members).result =
            .error (.unwritable (.textTooLong text.length))) ∧
    ∀ l : Conduct, l.Only Patient → ∀ epoch memberId p,
      (s.runAs l fun tell => Node.complete tell epoch memberId p).result = .ok () := by
  refine ⟨Identity.decode_cases, Outcome.decode_cases, fun _ _ => Outcome.decode_inPrimary_iff,
    fun _ => rfl, ?_, ?_⟩
  · exact fun epoch leader members => result_compute_cases h.rests hfree
  · intro l hl epoch memberId p
    exact runAs_of_after (fun tell => Node.complete tell epoch memberId p)
      (after_complete_ok (r := ⟨s, []⟩) (Conduct.heeds hl) trivial (h.rests.eq_of_ne_active hfree))

def spoiltOutcome : Bytes :=
  [0, 0, 0, 0, 1, 0, 1, 97, 1, 0, 0, 0, 5, 0, 0, 0, 1, 104]

theorem Course.decoding_contained_spoilt :
    ∃ s events, Course (fun _ _ => True) (.start default {}) s events ∧ s.node.phase ≠ .active ∧
      notices events = [.assigned .noCandidate 3, .revoked] ∧
      Outcome.decode (.bytes spoiltOutcome) =
        .error ⟨"assignment", .inPrimary (.truncated "port" 4 5 0)⟩ ∧
      (∃ nested e, Outcome.Carries spoiltOutcome nested ∧ Identity.decode (.bytes nested) = .error e ∧
        e.fault = .truncated "port" 4 5 0) ∧
      (s.runAs restless fun tell => Node.complete tell 7 "me" (.bytes spoiltOutcome)).result = .ok () := by
  have hbegin : Course (fun _ _ => True) (.start default {}) (.start default {}) [] := .begin
  have hcompleted :=
    hbegin.call restless (.complete 3 "me" (.outcome .noCandidate)) restless.only_any
  have hcourse := hcompleted.call restless .revoke restless.only_any
  have hspoilt : Outcome.decode (.bytes spoiltOutcome) =
      .error ⟨"assignment", .inPrimary (.truncated "port" 4 5 0)⟩ := rfl
  have hcontained := hcourse.decoding_contained (by decide +kernel)
  exact ⟨_, _, hcourse, by decide +kernel, by decide +kernel, hspoilt,
    (hcontained.2.2.1 _ _).mp hspoilt, hcontained.2.2.2.2.2 restless restless_only 7 "me" _⟩

end Session

end PrimaryElection
