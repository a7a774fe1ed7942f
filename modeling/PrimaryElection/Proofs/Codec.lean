import PrimaryElection.Outcome.Codec
import PrimaryElection.Proofs.Framing

namespace PrimaryElection

open Wire

/-- A text that can be written: it has an encoding, and one that is not too long for its length in front. -/
def Text.Writable (s : Text) : Prop := ∃ text, utf8? s = some text ∧ text.length ≤ maxText

theorem Text.writable_iff {s : Text} :
    s.Writable ↔ ((utf8? s).any fun text => decide (text.length ≤ maxText)) = true := by
  simp [Writable, Option.any_eq_true]

instance (s : Text) : Decidable s.Writable := decidable_of_iff _ Text.writable_iff.symm

theorem Text.not_writable_iff {s : Text} :
    ¬ s.Writable ↔ utf8? s = none ∨ ∃ text, utf8? s = some text ∧ maxText < text.length := by
  unfold Writable
  cases utf8? s <;> simp

theorem toOption_eq_some_iff {ε α : Type} {result : Except ε α} {a : α} :
    result.toOption = some a ↔ result = .ok a := by
  cases result <;> simp [Except.toOption]

namespace Wire

theorem encodeAll_cons_eq_ok_iff {f : Field} {fs : List Field} {bytes : Bytes} :
    encodeAll (f :: fs) = .ok bytes ↔
      ∃ l r, f.encode = .ok l ∧ encodeAll fs = .ok r ∧ bytes = l ++ r := by
  simp only [encodeAll]
  cases hf : f.encode with
  | error e => simp [bind, Except.bind]
  | ok l =>
    cases hfs : encodeAll fs with
    | error e => simp [bind, Except.bind]
    | ok r => simp [bind, Except.bind, pure, Except.pure, eq_comm]

theorem encodeAll_singleton (f : Field) : encodeAll [f] = f.encode := by
  simp only [encodeAll]
  cases f.encode with
  | error e => rfl
  | ok bytes =>
    change Except.ok (bytes ++ []) = Except.ok bytes
    rw [List.append_nil]

theorem encode_int {w : Width} {v : Int} (h : w.holds v = true) :
    (Field.int w v).encode = .ok (w.toBytes v) := by
  simp only [Field.encode, encodeInt, h, if_true]

theorem encode_flag (b : Bool) : (Field.flag b).encode = .ok (Width.one.toBytes (flagCode b)) := by
  cases b <;> rfl

theorem encode_string {s : Text} {text : Bytes} (h : utf8? s = some text) : (Field.string s).encode =
    if maxText < text.length then .error (.textTooLong text.length)
    else .ok (Width.two.toBytes text.length ++ text) := by
  simp only [Field.encode, h]
  split
  · rfl
  · rename_i hshort
    have hholds : Width.two.holds text.length = true := by
      simp only [maxText] at hshort
      simp only [Width.holds_iff, Width.bound]
      omega
    rw [encodeInt, if_pos hholds]
    rfl

theorem encode_string_of_none {s : Text} (h : utf8? s = none) :
    (Field.string s).encode = .error (.noEncoding s) := by
  rw [Field.encode, h]

theorem encode_blob {b : Bytes} (h : b.length < 2147483648) :
    (Field.blob b).encode = .ok (Width.four.toBytes b.length ++ b) := by
  have hholds : Width.four.holds b.length = true := by
    simp only [Width.holds_iff, Width.bound]
    omega
  rw [Field.encode, encodeInt, if_pos hholds]
  rfl

end Wire

namespace Identity

theorem holds_port (i : Identity) : Width.four.holds i.port = true := by
  have := i.port_le
  simp only [Width.holds_iff, Width.bound]
  omega

theorem encode_eq (i : Identity) : i.encode =
    if maxText < (utf8 i.host).length then .error (.textTooLong (utf8 i.host).length)
    else .ok (Width.two.toBytes version ++ ((Width.two.toBytes (utf8 i.host).length ++ utf8 i.host) ++
      (Width.four.toBytes i.port ++ (Width.one.toBytes (flagCode i.eligible) ++ [])))) := by
  simp only [encode, encodeAs, fields, encodeAll, encode_int (show Width.two.holds version = true by decide),
    encode_string (utf8?_ofString _), encode_int i.holds_port, encode_flag]
  split <;> rfl

theorem length_of_encode {i : Identity} {bytes : Bytes} (h : i.encode = .ok bytes) :
    bytes.length ≤ maxText + 9 := by
  rw [encode_eq] at h
  split at h
  · cases h
  · injection h with h
    subst h
    simp only [List.length_append, Width.length_toBytes, Width.size, List.length_nil]
    omega

theorem eq_of_checkHost {host : Text} {h : { s : String // s ≠ "" }}
    (hok : checkHost (some (.text host)) = .ok h) : host = h.1 := by
  simp only [checkHost] at hok
  cases hhost : host.string? with
  | none => simp [hhost] at hok
  | some s =>
    simp only [hhost] at hok
    split at hok
    · cases hok
    · injection hok with hok
      subst hok
      exact Text.string?_eq_some_iff.mp hhost

theorem check_of_eq_ok_iff {host : Text} {port : Int} {eligible : Bool} {i : Identity} :
    (Draft.of (.text host) (.int port) (.bool eligible)).check = .ok i ↔
      host = i.host ∧ port = i.port ∧ eligible = i.eligible := by
  constructor
  · intro h
    simp only [Draft.check, host?_of, port?_of, eligible?_of, checkPort, checkEligible] at h
    split at h
    · rename_i hhost hport heligible
      injection h with h
      subst h
      split at hport
      · split at hport
        · injection hport with hport
          injection heligible with heligible
          subst hport heligible
          refine ⟨eq_of_checkHost hhost, ?_, rfl⟩
          simp only
          omega
        · cases hport
      · cases hport
    · cases h
  · rintro ⟨rfl, rfl, rfl⟩
    exact check_draft i

theorem encode_eq_ok_iff {i : Identity} {bytes : Bytes} : i.encode = .ok bytes ↔
    ∃ tag host port eligible, encodeInt .two version = .ok tag ∧
      (Field.string i.host).encode = .ok host ∧ encodeInt .four i.port = .ok port ∧
      (Field.flag i.eligible).encode = .ok eligible ∧
      bytes = tag ++ (host ++ (port ++ eligible)) := by
  simp only [encode, encodeAs, fields, encodeAll_cons_eq_ok_iff]
  constructor
  · rintro ⟨tag, _, htag, ⟨host, _, hhost, ⟨port, _, hport, ⟨eligible, _, heligible, hnil, rfl⟩, rfl⟩,
      rfl⟩, rfl⟩
    injection hnil with hnil
    subst hnil
    exact ⟨tag, host, port, eligible, htag, hhost, hport, heligible, by rw [List.append_nil]⟩
  · rintro ⟨tag, host, port, eligible, htag, hhost, hport, heligible, rfl⟩
    exact ⟨tag, _, htag, ⟨host, _, hhost, ⟨port, _, hport, ⟨eligible, [], heligible, rfl, rfl⟩, rfl⟩,
      rfl⟩, by rw [List.append_nil]⟩

theorem reads_expectValid (d : Draft) :
    Reads (expectValid d) fun i bytes => d.check = .ok i ∧ bytes = [] := by
  unfold expectValid
  split
  · rename_i i hi
    refine (reads_pure i).congr fun j bytes => ?_
    rw [hi, Except.ok.injEq, eq_comm (a := i)]
  · rename_i violations hviolations
    refine (reads_throw _).congr fun j bytes => ?_
    rw [hviolations]
    simp

theorem readsAll_read : ReadsAll read fun i bytes => i.encode = .ok bytes := by
  have hend : ∀ (host : Text) (port : Int) (eligible : Bool), ReadsAll (do
      finish
      expectValid (.of (.text host) (.int port) (.bool eligible)))
      (fun i bytes => (host = i.host ∧ port = i.port ∧ eligible = i.eligible) ∧ bytes = []) := by
    intro host port eligible
    apply readsAll_finish_then
    refine (reads_expectValid _).congr fun i bytes => ?_
    rw [check_of_eq_ok_iff]
  have hbody := (reads_string "host").bind_all fun host =>
    (reads_int .four "port").bind_all fun port =>
      (reads_flag "eligible").bind_all fun eligible => hend host port eligible
  refine (hbody.versioned version).congr fun i bytes => ?_
  rw [encode_eq_ok_iff]
  constructor
  · rintro ⟨tag, _, htag, ⟨_, host, _, hhost, ⟨_, port, _, hport, ⟨_, eligible, _, heligible,
      ⟨⟨rfl, rfl, rfl⟩, rfl⟩, rfl⟩, rfl⟩, rfl⟩, rfl⟩
    exact ⟨tag, host, port, eligible, htag, hhost, hport, heligible, by rw [List.append_nil]⟩
  · rintro ⟨tag, host, port, eligible, htag, hhost, hport, heligible, rfl⟩
    exact ⟨tag, _, htag, ⟨_, host, _, hhost, ⟨_, port, _, hport, ⟨_, eligible, [], heligible,
      ⟨⟨rfl, rfl, rfl⟩, rfl⟩, rfl⟩, rfl⟩, rfl⟩, by rw [List.append_nil]⟩

theorem decode_eq_ok_iff {i : Identity} {bytes : Bytes} :
    decode (.bytes bytes) = .ok i ↔ i.encode = .ok bytes :=
  Wire.decode_eq_ok_iff readsAll_read

end Identity

namespace Outcome

def idFields (memberId : Option MemberId) : List Field :=
  .flag memberId.isSome :: memberId.toList.map .string

theorem reads_primaryId :
    Reads readPrimaryId fun memberId bytes => encodeAll (idFields memberId) = .ok bytes := by
  have hbody : ∀ present : Bool, Reads (do
      if present then return some (← readString "primary_member_id") else return none)
      (fun memberId bytes => present = memberId.isSome ∧
        encodeAll (memberId.toList.map .string) = .ok bytes) := by
    intro present
    cases present with
    | false =>
      refine (reads_pure none).congr fun memberId bytes => ?_
      cases memberId <;> simp [encodeAll, eq_comm]
    | true =>
      refine ((reads_string "primary_member_id").bind fun id => reads_pure (some id)).congr
        fun memberId bytes => ?_
      cases memberId with
      | none => simp
      | some id =>
        simp only [Option.isSome_some, true_and, Option.toList_some, List.map_cons, List.map_nil,
          encodeAll_singleton, Option.some_inj]
        constructor
        · rintro ⟨_, l, _, hl, ⟨rfl, rfl⟩, rfl⟩
          rw [List.append_nil]
          exact hl
        · intro h
          exact ⟨id, bytes, [], h, ⟨rfl, rfl⟩, (List.append_nil _).symm⟩
  refine ((reads_flag "has_primary_member_id").bind hbody).congr fun memberId bytes => ?_
  rw [idFields, encodeAll_cons_eq_ok_iff]
  constructor
  · rintro ⟨_, l, r, hl, ⟨rfl, hr⟩, rfl⟩
    exact ⟨l, r, hl, hr, rfl⟩
  · rintro ⟨l, r, hl, hr, rfl⟩
    exact ⟨_, l, r, hl, ⟨rfl, hr⟩, rfl⟩

def encodeIdentity : Option Identity → Except WriteError Bytes
  | none => encodeAll [.flag false]
  | some identity => do
    let nested ← identity.encode
    encodeAll [.flag true, .blob nested]

def IdentityForm : Option Identity → Bytes → Prop
  | none, bytes => bytes = []
  | some i, bytes => ∃ nested, i.encode = .ok nested ∧ (Field.blob nested).encode = .ok bytes

theorem encodeIdentity_eq_ok_iff {identity : Option Identity} {bytes : Bytes} :
    encodeIdentity identity = .ok bytes ↔ ∃ l r, (Field.flag identity.isSome).encode = .ok l ∧
      IdentityForm identity r ∧ bytes = l ++ r := by
  cases identity with
  | none =>
    simp only [encodeIdentity, encodeAll_singleton, IdentityForm]
    constructor
    · intro h
      exact ⟨bytes, [], h, rfl, (List.append_nil _).symm⟩
    · rintro ⟨l, _, hl, rfl, rfl⟩
      rw [List.append_nil]
      exact hl
  | some i =>
    simp only [encodeIdentity, IdentityForm, bind, Except.bind]
    cases hi : i.encode with
    | error e =>
      constructor
      · intro h
        cases h
      · rintro ⟨_, _, _, ⟨_, hfalse, _⟩, _⟩
        cases hfalse
    | ok nested =>
      simp only [encodeAll_cons_eq_ok_iff, encodeAll_singleton, Except.ok.injEq]
      constructor
      · rintro ⟨l, r, hl, hr, rfl⟩
        exact ⟨l, r, hl, ⟨nested, rfl, hr⟩, rfl⟩
      · rintro ⟨l, r, hl, ⟨_, rfl, hr⟩, rfl⟩
        exact ⟨l, r, hl, hr, rfl⟩

theorem reads_expectIdentity (nested : Bytes) :
    Reads (expectIdentity nested) fun i bytes => i.encode = .ok nested ∧ bytes = [] := by
  unfold expectIdentity
  cases hd : Identity.decode (.bytes nested) with
  | ok i =>
    refine (reads_pure i).congr fun j bytes => ?_
    rw [← Identity.decode_eq_ok_iff, hd, Except.ok.injEq, eq_comm (a := i)]
  | error e =>
    refine (reads_throw _).congr fun j bytes => ?_
    rw [← Identity.decode_eq_ok_iff, hd]
    simp

theorem reads_primaryIdentity :
    Reads readPrimaryIdentity fun identity bytes => encodeIdentity identity = .ok bytes := by
  have hbody : ∀ present : Bool, Reads (do
      if present then
        return some (← expectIdentity (← readBlob "primary_identity"))
      else return none)
      (fun identity bytes => present = identity.isSome ∧ IdentityForm identity bytes) := by
    intro present
    cases present with
    | false =>
      refine (reads_pure none).congr fun identity bytes => ?_
      cases identity <;> simp [IdentityForm]
    | true =>
      refine ((reads_blob "primary_identity").bind fun nested =>
        (reads_expectIdentity nested).bind fun i => reads_pure (some i)).congr fun identity bytes => ?_
      constructor
      · rintro ⟨nested, l, _, hl, ⟨i, _, _, ⟨hi, rfl⟩, ⟨rfl, rfl⟩, rfl⟩, rfl⟩
        exact ⟨rfl, nested, hi, by rw [List.append_nil, List.append_nil]; exact hl⟩
      · rintro ⟨hpresent, hform⟩
        cases identity with
        | none => cases hpresent
        | some i =>
          obtain ⟨nested, hi, hblob⟩ := hform
          exact ⟨nested, bytes, [], hblob, ⟨i, [], [], ⟨hi, rfl⟩, ⟨rfl, rfl⟩, rfl⟩,
            (List.append_nil _).symm⟩
  refine ((reads_flag "has_primary_identity").bind hbody).congr fun identity bytes => ?_
  rw [encodeIdentity_eq_ok_iff]
  constructor
  · rintro ⟨_, l, r, hl, ⟨rfl, hr⟩, rfl⟩
    exact ⟨l, r, hl, hr, rfl⟩
  · rintro ⟨l, r, hl, hr, rfl⟩
    exact ⟨_, l, r, hl, ⟨rfl, hr⟩, rfl⟩

theorem encode_eq_parts (o : Outcome) : o.encode = (do
    let head ← encodeAll (o.headFields version)
    let tail ← encodeIdentity o.primaryIdentity?
    return head ++ tail) := by
  cases o with
  | elected id i =>
    change (do
      let head ← encodeAll ((elected id i).headFields version)
      let nested ← i.encode
      let tail ← encodeAll [.flag true, .blob nested]
      return head ++ tail) = do
      let head ← encodeAll ((elected id i).headFields version)
      let tail ← (do
        let nested ← i.encode
        encodeAll [.flag true, .blob nested])
      return head ++ tail
    simp only [bind_assoc]
  | noCandidate => rfl
  | duplicateAddress => rfl

theorem headFields_eq (o : Outcome) :
    o.headFields version = .int .two version :: .int .two o.status.code :: idFields o.primaryId? := rfl

theorem encode_eq_ok_iff {o : Outcome} {bytes : Bytes} : o.encode = .ok bytes ↔
    ∃ tag code id identity, encodeInt .two version = .ok tag ∧ encodeInt .two o.status.code = .ok code ∧
      encodeAll (idFields o.primaryId?) = .ok id ∧ encodeIdentity o.primaryIdentity? = .ok identity ∧
      bytes = tag ++ (code ++ (id ++ identity)) := by
  rw [encode_eq_parts, headFields_eq]
  simp only [bind, Except.bind]
  cases hhead : encodeAll (.int .two version :: .int .two o.status.code :: idFields o.primaryId?) with
  | error e =>
    constructor
    · intro h
      cases h
    · rintro ⟨tag, code, id, _, htag, hcode, hid, _⟩
      have hok : encodeAll (.int .two version :: .int .two o.status.code :: idFields o.primaryId?) =
          .ok (tag ++ (code ++ id)) :=
        encodeAll_cons_eq_ok_iff.mpr
          ⟨tag, _, htag, encodeAll_cons_eq_ok_iff.mpr ⟨code, id, hcode, hid, rfl⟩, rfl⟩
      rw [hok] at hhead
      cases hhead
  | ok head =>
    obtain ⟨tag, _, htag, hrest, rfl⟩ := encodeAll_cons_eq_ok_iff.mp hhead
    obtain ⟨code, id, hcode, hid, rfl⟩ := encodeAll_cons_eq_ok_iff.mp hrest
    simp only [Field.encode] at htag hcode
    simp only [htag, hcode, hid, Except.ok.injEq]
    cases encodeIdentity o.primaryIdentity? with
    | error e => simp
    | ok identity => simp [pure, Except.pure, List.append_assoc, eq_comm]

theorem reads_expectStatus (code : Int) :
    Reads (expectStatus code) fun s bytes => code = s.code ∧ bytes = [] := by
  unfold expectStatus
  cases hs : Status.ofCode? code with
  | none =>
    refine (reads_throw _).congr fun s bytes => ?_
    rw [← Status.ofCode?_eq_some_iff, hs]
    simp
  | some s =>
    refine (reads_pure s).congr fun s' bytes => ?_
    rw [← Status.ofCode?_eq_some_iff, hs, Option.some_inj, eq_comm (a := s)]

theorem reads_expectConsistent (s : Status) (memberId : Option MemberId)
    (identity : Option Identity) : Reads (expectConsistent s memberId identity) fun o bytes =>
      (s = o.status ∧ memberId = o.primaryId? ∧ identity = o.primaryIdentity?) ∧ bytes = [] := by
  unfold expectConsistent
  cases hp : ofParts s memberId identity with
  | ok o =>
    refine (reads_pure o).congr fun o' bytes => ?_
    rw [← ofParts_eq_ok_iff, hp, Except.ok.injEq, eq_comm (a := o)]
  | error e =>
    refine (reads_throw _).congr fun o' bytes => ?_
    rw [← ofParts_eq_ok_iff, hp]
    simp

theorem readsAll_read : ReadsAll read fun o bytes => o.encode = .ok bytes := by
  have hbody := (reads_int .two "status").bind_all fun code =>
    (reads_expectStatus code).bind_all fun s =>
      reads_primaryId.bind_all fun memberId => reads_primaryIdentity.bind_all fun identity =>
        readsAll_finish_then (reads_expectConsistent s memberId identity)
  refine (hbody.versioned version).congr fun o bytes => ?_
  rw [encode_eq_ok_iff]
  constructor
  · rintro ⟨tag, _, htag, ⟨_, code, _, hcode, ⟨_, _, _, ⟨rfl, rfl⟩, ⟨_, id, _, hid, ⟨_, identity, _,
      hidentity, ⟨⟨rfl, rfl, rfl⟩, rfl⟩, rfl⟩, rfl⟩, rfl⟩, rfl⟩, rfl⟩
    exact ⟨tag, code, id, identity, htag, hcode, hid, hidentity, by rw [List.append_nil]; rfl⟩
  · rintro ⟨tag, code, id, identity, htag, hcode, hid, hidentity, rfl⟩
    exact ⟨tag, _, htag, ⟨_, code, _, hcode, ⟨o.status, [], _, ⟨rfl, rfl⟩, ⟨_, id, _, hid, ⟨_, identity,
      [], hidentity, ⟨⟨rfl, rfl, rfl⟩, rfl⟩, rfl⟩, rfl⟩, rfl⟩, rfl⟩, by rw [List.append_nil]; rfl⟩

theorem decode_eq_ok_iff {o : Outcome} {bytes : Bytes} :
    decode (.bytes bytes) = .ok o ↔ o.encode = .ok bytes :=
  Wire.decode_eq_ok_iff readsAll_read

theorem encode_of_id_error {id : MemberId} {i : Identity} {e : WriteError}
    (h : (Field.string id).encode = .error e) : (elected id i).encode = .error e := by
  have hhead : encodeAll ((elected id i).headFields version) = .error e := by
    change encodeAll [.int .two version, .int .two Status.ok.code, .flag true, .string id] = _
    simp only [encodeAll, h]
    rfl
  rw [encode_eq_parts, hhead]
  rfl

theorem encode_of_no_encoding {id : MemberId} {i : Identity} (h : utf8? id = none) :
    (elected id i).encode = .error (.noEncoding id) :=
  encode_of_id_error (encode_string_of_none h)

theorem encode_of_long_id {id : MemberId} {i : Identity} {text : Bytes} (h : utf8? id = some text)
    (hlong : maxText < text.length) : (elected id i).encode = .error (.textTooLong text.length) := by
  apply encode_of_id_error
  rw [encode_string h, if_pos hlong]

theorem encode_idFields {id : MemberId} (h : id.Writable) :
    ∃ bytes, encodeAll (idFields (some id)) = .ok bytes := by
  obtain ⟨text, htext, hshort⟩ := h
  have hid := encode_string htext
  rw [if_neg (Nat.not_lt.mpr hshort)] at hid
  exact ⟨_, encodeAll_cons_eq_ok_iff.mpr ⟨_, _, encode_flag true, (encodeAll_singleton _).trans hid, rfl⟩⟩

theorem exists_encode_elected {id : MemberId} {i : Identity} (hid : id.Writable)
    (hhost : (utf8 i.host).length ≤ maxText) : ∃ bytes, (elected id i).encode = .ok bytes := by
  obtain ⟨idBytes, hidBytes⟩ := encode_idFields hid
  obtain ⟨nested, hnested⟩ : ∃ nested, i.encode = .ok nested := by
    rw [i.encode_eq, if_neg (Nat.not_lt.mpr hhost)]
    exact ⟨_, rfl⟩
  have hsize : nested.length < 2147483648 := by
    have := Identity.length_of_encode hnested
    simp only [maxText] at this
    omega
  have hidentity : encodeIdentity (some i) = .ok _ :=
    encodeIdentity_eq_ok_iff.mpr ⟨_, _, encode_flag true, ⟨nested, hnested, encode_blob hsize⟩, rfl⟩
  have htag := encodeInt_eq_ok_iff.mpr ⟨show Width.two.holds version = true by decide, rfl⟩
  have hcode := encodeInt_eq_ok_iff.mpr ⟨show Width.two.holds Status.ok.code = true by decide, rfl⟩
  exact ⟨_, encode_eq_ok_iff.mpr ⟨_, _, idBytes, _, htag, hcode, hidBytes, hidentity, rfl⟩⟩

theorem exists_encode {o : Outcome}
    (h : ∀ id i, o = elected id i → id.Writable ∧ (utf8 i.host).length ≤ maxText) :
    ∃ bytes, o.encode = .ok bytes := by
  cases o with
  | elected id i => exact exists_encode_elected (h id i rfl).1 (h id i rfl).2
  | noCandidate => exact ⟨_, rfl⟩
  | duplicateAddress => exact ⟨_, rfl⟩

end Outcome

end PrimaryElection
