import PrimaryElection.Proofs.Faults

namespace PrimaryElection

namespace Wire

variable {α β : Type}

def Halt.RunsOut (q : Halt) (offset : Nat) (bytes : Bytes) : Prop :=
  ∃ field need place available, q.In (.truncated field need place available) offset bytes

/-- Bytes that end within what `p` allows for a value are too few, and are found to be. -/
def Halt.Cuts (q : Halt) (p : α → Bytes → Prop) : Prop :=
  ∀ a front back offset, p a (front ++ back) → back ≠ [] → q.RunsOut offset front

def Halt.Spills (q : Halt) (p : α → Bytes → Prop) : Prop :=
  ∀ a bytes rest offset, p a bytes → rest ≠ [] → q.In (.trailing rest.length) offset (bytes ++ rest)

structure Halt.Tight (q : Halt) (p : α → Bytes → Prop) : Prop where
  cuts : q.Cuts p
  spills : q.Spills p

def joined (p : α → Bytes → Prop) (r : α → β → Bytes → Prop) : β → Bytes → Prop :=
  fun b bytes => ∃ a l m, p a l ∧ r a b m ∧ bytes = l ++ m

theorem Halt.In.inFront {q : Halt} {p : α → Bytes → Prop} {next : α → Halt} {fault : Fault}
    {offset : Nat} {bytes : Bytes} (h : q.In fault offset bytes) :
    (q.orBehind p next).In fault offset bytes := by
  obtain ⟨taken, left, hq, hbytes⟩ := h
  exact ⟨taken, left, .inl hq, hbytes⟩

theorem Halt.In.behind {q : Halt} {p : α → Bytes → Prop} {next : α → Halt} {fault : Fault}
    {offset : Nat} {a : α} {l m : Bytes} (hl : p a l) (h : (next a).In fault (offset + l.length) m) :
    (q.orBehind p next).In fault offset (l ++ m) := by
  obtain ⟨taken, left, hnext, rfl⟩ := h
  exact ⟨l ++ taken, left, .inr ⟨a, l, taken, hl, rfl, hnext⟩, (List.append_assoc _ _ _).symm⟩

theorem Halt.RunsOut.mono {q q' : Halt} {offset offset' : Nat} {bytes bytes' : Bytes}
    (h : q.RunsOut offset bytes) (hq : ∀ fault, q.In fault offset bytes → q'.In fault offset' bytes') :
    q'.RunsOut offset' bytes' := by
  obtain ⟨field, need, place, available, hout⟩ := h
  exact ⟨field, need, place, available, hq _ hout⟩

theorem Halt.Cuts.mono {q : Halt} {p : α → Bytes → Prop} {p' : β → Bytes → Prop} (h : q.Cuts p)
    (hp : ∀ b bytes, p' b bytes → ∃ a, p a bytes) : q.Cuts p' := by
  intro b front back offset hb hback
  obtain ⟨a, ha⟩ := hp b _ hb
  exact h a front back offset ha hback

theorem Halt.Tight.mono {q : Halt} {p p' : α → Bytes → Prop} (h : q.Tight p)
    (hp : ∀ a bytes, p' a bytes → p a bytes) : q.Tight p' where
  cuts := h.cuts.mono fun a bytes ha => ⟨a, hp a bytes ha⟩
  spills a bytes rest offset ha := h.spills a bytes rest offset (hp a bytes ha)

theorem cuts_of_nil {q : Halt} {p : α → Bytes → Prop} (h : ∀ a bytes, p a bytes → bytes = []) :
    q.Cuts p := by
  intro a front back offset ha hback
  exact (hback (List.append_eq_nil_iff.mp (h a _ ha)).2).elim

theorem Halt.Cuts.orBehind {q : Halt} {p : α → Bytes → Prop} {next : α → Halt}
    {r : α → β → Bytes → Prop} (hq : q.Cuts p) (hnext : ∀ a, (next a).Cuts (r a)) :
    (q.orBehind p next).Cuts (joined p r) := by
  rintro b front back offset ⟨a, l, m, hl, hm, hsplit⟩ hback
  have hbehind : ∀ mid, front = l ++ mid → m = mid ++ back →
      (q.orBehind p next).RunsOut offset front := by
    rintro mid rfl rfl
    exact (hnext a b mid back (offset + l.length) hm hback).mono fun _ hcut => .behind hl hcut
  rcases List.append_eq_append_iff.mp hsplit with ⟨mid, rfl, hrest⟩ | ⟨mid, hfront, hrest⟩
  · by_cases hmid : mid = []
    · subst hmid
      exact hbehind [] (by rw [List.append_nil, List.append_nil]) hrest.symm
    · exact (hq a front mid offset hl hmid).mono fun _ => .inFront
  · exact hbehind mid hfront hrest

theorem Halt.Cuts.inFront {q : Halt} {p : α → Bytes → Prop} (hq : q.Cuts p) (next : α → Halt) :
    (q.orBehind p next).Cuts p := by
  intro a front back offset ha hback
  exact (hq a front back offset ha hback).mono fun _ => .inFront

theorem Halt.Tight.orBehind {q : Halt} {p : α → Bytes → Prop} {next : α → Halt}
    {r : α → β → Bytes → Prop} (hq : q.Cuts p) (hnext : ∀ a, (next a).Tight (r a)) :
    (q.orBehind p next).Tight (joined p r) where
  cuts := hq.orBehind fun a => (hnext a).cuts
  spills := by
    rintro b _ rest offset ⟨a, l, m, hl, hm, rfl⟩ hrest
    rw [List.append_assoc]
    exact .behind hl ((hnext a).spills b m rest (offset + l.length) hm hrest)

theorem tight_atEnd (q : Halt) : q.atEnd.Tight fun (_ : α) bytes => bytes = [] where
  cuts := cuts_of_nil fun _ _ h => h
  spills := by
    rintro _ _ rest offset rfl hrest
    exact ⟨[], rest, ⟨rfl, .inl ⟨hrest, rfl⟩⟩, rfl⟩

theorem cuts_int (w : Width) (field : String) : (short w.size field).Cuts (intAt w) := by
  intro v front back offset hv hback
  have hsize := congrArg List.length (encodeInt_eq_ok_iff.mp hv).2
  rw [List.length_append, Width.length_toBytes] at hsize
  have hpos := List.length_pos_iff.mpr hback
  exact ⟨field, w.size, offset, front.length, [], front, ⟨by omega, rfl, rfl⟩, rfl⟩

theorem cuts_flag (field : String) :
    (noFlag field).Cuts fun b bytes => (Field.flag b).encode = .ok bytes :=
  ((cuts_int .one field).inFront _).mono fun b _ h => ⟨flagCode b, h⟩

theorem cuts_sized (w : Width) (field : String) : (noSized w field).Cuts (sizedAt w) := by
  have hbody : ∀ n : Int, (badLength field n).Cuts fun (b : Bytes) bytes => n = b.length ∧ bytes = b := by
    rintro n b front back offset ⟨rfl, rfl⟩ hback
    have hpos := List.length_pos_iff.mpr hback
    rw [List.length_append]
    exact ⟨field, _, offset, front.length, [], front, .inr ⟨by omega, by omega, rfl, rfl⟩, rfl⟩
  refine ((cuts_int w _).orBehind hbody).mono ?_
  rintro b _ ⟨head, hhead, rfl⟩
  exact ⟨b, _, head, b, hhead, ⟨rfl, rfl⟩, rfl⟩

theorem cuts_string (field : String) :
    (noString field).Cuts fun s bytes => (Field.string s).encode = .ok bytes :=
  ((cuts_sized .two field).inFront _).mono fun s _ h => by
    obtain ⟨text, -, hhead⟩ := encode_string_eq_ok_iff.mp h
    exact ⟨text, hhead⟩

theorem cuts_blob (field : String) :
    (noSized .four field).Cuts fun b bytes => (Field.blob b).encode = .ok bytes :=
  (cuts_sized .four field).mono fun b _ h => ⟨b, encode_blob_eq_ok_iff.mp h⟩

def optional (p : α → Bytes → Prop) : Option α → Bytes → Prop
  | none, bytes => bytes = []
  | some a, bytes => p a bytes

theorem Halt.Cuts.flagged {q : Halt} {p : α → Bytes → Prop} (field : String) (h : q.Cuts p) :
    (q.flagged field).Cuts
      (joined (fun b bytes => (Field.flag b).encode = .ok bytes) fun present a bytes =>
        present = a.isSome ∧ optional p a bytes) := by
  refine (cuts_flag field).orBehind fun present => ?_
  rintro (_ | a) front back offset ⟨rfl, ha⟩ hback
  · exact (hback (List.append_eq_nil_iff.mp ha).2).elim
  · exact h a front back offset ha hback

theorem Halt.Tight.versioned {q : Halt} {p : α → Bytes → Prop} (version : Int) (h : q.Tight p) :
    (q.versioned version).Tight
      (joined (intAt .two) fun tag a bytes => tag = version ∧ p a bytes) := by
  refine .orBehind (cuts_int .two "version") fun tag => ⟨?_, ?_⟩
  · rintro a front back offset ⟨htag, ha⟩ hback
    exact (h.cuts a front back offset ha hback).mono fun _ ⟨taken, left, hcut, hbytes⟩ =>
      ⟨taken, left, .inr ⟨htag, hcut⟩, hbytes⟩
  · rintro a bytes rest offset ⟨htag, ha⟩ hrest
    obtain ⟨taken, left, hspill, hbytes⟩ := h.spills a bytes rest offset ha hrest
    exact ⟨taken, left, .inr ⟨htag, hspill⟩, hbytes⟩

end Wire

open Wire

structure Delimits {α : Type} (decode : Payload → Except DecodeError α) (kind : String) (b : Bytes) :
    Prop where
  truncated : ∀ front, front <+: b → front ≠ b → ∃ e field need offset available,
    decode (.bytes front) = .error e ∧ e.payload = kind ∧
      e.fault = .truncated field need offset available ∧
      e.reason = s!"truncated input reading {field}: need {need} bytes at offset {offset}, " ++
        s!"only {available} available" ∧
      offset ≤ front.length ∧ front.length < offset + need ∧ available = front.length - offset
  trailing : ∀ rest, rest ≠ [] → ∃ e,
    decode (.bytes (b ++ rest)) = .error e ∧ e.payload = kind ∧ e.fault = .trailing rest.length ∧
      e.reason = toString rest.length ++ " unexpected trailing bytes"

theorem Wire.delimits_of_tight {α : Type} {kind : String} {work : Read α} {q : Halt}
    {p : α → Bytes → Prop} {faulty : Nat → Fault → Prop} (hhalts : Halts work q) (htight : q.Tight p)
    (hsound : q.Sound faulty) (hframed : ∀ size field need offset available,
      faulty size (.truncated field need offset available) →
        Fault.Framed size (.truncated field need offset available))
    {a : α} {b : Bytes} (h : p a b) : Delimits (decode kind work) kind b where
  truncated := by
    rintro front ⟨back, rfl⟩ hproper
    have hback : back ≠ [] := fun hnil => hproper (by rw [hnil, List.append_nil])
    obtain ⟨field, need, offset, available, hcut⟩ := htight.cuts a front back 0 h hback
    obtain ⟨hsize, hshort⟩ := hframed _ _ _ _ _ (hsound.of_in hcut)
    rw [Nat.zero_add] at hsize
    have herror := (decode_eq_error_iff (e := ⟨kind, _⟩) hhalts).mpr ⟨rfl, hcut⟩
    exact ⟨_, field, need, offset, available, herror, rfl, rfl, rfl, by omega, by omega, by omega⟩
  trailing := by
    intro rest hrest
    have hspill := htight.spills a b rest 0 h hrest
    exact ⟨_, (decode_eq_error_iff (e := ⟨kind, _⟩) hhalts).mpr ⟨rfl, hspill⟩, rfl, rfl, rfl⟩

theorem Identity.tight_blame : blame.Tight fun (i : Identity) bytes => i.encode = .ok bytes := by
  have hbody := Halt.Tight.orBehind (cuts_string "host") fun host =>
    Halt.Tight.orBehind (cuts_int .four "port") fun port =>
      Halt.Tight.orBehind (cuts_flag "eligible") fun _ =>
        tight_atEnd (α := Identity) (invalid host port)
  refine (hbody.versioned version).mono fun i bytes h => ?_
  obtain ⟨tag, host, port, eligible, htag, hhost, hport, heligible, rfl⟩ := encode_eq_ok_iff.mp h
  exact ⟨version, tag, _, htag, ⟨rfl, i.host, host, _, hhost, ⟨i.port, port, _, hport,
    ⟨i.eligible, eligible, [], heligible, rfl, (List.append_nil _).symm⟩, rfl⟩, rfl⟩, rfl⟩

namespace Outcome

theorem cuts_primaryId :
    noPrimaryId.Cuts fun memberId bytes => encodeAll (idFields memberId) = .ok bytes := by
  refine ((cuts_string "primary_member_id").flagged _).mono fun memberId bytes h => ?_
  obtain ⟨l, r, hl, hr, rfl⟩ := encodeAll_cons_eq_ok_iff.mp h
  refine ⟨memberId, memberId.isSome, l, r, hl, ⟨rfl, ?_⟩, rfl⟩
  cases memberId with
  | none =>
    cases hr
    rfl
  | some id => exact (encodeAll_singleton (.string id)).symm.trans hr

theorem cuts_primaryIdentity :
    noPrimaryIdentity.Cuts fun identity bytes => encodeIdentity identity = .ok bytes := by
  refine (((cuts_blob "primary_identity").inFront _).flagged _).mono fun identity bytes h => ?_
  obtain ⟨l, r, hl, hr, rfl⟩ := encodeIdentity_eq_ok_iff.mp h
  cases identity with
  | none => exact ⟨none, false, l, r, hl, ⟨rfl, hr⟩, rfl⟩
  | some i =>
    obtain ⟨nested, _, hblob⟩ := hr
    exact ⟨some nested, true, l, r, hl, ⟨rfl, hblob⟩, rfl⟩

theorem tight_blame : blame.Tight fun (o : Outcome) bytes => o.encode = .ok bytes := by
  have hstatus : ∀ code, (unknownStatus code).Cuts fun s bytes => code = Status.code s ∧ bytes = [] :=
    fun _ => cuts_of_nil fun _ _ h => h.2
  have hbody := Halt.Tight.orBehind (cuts_int .two "status") fun code =>
    Halt.Tight.orBehind (hstatus code) fun s =>
      Halt.Tight.orBehind cuts_primaryId fun memberId =>
        Halt.Tight.orBehind cuts_primaryIdentity fun identity =>
          tight_atEnd (α := Outcome) (inconsistent s memberId identity)
  refine (hbody.versioned version).mono fun o bytes h => ?_
  obtain ⟨tag, code, id, identity, htag, hcode, hid, hidentity, rfl⟩ := encode_eq_ok_iff.mp h
  exact ⟨version, tag, _, htag, ⟨rfl, o.status.code, code, _, hcode, ⟨o.status, [], _, ⟨rfl, rfl⟩,
    ⟨o.primaryId?, id, _, hid, ⟨o.primaryIdentity?, identity, [], hidentity, rfl,
      (List.append_nil _).symm⟩, rfl⟩, rfl⟩, rfl⟩, rfl⟩

end Outcome

/--
Wherever the written form of an identity or of an outcome is cut short, the cut itself is what is reported,
with the bytes that were still there and the larger number that was needed; and whatever bytes are added to
it, their number is.
-/
theorem encodings_delimited :
    (∀ (i : Identity) (b : Bytes), i.encode = .ok b → Delimits Identity.decode "identity" b) ∧
      ∀ (o : Outcome) (b : Bytes), o.encode = .ok b → Delimits Outcome.decode "assignment" b := by
  constructor
  · intro i b h
    refine delimits_of_tight Identity.halts_read Identity.tight_blame Identity.sound_blame ?_ h
    rintro size field need offset available (hframed | ⟨_, _, hrule⟩)
    · exact hframed
    · cases hrule
  · intro o b h
    refine delimits_of_tight Outcome.halts_read Outcome.tight_blame Outcome.sound_blame ?_ h
    rintro size field need offset available (hframed | ⟨_, _, hother⟩ | ⟨_, _, _, hother⟩ |
      ⟨_, _, _, _, _, hother⟩)
    · exact hframed
    all_goals cases hother

def accented : Identity := ⟨"h\u00e9", 80, true, by decide, by decide, by decide⟩

theorem encodings_delimited_accented :
    Delimits Identity.decode "identity" [0, 0, 0, 3, 104, 195, 169, 0, 0, 0, 80, 1] ∧
      Delimits Outcome.decode "assignment"
        [0, 0, 0, 0, 1, 0, 1, 97, 1, 0, 0, 0, 12, 0, 0, 0, 3, 104, 195, 169, 0, 0, 0, 80, 1] := by
  constructor
  · exact encodings_delimited.1 accented _ (toOption_eq_some_iff.mp (by decide +kernel))
  · exact encodings_delimited.2 (.elected "a" accented) _ (toOption_eq_some_iff.mp (by decide +kernel))

end PrimaryElection
