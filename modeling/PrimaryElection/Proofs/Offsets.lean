import Mathlib.Data.Nat.Digits.Defs
import PrimaryElection.Proofs.Halting
import PrimaryElection.Proofs.ReadBack

/-!
Where a reader stands. What a read takes is accounted for whether it succeeds or fails: a field takes the
bytes that spell it, a fault takes what was read until it was found. So a reader always stands somewhere in
its data, behind where it stood before, whatever it is asked after whichever faults.
-/

namespace PrimaryElection.Wire

def unsigned (bytes : Bytes) : Nat := Nat.ofDigits 256 (bytes.reverse.map UInt8.toNat)

/-- Two's complement: with its highest bit set, a number is negative. -/
def signed (bytes : Bytes) : Int :=
  if bytes.headD 0 < 128 then unsigned bytes else unsigned bytes - 256 ^ bytes.length

theorem magnitude_eq_unsigned (bytes : Bytes) : magnitude bytes = unsigned bytes := by
  simp only [magnitude, unsigned, Nat.ofDigits_eq_foldr, List.foldr_map, List.foldr_reverse, Nat.cast_id,
    Nat.add_comm, Nat.mul_comm]

theorem unsigned_cons (b : UInt8) (bytes : Bytes) :
    unsigned (b :: bytes) = b.toNat * 256 ^ bytes.length + unsigned bytes := by
  simp only [unsigned, List.reverse_cons, List.map_append, Nat.ofDigits_append, List.map_singleton,
    Nat.ofDigits_singleton, List.length_map, List.length_reverse]
  rw [Nat.mul_comm, Nat.add_comm]

theorem Width.ofBytes_eq_signed {w : Width} {bytes : Bytes} (h : bytes.length = w.size) :
    w.ofBytes bytes = signed bytes := by
  cases bytes with
  | nil => cases w <;> cases h
  | cons b rest =>
    -- the first byte alone tells on which side of the bound the number is
    have hcases := w.ofBytes_cases (b :: rest)
    have hrest := magnitude_lt rest
    have hsign : b < 128 ↔ b.toNat < 128 := Iff.rfl
    rw [magnitude_eq_unsigned, unsigned_cons] at hcases
    rw [magnitude_eq_unsigned] at hrest
    simp only [signed, List.headD_cons, hsign, unsigned_cons, List.length_cons] at h ⊢
    cases w <;> simp only [size, Nat.reduceEqDiff, Nat.add_eq_right] at h <;>
      simp only [h, bound, Nat.pow_eq] at hcases hrest ⊢ <;> split <;> omega

theorem encodeInt_eq_ok_iff_signed {w : Width} {v : Int} {bytes : Bytes} :
    encodeInt w v = .ok bytes ↔ bytes.length = w.size ∧ v = signed bytes := by
  rw [encodeInt_eq_ok_iff]
  constructor
  · rintro ⟨hholds, rfl⟩
    have hsize := w.length_toBytes v
    exact ⟨hsize, (Width.ofBytes_toBytes hholds).symm.trans (Width.ofBytes_eq_signed hsize)⟩
  · rintro ⟨hsize, rfl⟩
    rw [← Width.ofBytes_eq_signed hsize]
    exact ⟨Width.holds_ofBytes hsize, (Width.toBytes_ofBytes hsize).symm⟩

theorem text?_eq_none_iff {bytes : Bytes} :
    text? bytes = none ↔ ¬ ByteArray.IsValidUTF8 ⟨bytes.toArray⟩ := by
  simp only [text?, string?, String.fromUTF8?, Option.map_eq_none_iff]
  split <;> simp_all

def Field.width : Field → Nat
  | .int w _ => w.size
  | .flag _ => 1
  | .string s => 2 + (utf8? s).elim 0 List.length
  | .blob b => 4 + b.length

inductive Spells : Field → Bytes → Prop
  | int {w : Width} {bytes : Bytes} (size : bytes.length = w.size) : Spells (.int w (signed bytes)) bytes
  | no : Spells (.flag false) [0]
  | yes : Spells (.flag true) [1]
  | string {s : Text} {head text : Bytes} (encoding : utf8? s = some text) (size : head.length = 2)
    (length : signed head = text.length) : Spells (.string s) (head ++ text)
  | blob {b head : Bytes} (size : head.length = 4) (length : signed head = b.length) :
    Spells (.blob b) (head ++ b)

theorem spells_of_encode {f : Field} {bytes : Bytes} (h : f.encode = .ok bytes) : Spells f bytes := by
  cases f with
  | int w v =>
    obtain ⟨hsize, rfl⟩ := encodeInt_eq_ok_iff_signed.mp h
    exact .int hsize
  | flag b =>
    rw [encode_flag] at h
    cases h
    cases b with
    | false => exact .no
    | true => exact .yes
  | string s =>
    obtain ⟨text, htext, head, hhead, rfl⟩ := encode_string_eq_ok_iff.mp h
    obtain ⟨hsize, hlength⟩ := encodeInt_eq_ok_iff_signed.mp hhead
    exact .string htext hsize hlength.symm
  | blob b =>
    obtain ⟨head, hhead, rfl⟩ := encode_blob_eq_ok_iff.mp h
    obtain ⟨hsize, hlength⟩ := encodeInt_eq_ok_iff_signed.mp hhead
    exact .blob hsize hlength.symm

theorem Spells.length {f : Field} {bytes : Bytes} (h : Spells f bytes) : bytes.length = f.width := by
  cases h with
  | int size => exact size
  | no => rfl
  | yes => rfl
  | string encoding size _ => rw [List.length_append, size, Field.width, encoding, Option.elim_some]
  | blob size _ => rw [List.length_append, size, Field.width]

namespace Kind

def prefix? : Kind → Option Width
  | string => some .two
  | blob => some .four
  | int _ | flag => none

def fixed? : Kind → Option Width
  | int w => some w
  | flag => some .one
  | string | blob => none

def halt (field : String) : Kind → Halt
  | int w => short w.size field
  | flag => noFlag field
  | string => noString field
  | blob => noSized .four field

theorem halts (k : Kind) (name : String) : Halts (k.read name) (k.halt name) := by
  cases k with
  | int w => exact (halts_int w name).bind_pure _ (reads_int w name)
  | flag => exact (halts_flag name).bind_pure _ (reads_flag name)
  | string => exact (halts_string name).bind_pure _ (reads_string name)
  | blob => exact (halts_sized .four name).bind_pure _ (reads_blob name)

end Kind

/-- Why a request is refused at an offset, what it has taken by then, and what is left. -/
inductive Refusal (offset : Nat) : Request → Fault → Bytes → Bytes → Prop
  | short {k : Kind} {w : Width} {left : Bytes} (name : String) (fixed : k.fixed? = some w)
    (cut : left.length < w.size) :
    Refusal offset (.field k name) (.truncated name w.size offset left.length) [] left
  | flag {b : UInt8} {left : Bytes} (name : String) (no : b ≠ 0) (yes : b ≠ 1) :
    Refusal offset (.field .flag name) (.badFlag name (signed [b])) [b] left
  | shortLength {k : Kind} {w : Width} {left : Bytes} (name : String) (sized : k.prefix? = some w)
    (cut : left.length < w.size) :
    Refusal offset (.field k name) (.truncated (name ++ " length") w.size offset left.length) [] left
  | negative {k : Kind} {w : Width} {head left : Bytes} (name : String) (sized : k.prefix? = some w)
    (size : head.length = w.size) (negative : signed head < 0) :
    Refusal offset (.field k name) (.negativeLength name (signed head)) head left
  | overrun {k : Kind} {w : Width} {head left : Bytes} {n : Nat} (name : String)
    (sized : k.prefix? = some w) (size : head.length = w.size) (length : signed head = n)
    (cut : left.length < n) :
    Refusal offset (.field k name) (.truncated name n (offset + w.size) left.length) head left
  | noText {head body left : Bytes} (name : String) (size : head.length = 2)
    (length : signed head = body.length) (noText : ¬ ByteArray.IsValidUTF8 ⟨body.toArray⟩) :
    Refusal offset (.field .string name) (.notUtf8 name) (head ++ body) left
  | trailing {left : Bytes} (more : left ≠ []) :
    Refusal offset .finish (.trailing left.length) [] left

theorem refusal_of_short {offset : Nat} {k : Kind} {w : Width} {name : String} {fault : Fault}
    {taken left : Bytes} (hw : k.fixed? = some w)
    (h : short w.size name fault offset taken left) :
    Refusal offset (.field k name) fault taken left := by
  obtain ⟨hcut, rfl, rfl⟩ := h
  exact .short name hw hcut

theorem refusal_of_sized {offset : Nat} {k : Kind} {w : Width} {name : String} {fault : Fault}
    {taken left : Bytes} (hw : k.prefix? = some w)
    (h : noSized w name fault offset taken left) :
    Refusal offset (.field k name) fault taken left := by
  rcases h with ⟨hcut, rfl, rfl⟩ | ⟨n, head, r, hhead, rfl, hlength⟩
  · exact .shortLength name hw hcut
  obtain ⟨hsize, rfl⟩ := encodeInt_eq_ok_iff_signed.mp hhead
  rcases hlength with ⟨hneg, rfl, rfl⟩ | ⟨hpos, hcut, rfl, rfl⟩
  · rw [List.append_nil]
    exact .negative name hw hsize hneg
  · rw [List.append_nil, hsize]
    exact .overrun name hw hsize (Int.toNat_of_nonneg hpos).symm hcut

theorem refusal_of_flag {offset : Nat} {name : String} {fault : Fault} {taken left : Bytes}
    (h : noFlag name fault offset taken left) :
    Refusal offset (.field .flag name) fault taken left := by
  rcases h with hshort | ⟨v, head, _, hhead, rfl, ⟨hno, hyes⟩, rfl, rfl⟩
  · exact refusal_of_short (w := .one) rfl hshort
  obtain ⟨hsize, hv⟩ := encodeInt_eq_ok_iff_signed.mp hhead
  obtain ⟨b, rfl⟩ := List.length_eq_one_iff.mp hsize
  rw [List.append_nil, hv]
  rw [hv] at hno hyes
  refine .flag name ?_ ?_
  · rintro rfl
    exact hno (by decide +kernel)
  · rintro rfl
    exact hyes (by decide +kernel)

theorem refusal_of_string {offset : Nat} {name : String} {fault : Fault} {taken left : Bytes}
    (h : noString name fault offset taken left) :
    Refusal offset (.field .string name) fault taken left := by
  rcases h with hsized | ⟨body, _, _, ⟨head, hhead, rfl⟩, rfl, hbody, rfl, rfl⟩
  · exact refusal_of_sized (w := .two) rfl hsized
  · obtain ⟨hsize, hlength⟩ := encodeInt_eq_ok_iff_signed.mp hhead
    rw [List.append_nil]
    exact .noText name hsize hlength.symm (text?_eq_none_iff.mp hbody)

theorem refusal_of_halt {offset : Nat} {k : Kind} {name : String} {fault : Fault} {taken left : Bytes}
    (h : k.halt name fault offset taken left) : Refusal offset (.field k name) fault taken left := by
  cases k with
  | int w => exact refusal_of_short rfl h
  | flag => exact refusal_of_flag h
  | string => exact refusal_of_string h
  | blob => exact refusal_of_sized rfl h

inductive Reply (kind : String) (offset : Nat) :
    Request → Except DecodeError (Option Field) → Bytes → Bytes → Prop
  | field {f : Field} {taken : Bytes} (name : String) (left : Bytes) (spells : Spells f taken)
    (width : taken.length = f.width) :
    Reply kind offset (.field f.kind name) (.ok (some f)) taken left
  | done : Reply kind offset .finish (.ok none) [] []
  | refused {q : Request} {fault : Fault} {taken left : Bytes} (why : Refusal offset q fault taken left) :
    Reply kind offset q (.error ⟨kind, fault⟩) taken left

namespace Reader

def Stands (r : Reader) (kind : String) (data : Bytes) : Prop :=
  r.kind = kind ∧ r.cursor.offset ≤ data.length ∧ r.cursor.rest = data.drop r.cursor.offset

def Moves (r : Reader) (q : Request) (kind : String) (data : Bytes) : Prop :=
  (r.read q.read).2.Stands kind data ∧
    ∃ taken, data.drop r.cursor.offset = taken ++ data.drop (r.read q.read).2.cursor.offset ∧
      (r.read q.read).2.cursor.offset = r.cursor.offset + taken.length ∧
      Reply kind r.cursor.offset q (r.read q.read).1 taken (data.drop (r.read q.read).2.cursor.offset)

theorem reply_of_read (r : Reader) (q : Request) : (r.read q.read).2.kind = r.kind ∧
    ∃ taken, r.cursor.rest = taken ++ (r.read q.read).2.cursor.rest ∧
      (r.read q.read).2.cursor.offset = r.cursor.offset + taken.length ∧
      Reply r.kind r.cursor.offset q (r.read q.read).1 taken (r.read q.read).2.cursor.rest := by
  cases q with
  | field k name =>
    cases hread : k.read name r.cursor with
    | ok f c =>
      have hrun : r.read (Request.field k name).read = (.ok (some f), { r with cursor := c }) := by
        rw [read, show (Request.field k name).read r.cursor = .ok (some f) c from
          bind_eq_ok_iff.mpr ⟨f, c, hread, rfl⟩]
      obtain ⟨taken, ⟨rfl, hencode⟩, hrest, hoffset⟩ := (k.reads name r.cursor c f).mp hread
      have hspells := spells_of_encode hencode
      rw [hrun]
      exact ⟨rfl, taken, hrest, hoffset, .field name c.rest hspells hspells.length⟩
    | error fault c =>
      have hrun : r.read (Request.field k name).read =
          (.error ⟨r.kind, fault⟩, { r with cursor := c }) := by
        rw [read, show (Request.field k name).read r.cursor = .error fault c from
          bind_eq_error_iff.mpr (.inl hread)]
      obtain ⟨taken, hhalt, hrest, hoffset⟩ := (k.halts name r.cursor c fault).mp hread
      rw [hrun]
      exact ⟨rfl, taken, hrest, hoffset, .refused (refusal_of_halt hhalt)⟩
  | finish =>
    by_cases hrest : r.cursor.rest = []
    · have hrun : r.read Request.finish.read = (.ok none, r) := by
        simp [read, Request.read, Functor.map, EStateM.map, Wire.finish, hrest]
      rw [hrun]
      refine ⟨rfl, [], rfl, rfl, ?_⟩
      rw [hrest]
      exact .done
    · have hrun : r.read Request.finish.read =
          (.error ⟨r.kind, .trailing r.cursor.rest.length⟩, r) := by
        simp [read, Request.read, Functor.map, EStateM.map, Wire.finish, hrest]
      rw [hrun]
      exact ⟨rfl, [], rfl, rfl, .refused (.trailing hrest)⟩

theorem Stands.moves {r : Reader} {kind : String} {data : Bytes} (h : r.Stands kind data)
    (q : Request) : r.Moves q kind data := by
  obtain ⟨rfl, hle, hrest⟩ := h
  obtain ⟨hkind, taken, htaken, hoffset, hreply⟩ := r.reply_of_read q
  rw [hrest] at htaken
  have hleft : (r.read q.read).2.cursor.rest = data.drop (r.read q.read).2.cursor.offset := by
    rw [hoffset, ← List.drop_drop, htaken, List.drop_left]
  have hlength : taken.length ≤ data.length - r.cursor.offset := by
    rw [← List.length_drop, htaken, List.length_append]
    omega
  rw [hleft] at htaken hreply
  exact ⟨⟨hkind, by omega, hleft⟩, taken, htaken, hoffset, hreply⟩

theorem stands_start (kind : String) (data : Bytes) : Stands ⟨kind, .start data⟩ kind data :=
  ⟨rfl, Nat.zero_le _, rfl⟩

theorem Stands.answers {r : Reader} {kind : String} {data : Bytes} (h : r.Stands kind data)
    (qs : List Request) : (r.answers qs).2.Stands kind data ∧
      (r.cursor.offset :: ((r.answers qs).1.map Prod.snd ++ [data.length])).Pairwise (· ≤ ·) := by
  induction qs generalizing r with
  | nil => exact ⟨h, List.pairwise_pair.mpr h.2.1⟩
  | cons q qs ih =>
    -- the rest is asked from where the first request has left the reader
    obtain ⟨hstands, taken, _, hoffset, _⟩ := h.moves q
    obtain ⟨hend, hsorted⟩ := ih hstands
    have hle : r.cursor.offset ≤ (r.read q.read).2.cursor.offset := by
      rw [hoffset]
      exact Nat.le_add_right _ _
    refine ⟨hend, List.pairwise_cons.mpr ⟨fun offset hmem => ?_, hsorted⟩⟩
    rcases List.mem_cons.mp hmem with rfl | hbehind
    · exact hle
    · exact Nat.le_trans hle ((List.pairwise_cons.mp hsorted).1 offset hbehind)

end Reader

/--
Whatever has been asked of a reader, and whether or not it was answered, the offsets behind the answers never
decrease and none is past the end of the data; the reader still reads the same payload, with the data from
its offset on ahead of it. The next request moves it over the bytes it takes and no others. These spell the
field that is returned and are as many as its width, or they are what was read before the fault was found:
none where a part of fixed width is cut short, one for a flag that is none, the length in front where that
is negative or more than what is left, and the text with its length where it is no text.
-/
theorem Reader.offset_discipline (kind : String) (data : Bytes) (qs : List Request) :
    ∃ r, Reader.start kind (.bytes data) = .ok r ∧ (r.answers qs).2.Stands kind data ∧
      (0 :: ((r.answers qs).1.map Prod.snd ++ [data.length])).Pairwise (· ≤ ·) ∧
      ∀ q, (r.answers qs).2.Moves q kind data := by
  have hstart := Reader.stands_start kind data
  obtain ⟨hstands, hsorted⟩ := hstart.answers qs
  exact ⟨_, rfl, hstands, hsorted, fun q => hstands.moves q⟩

example : (Reader.answers ⟨"test", .start [255, 255, 1, 2]⟩ [.field .string "a", .field .flag "b",
    .field .flag "c", .finish]).1.map Prod.snd = [2, 3, 4, 4] := by decide +kernel

end PrimaryElection.Wire
