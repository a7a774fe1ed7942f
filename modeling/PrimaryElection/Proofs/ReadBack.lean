import PrimaryElection.Proofs.Codec

namespace PrimaryElection.Wire

def Field.Fits : Field → Prop
  | .int w v => -w.bound ≤ v ∧ v < w.bound
  | .flag _ => True
  | .string s => ∃ text, utf8? s = some text ∧ text.length ≤ 32767
  | .blob b => b.length ≤ 2147483647

namespace Writer

def after (w : Writer) (fs : List Field) : Writer := fs.foldl (fun w f => (w.write f).2) w

def added (w : Writer) : List Field → List (Field × Nat)
  | [] => []
  | f :: fs =>
    match w.write f with
    | (none, w') => (f, w'.size) :: w'.added fs
    | (some _, w') => w'.added fs

end Writer

def Reader.answers (r : Reader) : List Request → List (Except DecodeError (Option Field) × Nat) × Reader
  | [] => ([], r)
  | q :: qs =>
    let (answer, r') := r.read q.read
    let (rest, r'') := r'.answers qs
    ((answer, r'.cursor.offset) :: rest, r'')

theorem exists_encode_iff_fits (f : Field) : (∃ bytes, f.encode = .ok bytes) ↔ f.Fits := by
  cases f with
  | int w v =>
    simp only [Field.encode, encodeInt_eq_ok_iff, Width.holds_iff, Field.Fits, exists_and_left,
      exists_eq, and_true]
  | flag b => exact ⟨fun _ => trivial, fun _ => ⟨_, encode_flag b⟩⟩
  | string s =>
    rw [Field.Fits]
    constructor
    · rintro ⟨bytes, hbytes⟩
      obtain ⟨text, htext, head, hhead, -⟩ := encode_string_eq_ok_iff.mp hbytes
      have hholds := Width.holds_iff.mp (encodeInt_eq_ok_iff.mp hhead).1
      simp only [Width.bound] at hholds
      exact ⟨text, htext, by omega⟩
    · rintro ⟨text, htext, hshort⟩
      exact ⟨_, (encode_string htext).trans (if_neg (Nat.not_lt.mpr hshort))⟩
  | blob b =>
    constructor
    · rintro ⟨bytes, hbytes⟩
      obtain ⟨head, hhead, rfl⟩ := encode_blob_eq_ok_iff.mp hbytes
      have hholds := Width.holds_iff.mp (encodeInt_eq_ok_iff.mp hhead).1
      simp only [Width.bound] at hholds
      simp only [Field.Fits]
      omega
    · intro hfits
      exact ⟨_, encode_blob (Nat.lt_succ_of_le hfits)⟩

theorem Writer.write_of_encode {f : Field} {bytes : Bytes} (w : Writer) (h : f.encode = .ok bytes) :
    w.write f = (none, ⟨w.bytes ++ bytes⟩) := by
  rw [write, h]

theorem Writer.write_cases (w : Writer) (f : Field) :
    (f.Fits ∧ ∃ bytes, f.encode = .ok bytes ∧ w.write f = (none, ⟨w.bytes ++ bytes⟩)) ∨
      (¬ f.Fits ∧ ∃ e, w.write f = (some e, w)) := by
  cases hf : f.encode with
  | ok bytes => exact .inl ⟨(exists_encode_iff_fits f).mp ⟨bytes, hf⟩, bytes, rfl, w.write_of_encode hf⟩
  | error e =>
    refine .inr ⟨fun hfits => ?_, e, by rw [write, hf]⟩
    obtain ⟨bytes, hbytes⟩ := (exists_encode_iff_fits f).mpr hfits
    rw [hf] at hbytes
    cases hbytes

theorem Reads.bind_return {α : Type} {x : Read α} {g : α → Field} {k : Kind}
    (hx : Reads x fun a bytes => (g a).encode = .ok bytes) (hk : ∀ f : Field, f.kind = k ↔ ∃ a, f = g a) :
    Reads (x >>= fun a => pure (g a)) fun f bytes => f.kind = k ∧ f.encode = .ok bytes := by
  refine (hx.bind fun a => reads_pure (g a)).congr fun f bytes => ?_
  rw [hk]
  constructor
  · rintro ⟨a, l, _, hl, ⟨rfl, rfl⟩, rfl⟩
    rw [List.append_nil]
    exact ⟨⟨a, rfl⟩, hl⟩
  · rintro ⟨⟨a, rfl⟩, hf⟩
    exact ⟨a, bytes, [], hf, ⟨rfl, rfl⟩, (List.append_nil _).symm⟩

theorem Kind.reads (k : Kind) (name : String) :
    Reads (k.read name) fun f bytes => f.kind = k ∧ f.encode = .ok bytes := by
  cases k with
  | int w => exact (reads_int w name).bind_return fun f => by cases f <;> simp [Field.kind, eq_comm]
  | flag => exact (reads_flag name).bind_return fun f => by cases f <;> simp [Field.kind]
  | string => exact (reads_string name).bind_return fun f => by cases f <;> simp [Field.kind]
  | blob => exact (reads_blob name).bind_return fun f => by cases f <;> simp [Field.kind]

theorem read_of_encode {f : Field} {bytes : Bytes} (h : f.encode = .ok bytes) (name : String)
    (offset : Nat) (rest : Bytes) :
    f.kind.read name ⟨offset, bytes ++ rest⟩ = .ok f ⟨offset + bytes.length, rest⟩ :=
  (f.kind.reads name _ _ f).mpr ⟨bytes, ⟨rfl, h⟩, rfl, rfl⟩

theorem Reader.read_of_encode {f : Field} {bytes : Bytes} (h : f.encode = .ok bytes)
    (kind name : String) (offset : Nat) (rest : Bytes) :
    Reader.read ⟨kind, ⟨offset, bytes ++ rest⟩⟩ (Request.field f.kind name).read =
      (.ok (some f), ⟨kind, ⟨offset + bytes.length, rest⟩⟩) := by
  have hread : (Request.field f.kind name).read ⟨offset, bytes ++ rest⟩ =
      .ok (some f) ⟨offset + bytes.length, rest⟩ :=
    bind_eq_ok_iff.mpr ⟨f, _, Wire.read_of_encode h name offset rest, rfl⟩
  rw [read, hread]

theorem answers_of_added (kind : String) (fs : List Field) (w : Writer) (rest : Bytes)
    (asked : List (Kind × String)) (hasked : asked.map Prod.fst = (w.added fs).map (·.1.kind)) :
    ∃ body, (w.after fs).bytes = w.bytes ++ body ∧
      Reader.answers ⟨kind, ⟨w.size, body ++ rest⟩⟩ (asked.map fun q => .field q.1 q.2) =
        ((w.added fs).map fun e => (.ok (some e.1), e.2), ⟨kind, ⟨(w.after fs).size, rest⟩⟩) := by
  induction fs generalizing w asked with
  | nil =>
    obtain rfl : asked = [] := List.map_eq_nil_iff.mp hasked
    exact ⟨[], (List.append_nil _).symm, rfl⟩
  | cons f fs ih =>
    rw [Writer.added] at hasked ⊢
    rw [Writer.after, List.foldl_cons, ← Writer.after]
    rcases w.write_cases f with ⟨_, bytes, hbytes, hwrite⟩ | ⟨_, e, hwrite⟩
    · rw [hwrite] at hasked ⊢
      obtain ⟨⟨_, name⟩, asked, rfl, rfl, hrest⟩ := List.map_eq_cons_iff.mp hasked
      obtain ⟨body, hbody, hanswers⟩ := ih ⟨w.bytes ++ bytes⟩ asked hrest
      have hsize : (⟨w.bytes ++ bytes⟩ : Writer).size = w.size + bytes.length := List.length_append
      refine ⟨bytes ++ body, by rw [hbody, List.append_assoc], ?_⟩
      rw [List.map_cons, Reader.answers, List.append_assoc, Reader.read_of_encode hbytes, ← hsize]
      simp only [hanswers, List.map_cons]
    · rw [hwrite] at hasked ⊢
      exact ih w asked hasked

theorem Reader.finish_eq_ok_iff (r : Reader) :
    (r.read Request.finish.read).1 = .ok none ↔ r.cursor.rest = [] := by
  by_cases hrest : r.cursor.rest = [] <;>
    simp [read, Request.read, Functor.map, EStateM.map, Wire.finish, hrest]

/--
Writing fails exactly on the fields that there is no room for, and these leave no trace. What a new writer
holds after any writes, with any bytes behind it, is read back field by field when the kinds of the others
are asked for: each answer is the field, each offset the size that the writer had reached with it, and what
is not read are the bytes behind. The reader is done exactly when there are none.
-/
theorem writes_read_back (kind : String) (fs : List Field) (rest : Bytes) (asked : List (Kind × String))
    (hasked : asked.map Prod.fst = (Writer.added {} fs).map (·.1.kind)) :
    (∀ (w : Writer) (f : Field), ((w.write f).1 = none ↔ f.Fits) ∧ (¬ f.Fits → (w.write f).2 = w)) ∧
      ∃ r r', Reader.start kind (.bytes ((Writer.after {} fs).bytes ++ rest)) = .ok r ∧
        r.answers (asked.map fun q => .field q.1 q.2) =
          ((Writer.added {} fs).map fun e => (.ok (some e.1), e.2), r') ∧
        r'.cursor.offset = (Writer.after {} fs).size ∧ r'.cursor.rest = rest ∧
        ((r'.read Request.finish.read).1 = .ok none ↔ rest = []) := by
  constructor
  · intro w f
    rcases w.write_cases f with ⟨hfits, _, _, hwrite⟩ | ⟨hfits, _, hwrite⟩
    · simp [hwrite, hfits]
    · simp [hwrite, hfits]
  · obtain ⟨body, hbody, hanswers⟩ := answers_of_added kind fs {} rest asked hasked
    obtain rfl : (Writer.after {} fs).bytes = body := hbody
    exact ⟨_, _, rfl, hanswers, rfl, rfl, Reader.finish_eq_ok_iff _⟩

def mixedWrites : List Field :=
  [.int .one 128, .int .one (-128), .string "h\u00e9", .int .two 32768, .flag true, .blob [7, 8]]

theorem writes_read_back_mixed :
    (Writer.added {} mixedWrites).map Prod.snd = [1, 6, 7, 13] ∧
      ∃ r r', Reader.start "test" (.bytes ((Writer.after {} mixedWrites).bytes ++ [9])) = .ok r ∧
        r.answers [.field (.int .one) "a", .field .string "b", .field .flag "c", .field .blob "d"] =
          ([(.ok (some (.int .one (-128))), 1), (.ok (some (.string "h\u00e9")), 6),
            (.ok (some (.flag true)), 7), (.ok (some (.blob [7, 8])), 13)], r') ∧
        r'.cursor.rest = [9] ∧ ¬ (r'.read Request.finish.read).1 = .ok none := by
  have hadded : Writer.added {} mixedWrites =
      [(.int .one (-128), 1), (.string "h\u00e9", 6), (.flag true, 7), (.blob [7, 8], 13)] := by decide +kernel
  obtain ⟨_, r, r', hstart, hanswers, _, hrest, hfinish⟩ := writes_read_back "test" mixedWrites [9]
    [(.int .one, "a"), (.string, "b"), (.flag, "c"), (.blob, "d")] (by rw [hadded]; rfl)
  rw [hadded] at hanswers ⊢
  exact ⟨rfl, r, r', hstart, hanswers, hrest, fun h => List.cons_ne_nil _ _ (hfinish.mp h)⟩

end PrimaryElection.Wire
