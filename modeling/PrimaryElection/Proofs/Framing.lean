import PrimaryElection.Wire.Reader

/-!
Framing. `Reads work p` says that `work` accepts a value exactly where bytes stand that `p` allows for
it, and moves behind them; `ReadsAll` says the same of work that leaves nothing unread. The reads of
single fields accept what writing the field produces and nothing else.
-/

namespace PrimaryElection.Wire

variable {α β : Type}

def Reads (work : Read α) (p : α → Bytes → Prop) : Prop :=
  ∀ (c c' : Cursor) (a : α), work c = .ok a c' ↔
    ∃ bytes, p a bytes ∧ c.rest = bytes ++ c'.rest ∧ c'.offset = c.offset + bytes.length

def ReadsAll (work : Read α) (p : α → Bytes → Prop) : Prop :=
  ∀ (c c' : Cursor) (a : α), work c = .ok a c' ↔ p a c.rest ∧ c' = ⟨c.offset + c.rest.length, []⟩

theorem bind_eq_ok_iff {x : Read α} {f : α → Read β} {c c' : Cursor} {b : β} :
    (x >>= f) c = .ok b c' ↔ ∃ a m, x c = .ok a m ∧ f a m = .ok b c' := by
  simp only [bind, EStateM.bind]
  cases hx : x c with
  | ok a m =>
    constructor
    · intro h
      exact ⟨a, m, rfl, h⟩
    · rintro ⟨_, _, heq, h⟩
      injection heq with ha hm
      subst ha hm
      exact h
  | error e m => simp

theorem Reads.congr {work : Read α} {p q : α → Bytes → Prop} (h : Reads work p)
    (hpq : ∀ a bytes, p a bytes ↔ q a bytes) : Reads work q := by
  intro c c' a
  rw [h c c' a]
  simp only [hpq]

theorem ReadsAll.congr {work : Read α} {p q : α → Bytes → Prop} (h : ReadsAll work p)
    (hpq : ∀ a bytes, p a bytes ↔ q a bytes) : ReadsAll work q := by
  intro c c' a
  rw [h c c' a, hpq]

theorem Cursor.eq_of_taken_nil {c c' : Cursor} (hrest : c.rest = [] ++ c'.rest)
    (hoffset : c'.offset = c.offset + ([] : Bytes).length) : c = c' := by
  obtain ⟨offset, rest⟩ := c
  obtain ⟨offset', rest'⟩ := c'
  obtain rfl : rest = rest' := hrest
  obtain rfl : offset' = offset := hoffset
  rfl

theorem reads_pure (a : α) : Reads (pure a) (fun b bytes => b = a ∧ bytes = []) := by
  intro c c' b
  simp only [pure, EStateM.pure, EStateM.Result.ok.injEq]
  constructor
  · rintro ⟨rfl, rfl⟩
    exact ⟨[], ⟨rfl, rfl⟩, rfl, rfl⟩
  · rintro ⟨_, ⟨rfl, rfl⟩, hrest, hoffset⟩
    exact ⟨rfl, Cursor.eq_of_taken_nil hrest hoffset⟩

theorem reads_throw (fault : Fault) : Reads (throw fault : Read α) (fun _ _ => False) := by
  intro c c' a
  constructor
  · intro h
    cases h
  · rintro ⟨_, hfalse, _⟩
    exact hfalse.elim

theorem Reads.bind {x : Read α} {f : α → Read β} {p : α → Bytes → Prop} {q : α → β → Bytes → Prop}
    (hx : Reads x p) (hf : ∀ a, Reads (f a) (q a)) :
    Reads (x >>= f) (fun b bytes => ∃ a l r, p a l ∧ q a b r ∧ bytes = l ++ r) := by
  intro c c' b
  rw [bind_eq_ok_iff]
  constructor
  · rintro ⟨a, m, hxc, hfm⟩
    obtain ⟨l, hl, hrest, hoffset⟩ := (hx c m a).mp hxc
    obtain ⟨r, hr, hrest', hoffset'⟩ := (hf a m c' b).mp hfm
    refine ⟨l ++ r, ⟨a, l, r, hl, hr, rfl⟩, ?_, ?_⟩
    · rw [hrest, hrest', List.append_assoc]
    · rw [hoffset', hoffset, List.length_append, Nat.add_assoc]
  · rintro ⟨_, ⟨a, l, r, hl, hr, rfl⟩, hrest, hoffset⟩
    refine ⟨a, ⟨c.offset + l.length, r ++ c'.rest⟩, (hx _ _ _).mpr ⟨l, hl, ?_, rfl⟩,
      (hf a _ _ _).mpr ⟨r, hr, rfl, ?_⟩⟩
    · rw [hrest, List.append_assoc]
    · rw [hoffset, List.length_append, Nat.add_assoc]

theorem Reads.bind_all {x : Read α} {f : α → Read β} {p : α → Bytes → Prop}
    {q : α → β → Bytes → Prop} (hx : Reads x p) (hf : ∀ a, ReadsAll (f a) (q a)) :
    ReadsAll (x >>= f) (fun b bytes => ∃ a l r, p a l ∧ q a b r ∧ bytes = l ++ r) := by
  intro c c' b
  rw [bind_eq_ok_iff]
  constructor
  · rintro ⟨a, m, hxc, hfm⟩
    obtain ⟨l, hl, hrest, hoffset⟩ := (hx c m a).mp hxc
    obtain ⟨hr, rfl⟩ := (hf a m c' b).mp hfm
    refine ⟨⟨a, l, m.rest, hl, hr, hrest⟩, ?_⟩
    rw [hoffset, hrest, List.length_append, Nat.add_assoc]
  · rintro ⟨⟨a, l, r, hl, hr, hrest⟩, rfl⟩
    refine ⟨a, ⟨c.offset + l.length, r⟩, (hx _ _ _).mpr ⟨l, hl, hrest, rfl⟩,
      (hf a _ _ _).mpr ⟨hr, ?_⟩⟩
    rw [hrest, List.length_append, Nat.add_assoc]

theorem readsAll_finish_then {f : Read α} {ok : α → Prop}
    (hf : Reads f (fun a bytes => ok a ∧ bytes = [])) :
    ReadsAll (finish >>= fun _ => f) (fun a bytes => ok a ∧ bytes = []) := by
  intro c c' a
  have hfinish : ∀ m, finish c = .ok () m ↔ c.rest = [] ∧ m = c := by
    intro m
    cases hc : c.rest <;> simp [finish, hc, eq_comm]
  rw [bind_eq_ok_iff]
  constructor
  · rintro ⟨_, m, hm, hfm⟩
    obtain ⟨hrest, rfl⟩ := (hfinish m).mp hm
    obtain ⟨_, ⟨ha, rfl⟩, hrest', hoffset⟩ := (hf m c' a).mp hfm
    refine ⟨⟨ha, hrest⟩, ?_⟩
    cases c'
    simp_all
  · rintro ⟨⟨ha, hrest⟩, rfl⟩
    refine ⟨(), c, (hfinish c).mpr ⟨hrest, rfl⟩, (hf _ _ _).mpr ⟨[], ⟨ha, rfl⟩, hrest, ?_⟩⟩
    simp [hrest]

theorem reads_take (count : Nat) (field : String) :
    Reads (take count field) (fun b bytes => b.length = count ∧ bytes = b) := by
  intro c c' b
  simp only [take]
  constructor
  · intro h
    split at h
    · rename_i hle
      injection h with hb hc
      subst hb hc
      refine ⟨_, ⟨by simp [hle], rfl⟩, (List.take_append_drop count c.rest).symm, ?_⟩
      simp [hle]
    · cases h
  · rintro ⟨_, ⟨rfl, rfl⟩, hrest, hoffset⟩
    rw [if_pos (by simp [hrest])]
    cases c'
    simp_all

theorem encodeInt_eq_ok_iff {w : Width} {v : Int} {bytes : Bytes} :
    encodeInt w v = .ok bytes ↔ w.holds v = true ∧ bytes = w.toBytes v := by
  cases h : w.holds v <;> simp [encodeInt, h, eq_comm]

theorem reads_int (w : Width) (field : String) :
    Reads (readInt w field) (fun v bytes => encodeInt w v = .ok bytes) := by
  refine ((reads_take w.size field).bind fun b => reads_pure (w.ofBytes b)).congr ?_
  intro v bytes
  rw [encodeInt_eq_ok_iff]
  constructor
  · rintro ⟨b, _, _, ⟨hb, rfl⟩, ⟨rfl, rfl⟩, rfl⟩
    exact ⟨Width.holds_ofBytes hb, by rw [Width.toBytes_ofBytes hb, List.append_nil]⟩
  · rintro ⟨hv, rfl⟩
    exact ⟨_, _, [], ⟨w.length_toBytes v, rfl⟩, ⟨(Width.ofBytes_toBytes hv).symm, rfl⟩,
      (List.append_nil _).symm⟩

theorem reads_flag (field : String) :
    Reads (readFlag field) (fun b bytes => (Field.flag b).encode = .ok bytes) := by
  have hcode : ∀ v : Int, Reads (if v = 0 then pure false else if v = 1 then pure true
      else throw (.badFlag field v) : Read Bool) (fun b bytes => v = flagCode b ∧ bytes = []) := by
    intro v
    by_cases h0 : v = 0
    · rw [if_pos h0]
      exact (reads_pure false).congr fun b bytes => by cases b <;> simp [flagCode, h0]
    by_cases h1 : v = 1
    · rw [if_neg h0, if_pos h1]
      exact (reads_pure true).congr fun b bytes => by cases b <;> simp [flagCode, h1]
    rw [if_neg h0, if_neg h1]
    exact (reads_throw _).congr fun b bytes => by cases b <;> simp [flagCode, h0, h1]
  refine ((reads_int .one field).bind hcode).congr fun b bytes => ?_
  constructor
  · rintro ⟨_, l, _, hl, ⟨rfl, rfl⟩, rfl⟩
    rw [List.append_nil]
    exact hl
  · intro h
    exact ⟨_, bytes, [], h, ⟨rfl, rfl⟩, (List.append_nil _).symm⟩

theorem reads_sized (w : Width) (field : String) :
    Reads (readSized w field)
      (fun b bytes => ∃ head, encodeInt w b.length = .ok head ∧ bytes = head ++ b) := by
  have hbody : ∀ n : Int, Reads (do
      if n < 0 then throw (.negativeLength field n)
      take n.toNat field : Read Bytes) (fun b bytes => n = b.length ∧ bytes = b) := by
    intro n
    by_cases hn : n < 0
    · simp only [hn, if_true]
      refine ((reads_throw _).bind fun _ : Unit => reads_take n.toNat field).congr fun b bytes => ?_
      constructor
      · rintro ⟨_, _, _, hfalse, _⟩
        exact hfalse.elim
      · rintro ⟨rfl, _⟩
        omega
    · simp only [hn, if_false]
      exact (reads_take n.toNat field).congr fun b bytes => by
        constructor
        · rintro ⟨hlen, rfl⟩
          exact ⟨by omega, rfl⟩
        · rintro ⟨rfl, rfl⟩
          exact ⟨rfl, rfl⟩
  refine ((reads_int w (field ++ " length")).bind hbody).congr fun b bytes => ?_
  constructor
  · rintro ⟨_, l, _, hl, ⟨rfl, rfl⟩, rfl⟩
    exact ⟨l, hl, rfl⟩
  · rintro ⟨head, hhead, rfl⟩
    exact ⟨_, head, b, hhead, ⟨rfl, rfl⟩, rfl⟩

theorem ReadsAll.versioned {work : Read α} {p : α → Bytes → Prop} (version : Int)
    (h : ReadsAll work p) : ReadsAll (do
      let tag ← readInt .two "version"
      if tag ≠ version then throw (.unsupportedVersion tag)
      work) (fun a bytes => ∃ l r, encodeInt .two version = .ok l ∧ p a r ∧ bytes = l ++ r) := by
  have hbody : ∀ tag : Int, ReadsAll (do
      if tag ≠ version then throw (.unsupportedVersion tag)
      work) (fun a bytes => tag = version ∧ p a bytes) := by
    intro tag
    by_cases htag : tag = version
    · simp only [htag, ne_eq, not_true_eq_false, if_false, true_and]
      exact h
    · simp only [htag, ne_eq, not_false_eq_true, if_true, false_and]
      intro c c' a
      constructor
      · intro hthrow
        cases hthrow
      · rintro ⟨hfalse, _⟩
        exact hfalse.elim
  refine ((reads_int .two "version").bind_all hbody).congr fun a bytes => ?_
  constructor
  · rintro ⟨_, l, r, hl, ⟨rfl, hr⟩, rfl⟩
    exact ⟨l, r, hl, hr, rfl⟩
  · rintro ⟨l, r, hl, hr, rfl⟩
    exact ⟨_, l, r, hl, ⟨rfl, hr⟩, rfl⟩

theorem encode_blob_eq_ok_iff {b bytes : Bytes} : (Field.blob b).encode = .ok bytes ↔
    ∃ head, encodeInt .four b.length = .ok head ∧ bytes = head ++ b := by
  simp only [Field.encode]
  cases encodeInt .four b.length <;> simp [Except.map, eq_comm]

theorem reads_blob (field : String) :
    Reads (readBlob field) (fun b bytes => (Field.blob b).encode = .ok bytes) :=
  (reads_sized .four field).congr fun _ _ => encode_blob_eq_ok_iff.symm

theorem encode_string_eq_ok_iff {s : Text} {bytes : Bytes} : (Field.string s).encode = .ok bytes ↔
    ∃ text, utf8? s = some text ∧ ∃ head, encodeInt .two text.length = .ok head ∧ bytes = head ++ text := by
  simp only [Field.encode]
  cases utf8? s with
  | none => simp
  | some text =>
    by_cases hlong : maxText < text.length
    · have hholds : Width.two.holds text.length = false := by
        rw [Bool.eq_false_iff, ne_eq, Width.holds_iff]
        simp only [maxText] at hlong
        simp only [Width.bound]
        omega
      simp [hlong, encodeInt_eq_ok_iff, hholds]
    · simp only [if_neg hlong, Option.some.injEq, exists_eq_left']
      cases encodeInt .two text.length <;> simp [Except.map, eq_comm]

theorem reads_expectText (field : String) (b : Bytes) :
    Reads (expectText field b) (fun s bytes => utf8? s = some b ∧ bytes = []) := by
  unfold expectText
  cases ht : text? b with
  | none =>
    refine (reads_throw _).congr fun s bytes => ?_
    rw [← text?_eq_some_iff, ht]
    simp
  | some s =>
    refine (reads_pure s).congr fun s' bytes => ?_
    rw [← text?_eq_some_iff, ht, Option.some_inj, eq_comm (a := s)]

theorem reads_string (field : String) :
    Reads (readString field) (fun s bytes => (Field.string s).encode = .ok bytes) := by
  refine ((reads_sized .two field).bind (reads_expectText field)).congr fun s bytes => ?_
  rw [encode_string_eq_ok_iff]
  constructor
  · rintro ⟨text, _, _, ⟨head, hhead, rfl⟩, ⟨htext, rfl⟩, rfl⟩
    exact ⟨text, htext, head, hhead, by rw [List.append_nil]⟩
  · rintro ⟨text, htext, head, hhead, rfl⟩
    exact ⟨text, _, [], ⟨head, hhead, rfl⟩, ⟨htext, rfl⟩, (List.append_nil _).symm⟩

theorem decode_eq_ok_iff {kind : String} {work : Read α} {p : α → Bytes → Prop}
    (h : ReadsAll work p) {b : Bytes} {a : α} : decode kind work (.bytes b) = .ok a ↔ p a b := by
  have hread : decode kind work (.bytes b) = .ok a ↔ ∃ c, work (.start b) = .ok a c := by
    change (Reader.read ⟨kind, .start b⟩ work).1 = .ok a ↔ _
    simp only [Reader.read]
    cases work (.start b) <;> simp
  rw [hread]
  constructor
  · rintro ⟨c, hc⟩
    exact ((h _ _ _).mp hc).1
  · intro hp
    exact ⟨_, (h (.start b) _ a).mpr ⟨hp, rfl⟩⟩

end PrimaryElection.Wire
