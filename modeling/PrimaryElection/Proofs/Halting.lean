import PrimaryElection.Proofs.Framing

/-!
Halting. `Reads` says which bytes work accepts; `Halts` says with which fault it halts otherwise, what it has
taken by then and what is left ahead. Together they account for everything that a reader may be handed.
-/

namespace PrimaryElection.Wire

variable {α β : Type}

/-- The fault that is found at an offset behind the bytes taken, with the bytes left ahead. -/
abbrev Halt := Fault → Nat → Bytes → Bytes → Prop

def Halts (work : Read α) (q : Halt) : Prop :=
  ∀ (c c' : Cursor) (fault : Fault), work c = .error fault c' ↔
    ∃ taken, q fault c.offset taken c'.rest ∧ c.rest = taken ++ c'.rest ∧
      c'.offset = c.offset + taken.length

/-- The work halts at once, or behind bytes that `p` allows for a value. -/
def Halt.orBehind (q : Halt) (p : α → Bytes → Prop) (next : α → Halt) : Halt :=
  fun fault offset taken left => q fault offset taken left ∨
    ∃ a l r, p a l ∧ taken = l ++ r ∧ next a fault (offset + l.length) r left

def never : Halt := fun _ _ _ _ => False

def always (fault : Fault) : Halt := fun fault' _ taken _ => fault' = fault ∧ taken = []

def short (count : Nat) (field : String) : Halt := fun fault offset taken left =>
  left.length < count ∧ fault = .truncated field count offset left.length ∧ taken = []

theorem bind_eq_error_iff {x : Read α} {f : α → Read β} {c c' : Cursor} {fault : Fault} :
    (x >>= f) c = .error fault c' ↔
      x c = .error fault c' ∨ ∃ a m, x c = .ok a m ∧ f a m = .error fault c' := by
  simp only [bind, EStateM.bind]
  cases hx : x c with
  | ok a m =>
    constructor
    · exact fun h => .inr ⟨a, m, rfl, h⟩
    · rintro (herror | ⟨_, _, hok, h⟩)
      · cases herror
      · cases hok
        exact h
  | error e m => simp

theorem Halts.congr {work : Read α} {q q' : Halt} (h : Halts work q)
    (hq : ∀ fault offset taken left, q fault offset taken left ↔ q' fault offset taken left) :
    Halts work q' := by
  intro c c' fault
  rw [h c c' fault]
  simp only [hq]

theorem halts_pure (a : α) : Halts (pure a) never := by
  intro c c' fault
  constructor
  · intro h
    cases h
  · rintro ⟨_, hfalse, _⟩
    exact hfalse.elim

theorem halts_throw (fault : Fault) : Halts (throw fault : Read α) (always fault) := by
  intro c c' fault'
  constructor
  · intro h
    cases h
    exact ⟨[], ⟨rfl, rfl⟩, rfl, rfl⟩
  · rintro ⟨_, ⟨rfl, rfl⟩, hrest, hoffset⟩
    obtain rfl := Cursor.eq_of_taken_nil hrest hoffset
    rfl

theorem Halts.bind {x : Read α} {f : α → Read β} {p : α → Bytes → Prop} {q : Halt} {next : α → Halt}
    (hreads : Reads x p) (hx : Halts x q) (hf : ∀ a, Halts (f a) (next a)) :
    Halts (x >>= f) (q.orBehind p next) := by
  intro c c' fault
  rw [bind_eq_error_iff]
  constructor
  · rintro (hxc | ⟨a, m, hxc, hfm⟩)
    · obtain ⟨taken, hq, hrest, hoffset⟩ := (hx c c' fault).mp hxc
      exact ⟨taken, .inl hq, hrest, hoffset⟩
    · obtain ⟨l, hl, hrest, hoffset⟩ := (hreads c m a).mp hxc
      obtain ⟨r, hr, hrest', hoffset'⟩ := (hf a m c' fault).mp hfm
      rw [hoffset] at hr
      refine ⟨l ++ r, .inr ⟨a, l, r, hl, rfl, hr⟩, ?_, ?_⟩
      · rw [hrest, hrest', List.append_assoc]
      · rw [hoffset', hoffset, List.length_append, Nat.add_assoc]
  · rintro ⟨taken, hq | ⟨a, l, r, hl, rfl, hr⟩, hrest, hoffset⟩
    · exact .inl ((hx c c' fault).mpr ⟨taken, hq, hrest, hoffset⟩)
    · refine .inr ⟨a, ⟨c.offset + l.length, r ++ c'.rest⟩, (hreads _ _ _).mpr ⟨l, hl, ?_, rfl⟩,
        (hf a _ _ _).mpr ⟨r, hr, rfl, ?_⟩⟩
      · rw [hrest, List.append_assoc]
      · rw [hoffset, List.length_append, Nat.add_assoc]

theorem Halts.bind_pure {x : Read α} {p : α → Bytes → Prop} {q : Halt} (f : α → β) (hreads : Reads x p)
    (hx : Halts x q) : Halts (x >>= fun a => pure (f a)) q := by
  refine (hx.bind hreads fun a => halts_pure (f a)).congr fun fault offset taken left => ?_
  simp [Halt.orBehind, never]

theorem halts_take (count : Nat) (field : String) : Halts (take count field) (short count field) := by
  intro c c' fault
  unfold take
  by_cases h : count ≤ c.rest.length
  · rw [if_pos h]
    constructor
    · intro hc
      cases hc
    · rintro ⟨_, ⟨hshort, _, rfl⟩, hrest, _⟩
      rw [hrest, List.nil_append] at h
      exact absurd h (Nat.not_le.mpr hshort)
  · rw [if_neg h]
    constructor
    · intro hc
      cases hc
      exact ⟨[], ⟨Nat.not_le.mp h, rfl, rfl⟩, rfl, rfl⟩
    · rintro ⟨_, ⟨_, rfl, rfl⟩, hrest, hoffset⟩
      obtain rfl := Cursor.eq_of_taken_nil hrest hoffset
      rfl

theorem halts_int (w : Width) (field : String) : Halts (readInt w field) (short w.size field) :=
  (halts_take w.size field).bind_pure w.ofBytes (reads_take w.size field)

def intAt (w : Width) (v : Int) (bytes : Bytes) : Prop := encodeInt w v = .ok bytes

def badFlag (field : String) (v : Int) : Halt := fun fault _ taken _ =>
  (v ≠ 0 ∧ v ≠ 1) ∧ fault = .badFlag field v ∧ taken = []

def noFlag (field : String) : Halt :=
  (short Width.one.size field).orBehind (intAt .one) (badFlag field)

theorem halts_flag (field : String) : Halts (readFlag field) (noFlag field) := by
  refine (halts_int .one field).bind (reads_int .one field) fun v => ?_
  by_cases h0 : v = 0
  · rw [if_pos h0]
    exact (halts_pure false).congr fun _ _ _ _ => by simp [never, badFlag, h0]
  by_cases h1 : v = 1
  · rw [if_neg h0, if_pos h1]
    exact (halts_pure true).congr fun _ _ _ _ => by simp [never, badFlag, h1]
  rw [if_neg h0, if_neg h1]
  exact (halts_throw _).congr fun _ _ _ _ => by simp [always, badFlag, h0, h1]

def badLength (field : String) (n : Int) : Halt := fun fault offset taken left =>
  (n < 0 ∧ fault = .negativeLength field n ∧ taken = []) ∨
    (0 ≤ n ∧ short n.toNat field fault offset taken left)

def noSized (w : Width) (field : String) : Halt :=
  (short w.size (field ++ " length")).orBehind (intAt w) (badLength field)

theorem halts_sized (w : Width) (field : String) : Halts (readSized w field) (noSized w field) := by
  refine (halts_int w (field ++ " length")).bind (reads_int w _) fun n => ?_
  by_cases hn : n < 0
  · simp only [hn, if_true]
    refine ((halts_throw _).bind (reads_throw _) fun _ : Unit => halts_take n.toNat field).congr ?_
    intro fault offset taken left
    have hnot : ¬ 0 ≤ n := Int.not_le.mpr hn
    simp only [Halt.orBehind, always, badLength, hn, hnot, true_and, false_and, exists_false, or_false]
  · simp only [hn, if_false]
    refine (halts_take n.toNat field).congr fun fault offset taken left => ?_
    simp only [badLength, hn, false_and, false_or, Int.not_lt.mp hn, true_and]

def sizedAt (w : Width) (b bytes : Bytes) : Prop :=
  ∃ head, encodeInt w b.length = .ok head ∧ bytes = head ++ b

def noText (field : String) (b : Bytes) : Halt := fun fault _ taken _ =>
  text? b = none ∧ fault = .notUtf8 field ∧ taken = []

def noString (field : String) : Halt := (noSized .two field).orBehind (sizedAt .two) (noText field)

theorem halts_string (field : String) : Halts (readString field) (noString field) := by
  refine (halts_sized .two field).bind (reads_sized .two field) fun b => ?_
  unfold expectText
  cases ht : text? b with
  | none => exact (halts_throw _).congr fun _ _ _ _ => by simp [always, noText, ht]
  | some s => exact (halts_pure s).congr fun _ _ _ _ => by simp [never, noText, ht]

def Halt.atEnd (q : Halt) : Halt := fun fault offset taken left =>
  taken = [] ∧ ((left ≠ [] ∧ fault = .trailing left.length) ∨ (left = [] ∧ q fault offset [] []))

theorem halts_finish_then {f : Read α} {q : Halt} (hf : Halts f q) :
    Halts (finish >>= fun _ => f) q.atEnd := by
  intro c c' fault
  by_cases hrest : c.rest = []
  · have hbind : (finish >>= fun _ => f) c = f c := by
      simp [Bind.bind, EStateM.bind, finish, hrest]
    rw [hbind, hf c c' fault, hrest]
    constructor
    · rintro ⟨taken, hq, hnil, hoffset⟩
      obtain ⟨rfl, hleft⟩ := List.append_eq_nil_iff.mp hnil.symm
      rw [hleft] at hq ⊢
      exact ⟨[], ⟨rfl, .inr ⟨rfl, hq⟩⟩, rfl, hoffset⟩
    · rintro ⟨_, ⟨rfl, ⟨hne, _⟩ | ⟨hleft, hq⟩⟩, hnil, hoffset⟩
      · exact (hne hnil.symm).elim
      · rw [hleft]
        exact ⟨[], hq, rfl, hoffset⟩
  · have hbind : (finish >>= fun _ => f) c = .error (.trailing c.rest.length) c := by
      simp [Bind.bind, EStateM.bind, finish, hrest]
    rw [hbind]
    constructor
    · intro h
      cases h
      exact ⟨[], ⟨rfl, .inl ⟨hrest, rfl⟩⟩, rfl, rfl⟩
    · rintro ⟨_, ⟨rfl, ⟨_, rfl⟩ | ⟨hleft, _⟩⟩, hsplit, hoffset⟩
      · obtain rfl := Cursor.eq_of_taken_nil hsplit hoffset
        rfl
      · exact (hrest (hsplit.trans hleft)).elim

def Halt.versioned (q : Halt) (version : Int) : Halt :=
  (short Width.two.size "version").orBehind (intAt .two) fun tag fault offset taken left =>
    (tag ≠ version ∧ always (.unsupportedVersion tag) fault offset taken left) ∨
      (tag = version ∧ q fault offset taken left)

theorem Halts.versioned {work : Read α} {q : Halt} (version : Int) (h : Halts work q) :
    Halts (do
      let tag ← readInt .two "version"
      if tag ≠ version then throw (.unsupportedVersion tag)
      work) (q.versioned version) := by
  refine (halts_int .two "version").bind (reads_int .two "version") fun tag => ?_
  by_cases htag : tag = version
  · simp only [htag, ne_eq, not_true_eq_false, if_false, false_and, true_and, false_or]
    exact h
  · simp only [htag, ne_eq, not_false_eq_true, if_true, true_and, false_and, or_false]
    refine ((halts_throw _).bind (reads_throw _) fun _ : Unit => h).congr ?_
    intro fault offset taken left
    simp only [Halt.orBehind, false_and, exists_false, or_false]

def Halt.flagged (q : Halt) (field : String) : Halt :=
  (noFlag field).orBehind (fun b bytes => (Field.flag b).encode = .ok bytes) fun present =>
    if present then q else never

theorem Halts.flagged {work : Read (Option α)} {q : Halt} (field : String) (h : Halts work q) :
    Halts (do if ← readFlag field then work else return none) (q.flagged field) := by
  refine (halts_flag field).bind (reads_flag field) fun present => ?_
  cases present with
  | false => exact halts_pure none
  | true => exact h

def Halt.In (q : Halt) (fault : Fault) (offset : Nat) (bytes : Bytes) : Prop :=
  ∃ taken left, q fault offset taken left ∧ bytes = taken ++ left

theorem decode_eq_error_iff {kind : String} {work : Read α} {q : Halt} (h : Halts work q) {b : Bytes}
    {e : DecodeError} : decode kind work (.bytes b) = .error e ↔ e.payload = kind ∧ q.In e.fault 0 b := by
  have hread : decode kind work (.bytes b) = .error e ↔
      e.payload = kind ∧ ∃ c, work (.start b) = .error e.fault c := by
    change (Reader.read ⟨kind, .start b⟩ work).1 = .error e ↔ _
    obtain ⟨payload, fault⟩ := e
    simp only [Reader.read]
    cases work (.start b) with
    | ok a c => simp
    | error fault' c => simp [eq_comm]
  rw [hread]
  refine and_congr_right fun _ => ?_
  constructor
  · rintro ⟨c, hc⟩
    obtain ⟨taken, hq, hrest, _⟩ := (h _ _ _).mp hc
    exact ⟨taken, c.rest, hq, hrest⟩
  · rintro ⟨taken, left, hq, hb⟩
    exact ⟨⟨0 + taken.length, left⟩, (h _ _ _).mpr ⟨taken, hq, hb, rfl⟩⟩

end PrimaryElection.Wire
