/-!
Texts. A text is a list of code points, and these include the surrogates, which are no characters. So
every string is a text, but a text is a string only where it holds no surrogate.
-/

namespace PrimaryElection

inductive CodePoint
  | char (c : Char)
  | surrogate (low : Fin 2048)
  deriving DecidableEq, Repr, Inhabited

namespace CodePoint

def code : CodePoint → Nat
  | char c => c.toNat
  | surrogate low => 0xd800 + low.val

def isSurrogate : CodePoint → Bool
  | char _ => false
  | surrogate _ => true

theorem code_injective {p q : CodePoint} (h : p.code = q.code) : p = q := by
  have hgap : ∀ (c : Char) (low : Fin 2048), c.toNat ≠ 0xd800 + low.val := by
    intro c low hc
    have hvalid : c.toNat < 0xd800 ∨ 0xdfff < c.toNat ∧ c.toNat < 0x110000 := c.valid
    omega
  cases p with
  | char c =>
    cases q with
    | char d => exact congrArg char (Char.toNat_inj.mp h)
    | surrogate low => exact (hgap c low h).elim
  | surrogate low =>
    cases q with
    | char c => exact (hgap c low h.symm).elim
    | surrogate low' => exact congrArg surrogate (Fin.ext (Nat.add_left_cancel h))

end CodePoint

structure Text where
  points : List CodePoint
  deriving DecidableEq, Repr, Inhabited

namespace Text

@[coe] def ofString (s : String) : Text := ⟨s.toList.map .char⟩

instance : Coe String Text := ⟨ofString⟩

def isEmpty (s : Text) : Bool := s.points.isEmpty

def codes (s : Text) : List Nat := s.points.map CodePoint.code

instance : LE Text := ⟨fun s t => List.le s.codes t.codes⟩

instance (s t : Text) : Decidable (s ≤ t) := inferInstanceAs (Decidable (List.le s.codes t.codes))

def chars? : List CodePoint → Option (List Char)
  | [] => some []
  | .char c :: rest => (chars? rest).map (c :: ·)
  | .surrogate _ :: _ => none

def string? (s : Text) : Option String := (chars? s.points).map String.ofList

theorem codes_injective {s t : Text} (h : s.codes = t.codes) : s = t := by
  obtain ⟨points⟩ := s
  obtain ⟨points'⟩ := t
  exact congrArg mk (List.map_inj_right (fun _ _ => CodePoint.code_injective) |>.mp h)

theorem le_total (s t : Text) : s ≤ t ∨ t ≤ s := List.le_total s.codes t.codes

theorem le_trans {s t u : Text} (h : s ≤ t) (h' : t ≤ u) : s ≤ u := List.le_trans h h'

theorem le_antisymm {s t : Text} (h : s ≤ t) (h' : t ≤ s) : s = t :=
  codes_injective (List.le_antisymm h h')

theorem chars?_map_char (cs : List Char) : chars? (cs.map .char) = some cs := by
  induction cs with
  | nil => rfl
  | cons c cs ih => simp [chars?, ih]

theorem eq_map_char_of_chars? {points : List CodePoint} {cs : List Char}
    (h : chars? points = some cs) : points = cs.map .char := by
  induction points generalizing cs with
  | nil =>
    cases h
    rfl
  | cons p rest ih =>
    cases p with
    | surrogate low => cases h
    | char c =>
      obtain ⟨tail, htail, rfl⟩ := Option.map_eq_some_iff.mp h
      rw [List.map_cons, ih htail]

@[simp] theorem string?_ofString (s : String) : (ofString s).string? = some s := by
  simp [string?, ofString, chars?_map_char]

theorem string?_eq_some_iff {t : Text} {s : String} : t.string? = some s ↔ t = s := by
  constructor
  · intro h
    obtain ⟨cs, hcs, rfl⟩ := Option.map_eq_some_iff.mp h
    rw [ofString, String.toList_ofList, ← eq_map_char_of_chars? hcs]
  · rintro rfl
    exact string?_ofString s

@[simp] theorem ofString_inj {s t : String} : ofString s = ofString t ↔ s = t := by
  constructor
  · intro h
    have hsome : some s = some t := by
      rw [← string?_ofString s, ← string?_ofString t, h]
    exact Option.some.inj hsome
  · rintro rfl
    rfl

@[simp] theorem isEmpty_iff {s : Text} : s.isEmpty = true ↔ s = "" := by
  obtain ⟨points⟩ := s
  simp [isEmpty, ofString]

end Text

end PrimaryElection
