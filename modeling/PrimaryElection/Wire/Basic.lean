namespace PrimaryElection

abbrev Bytes := List UInt8

namespace Wire

def bigEndian : Nat → Nat → Bytes
  | 0, _ => []
  | width + 1, n => bigEndian width (n / 256) ++ [UInt8.ofNat n]

def magnitude (bytes : Bytes) : Nat := bytes.foldl (fun n b => n * 256 + b.toNat) 0

theorem length_bigEndian (width n : Nat) : (bigEndian width n).length = width := by
  induction width generalizing n with
  | zero => rfl
  | succ width ih => simp [bigEndian, ih]

theorem magnitude_concat (bytes : Bytes) (b : UInt8) :
    magnitude (bytes ++ [b]) = magnitude bytes * 256 + b.toNat := by
  simp [magnitude, List.foldl_append]

theorem magnitude_bigEndian (width n : Nat) : magnitude (bigEndian width n) = n % Nat.pow 256 width := by
  induction width generalizing n with
  | zero => simp [bigEndian, magnitude, Nat.mod_one]
  | succ width ih =>
    rw [bigEndian, magnitude_concat, ih]
    change _ = n % (Nat.pow 256 width * 256)
    rw [Nat.mul_comm (Nat.pow 256 width) 256, Nat.mod_mul]
    simp only [UInt8.toNat_ofNat', Nat.reducePow]
    omega

theorem bigEndian_magnitude (bytes : Bytes) : bigEndian bytes.length (magnitude bytes) = bytes := by
  induction h : bytes.length generalizing bytes with
  | zero => rw [List.length_eq_zero_iff.mp h]; rfl
  | succ width ih =>
    have hne : bytes ≠ [] := by intro e; simp [e] at h
    obtain ⟨front, b, rfl⟩ : ∃ front b, bytes = front ++ [b] :=
      ⟨bytes.dropLast, bytes.getLast hne, (List.dropLast_concat_getLast hne).symm⟩
    have hf : front.length = width := by simpa using h
    have hd : (magnitude front * 256 + b.toNat) / 256 = magnitude front := by
      have := b.toNat_lt
      omega
    have hb : UInt8.ofNat (magnitude front * 256 + b.toNat) = b := by
      apply UInt8.toNat_inj.mp
      have := b.toNat_lt
      simp only [UInt8.toNat_ofNat', Nat.reducePow]
      omega
    rw [magnitude_concat, bigEndian, hd, ih front hf, hb]

theorem magnitude_lt (bytes : Bytes) : magnitude bytes < Nat.pow 256 bytes.length := by
  have h := magnitude_bigEndian bytes.length (magnitude bytes)
  rw [bigEndian_magnitude] at h
  rw [h]
  exact Nat.mod_lt _ (Nat.pow_pos (by omega))

inductive Width
  | one
  | two
  | four
  deriving DecidableEq, Repr

namespace Width

def size : Width → Nat
  | one => 1
  | two => 2
  | four => 4

def bound : Width → Int
  | one => 128
  | two => 32768
  | four => 2147483648

def holds (w : Width) (v : Int) : Bool := -w.bound ≤ v && v < w.bound

theorem holds_iff {w : Width} {v : Int} : w.holds v = true ↔ -w.bound ≤ v ∧ v < w.bound := by
  simp [holds]

def toBytes (w : Width) (v : Int) : Bytes := bigEndian w.size (v % (2 * w.bound)).toNat

def ofBytes (w : Width) (bytes : Bytes) : Int :=
  if (magnitude bytes : Int) < w.bound then magnitude bytes else magnitude bytes - 2 * w.bound

@[simp] theorem length_toBytes (w : Width) (v : Int) : (w.toBytes v).length = w.size :=
  length_bigEndian _ _

theorem ofBytes_cases (w : Width) (bytes : Bytes) :
    (magnitude bytes : Int) < w.bound ∧ w.ofBytes bytes = magnitude bytes ∨
      w.bound ≤ magnitude bytes ∧ w.ofBytes bytes = magnitude bytes - 2 * w.bound := by
  unfold ofBytes
  split
  · exact .inl ⟨by assumption, rfl⟩
  · exact .inr ⟨by omega, rfl⟩

theorem ofBytes_toBytes {w : Width} {v : Int} (h : w.holds v = true) : w.ofBytes (w.toBytes v) = v := by
  rw [holds_iff] at h
  have hc := ofBytes_cases w (w.toBytes v)
  rw [show magnitude (w.toBytes v) = (v % (2 * w.bound)).toNat % Nat.pow 256 w.size from
    magnitude_bigEndian _ _] at hc
  cases w <;> simp only [bound, size, Nat.pow_eq, Nat.reducePow] at h hc ⊢ <;> omega

theorem holds_ofBytes {w : Width} {bytes : Bytes} (h : bytes.length = w.size) :
    w.holds (w.ofBytes bytes) = true := by
  have hlt := magnitude_lt bytes
  have hc := ofBytes_cases w bytes
  rw [h] at hlt
  rw [holds_iff]
  cases w <;> simp only [bound, size, Nat.pow_eq, Nat.reducePow] at hlt hc ⊢ <;> omega

theorem toBytes_ofBytes {w : Width} {bytes : Bytes} (h : bytes.length = w.size) :
    w.toBytes (w.ofBytes bytes) = bytes := by
  have hlt := magnitude_lt bytes
  have hc := ofBytes_cases w bytes
  have hm : ((w.ofBytes bytes) % (2 * w.bound)).toNat = magnitude bytes := by
    rw [h] at hlt
    cases w <;> simp only [bound, size, Nat.pow_eq, Nat.reducePow] at hlt hc ⊢ <;> omega
  rw [toBytes, hm, ← h, bigEndian_magnitude]

end Width

end Wire

end PrimaryElection
