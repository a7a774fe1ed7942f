import PrimaryElection.Proofs.Codec

namespace PrimaryElection

open Wire

theorem Wire.isValidUTF8_iff (bytes : Bytes) :
    ByteArray.IsValidUTF8 ⟨bytes.toArray⟩ ↔ ∃ s : String, bytes = utf8 s := by
  constructor
  · intro h
    exact ⟨String.ofByteArray ⟨bytes.toArray⟩ h, by simp [utf8]⟩
  · rintro ⟨s, rfl⟩
    have hbytes : (⟨(utf8 s).toArray⟩ : ByteArray) = s.toByteArray := by simp [utf8]
    rw [hbytes]
    exact s.isValidUTF8

theorem Wire.utf8_eq_nil_iff {s : String} : utf8 s = [] ↔ s = "" := by
  constructor
  · intro h
    apply Option.some.inj
    rw [← string?_utf8 s, h]
    rfl
  · rintro rfl
    rfl

namespace Identity

structure Layout where
  version : Bytes
  length : Bytes
  host : Bytes
  port : Bytes
  flag : UInt8

namespace Layout

def bytes (l : Layout) : Bytes := l.version ++ (l.length ++ (l.host ++ (l.port ++ [l.flag])))

structure Valid (l : Layout) : Prop where
  version_size : l.version.length = 2
  version_zero : Width.two.ofBytes l.version = 0
  length_size : l.length.length = 2
  length_eq : Width.two.ofBytes l.length = l.host.length
  host_pos : 1 ≤ l.host.length
  host_le : l.host.length ≤ 32767
  host_utf8 : ByteArray.IsValidUTF8 ⟨l.host.toArray⟩
  port_size : l.port.length = 4
  port_pos : 1 ≤ Width.four.ofBytes l.port
  port_le : Width.four.ofBytes l.port ≤ 65535
  flag_cases : l.flag = 0 ∨ l.flag = 1

structure Describes (l : Layout) (i : Identity) : Prop where
  host : l.host = utf8 i.host
  port : Width.four.ofBytes l.port = i.port
  flag : l.flag = if i.eligible then 1 else 0

theorem Valid.exists_describes {l : Layout} (h : l.Valid) : ∃ i, l.Describes i := by
  obtain ⟨host, hhost⟩ := (isValidUTF8_iff l.host).mp h.host_utf8
  have hne : host ≠ "" := by
    rintro rfl
    have hpos := h.host_pos
    rw [hhost, utf8_eq_nil_iff.mpr rfl] at hpos
    cases hpos
  have hlow := h.port_pos
  have hhigh := h.port_le
  obtain ⟨port, hport⟩ := Int.eq_ofNat_of_zero_le (Int.le_trans (by decide) hlow)
  rw [hport] at hlow hhigh
  refine ⟨⟨host, port, l.flag == 1, hne, by omega, by omega⟩, hhost, hport, ?_⟩
  rcases h.flag_cases with hf | hf <;> rw [hf] <;> rfl

end Layout

def layout (i : Identity) : Layout where
  version := Width.two.toBytes version
  length := Width.two.toBytes (utf8 i.host).length
  host := utf8 i.host
  port := Width.four.toBytes i.port
  flag := if i.eligible then 1 else 0

theorem encode_eq_layout (i : Identity) : i.encode =
    if 32767 < (utf8 i.host).length then .error (.textTooLong (utf8 i.host).length)
    else .ok i.layout.bytes := by
  have hflag : Width.one.toBytes (flagCode i.eligible) = [if i.eligible then 1 else 0] := by
    cases i.eligible <;> rfl
  rw [encode_eq, hflag]
  simp only [maxText, Layout.bytes, layout, List.append_assoc, List.append_nil]

theorem layout_valid {i : Identity} (h : (utf8 i.host).length ≤ 32767) : i.layout.Valid where
  version_size := Width.length_toBytes _ _
  version_zero := Width.ofBytes_toBytes (by decide)
  length_size := Width.length_toBytes _ _
  length_eq := by
    apply Width.ofBytes_toBytes
    simp only [Width.holds_iff, Width.bound]
    omega
  host_pos := by
    apply List.length_pos_iff.mpr
    exact fun hnil => i.host_ne (utf8_eq_nil_iff.mp hnil)
  host_le := h
  host_utf8 := (isValidUTF8_iff _).mpr ⟨i.host, rfl⟩
  port_size := Width.length_toBytes _ _
  port_pos := by
    have := i.port_pos
    rw [show Width.four.ofBytes i.layout.port = i.port from Width.ofBytes_toBytes i.holds_port]
    omega
  port_le := by
    have := i.port_le
    rw [show Width.four.ofBytes i.layout.port = i.port from Width.ofBytes_toBytes i.holds_port]
    omega
  flag_cases := by
    simp only [layout]
    cases i.eligible <;> simp

theorem layout_describes (i : Identity) : i.layout.Describes i :=
  ⟨rfl, Width.ofBytes_toBytes i.holds_port, rfl⟩

theorem layout_of_describes {l : Layout} {i : Identity} (hvalid : l.Valid) (h : l.Describes i) :
    i.layout = l := by
  have hversion : Width.two.toBytes version = l.version := by
    rw [← Width.toBytes_ofBytes (w := .two) hvalid.version_size, hvalid.version_zero]
    rfl
  have hlength : Width.two.toBytes (utf8 i.host).length = l.length := by
    rw [← h.host, ← hvalid.length_eq]
    exact Width.toBytes_ofBytes hvalid.length_size
  have hport : Width.four.toBytes i.port = l.port := by
    rw [← h.port]
    exact Width.toBytes_ofBytes hvalid.port_size
  obtain ⟨_, _, _, _, _⟩ := l
  simp only [layout, Layout.mk.injEq]
  exact ⟨hversion, hlength, h.host.symm, hport, h.flag.symm⟩

theorem decode_eq_ok_iff_layout {bytes : Bytes} {i : Identity} :
    decode (.bytes bytes) = .ok i ↔ ∃ l : Layout, l.Valid ∧ l.Describes i ∧ bytes = l.bytes := by
  rw [decode_eq_ok_iff, encode_eq_layout]
  constructor
  · intro h
    split at h
    · cases h
    · rename_i hshort
      injection h with h
      exact ⟨i.layout, layout_valid (Nat.not_lt.mp hshort), i.layout_describes, h.symm⟩
  · rintro ⟨l, hvalid, hdescribes, rfl⟩
    have hle := hvalid.host_le
    rw [hdescribes.host] at hle
    rw [if_neg (Nat.not_lt.mpr hle), layout_of_describes hvalid hdescribes]

/--
Reading is the inverse of writing, writing fails on a host that is too long and nowhere else, and the
bytes that are read are those of the valid layouts.
-/
theorem layout_exact :
    (∀ (bytes : Bytes) (i : Identity), decode (.bytes bytes) = .ok i ↔ i.encode = .ok bytes) ∧
    (∀ (i : Identity) (e : WriteError), i.encode = .error e ↔
      32767 < (utf8 i.host).length ∧ e = .textTooLong (utf8 i.host).length) ∧
    (∀ bytes : Bytes, (∃ i, decode (.bytes bytes) = .ok i) ↔ ∃ l : Layout, l.Valid ∧ bytes = l.bytes) ∧
    ∀ (bytes : Bytes) (i : Identity), decode (.bytes bytes) = .ok i ↔
      ∃ l : Layout, l.Valid ∧ l.Describes i ∧ bytes = l.bytes := by
  refine ⟨fun _ _ => decode_eq_ok_iff, ?_, ?_, fun _ _ => decode_eq_ok_iff_layout⟩
  · intro i e
    rw [encode_eq_layout]
    split
    · rename_i hlong
      simp [hlong, eq_comm]
    · rename_i hshort
      simp [hshort]
  · intro bytes
    simp only [decode_eq_ok_iff_layout]
    constructor
    · rintro ⟨i, l, hvalid, _, rfl⟩
      exact ⟨l, hvalid, rfl⟩
    · rintro ⟨l, hvalid, rfl⟩
      obtain ⟨i, hi⟩ := hvalid.exists_describes
      exact ⟨i, l, hvalid, hi, rfl⟩

end Identity

end PrimaryElection
