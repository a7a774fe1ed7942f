import PrimaryElection.Proofs.Codec
import PrimaryElection.Proofs.Resting

namespace PrimaryElection

open HookM Wire

theorem Settings.check_eq_ok {s : Settings} {scheme : Scheme} (h : s.check = .ok scheme) :
    s.host.isBlank = false ∧ checkPort s.port = .ok () := by
  unfold check at h
  cases hhost : s.host.isBlank with
  | true =>
    rw [hhost] at h
    cases h
  | false =>
    rw [hhost] at h
    cases hport : checkPort s.port with
    | error e =>
      rw [hport] at h
      cases h
    | ok _ => exact ⟨rfl, rfl⟩

theorem Settings.checkPort_int {port : Int} (h : checkPort (.int port) = .ok ()) :
    1 ≤ port ∧ port ≤ 65535 := by
  simp only [checkPort] at h
  split at h
  · rename_i hrange
    simpa using hrange
  · cases h

theorem Settings.config_eq_ok {s : Settings} {c : Config} (h : s.config = .ok c) :
    c.settings = s ∧ s.check = .ok c.scheme := by
  unfold config at h
  cases hcheck : s.check with
  | error e =>
    rw [hcheck] at h
    cases h
  | ok scheme =>
    rw [hcheck] at h
    cases h
    exact ⟨rfl, rfl⟩

/-- The settings are given as they should be: as a text, a whole number and a truth value. -/
structure Settings.Typed (s : Settings) (host : String) (port : Int) (eligible : Bool) : Prop where
  host : s.host = .text host
  port : s.port = .int port
  eligible : s.primaryEligible = .bool eligible

structure Identity.Has (i : Identity) (host : String) (port : Int) (eligible : Bool) : Prop where
  host : i.host = host
  port : (i.port : Int) = port
  eligible : i.eligible = eligible

section submission

variable {s : Settings} {c : Config} {host : String} {port : Int} {eligible : Bool}

theorem Settings.Typed.exists_identity (h : s.Typed host port eligible) (hconfig : s.config = .ok c) :
    ∃ i, c.identity = .ok i ∧ i.Has host port eligible := by
  obtain ⟨hsettings, hcheck⟩ := config_eq_ok hconfig
  obtain ⟨hblank, hport⟩ := check_eq_ok hcheck
  have hhost : host ≠ "" := by
    rintro rfl
    rw [h.host] at hblank
    cases hblank
  rw [h.port] at hport
  obtain ⟨hlow, hhigh⟩ := checkPort_int hport
  let i : Identity := ⟨host, port.toNat, eligible, hhost, by omega, by omega⟩
  have hi : (i.port : Int) = port := by
    change (port.toNat : Int) = port
    omega
  refine ⟨i, ?_, rfl, hi, rfl⟩
  rw [Config.identity, hsettings, draft, h.host, h.port, h.eligible]
  exact Identity.check_of_eq_ok_iff.mpr ⟨rfl, hi.symm, rfl⟩

theorem Settings.Typed.gives_metadata (htyped : s.Typed host port eligible) (hconfig : s.config = .ok c)
    {r : Run} (hr : r.node.config = c) (hshort : (utf8 host).length ≤ maxText) :
    Gives Node.metadata r fun bytes r' => r'.node = r.node ∧
      ∃ i, Identity.decode (.bytes bytes) = .ok i ∧ i.Has host port eligible := by
  obtain ⟨i, hi, hhas⟩ := htyped.exists_identity hconfig
  have hencode := i.encode_eq
  rw [hhas.host, if_neg (Nat.not_lt.mpr hshort)] at hencode
  have hrun := Node.metadata_eq (r := r) (by rw [hr, hi])
  rw [hencode] at hrun
  exact ⟨_, _, hrun, rfl, i, Identity.decode_eq_ok_iff.mpr hencode, hhas⟩

theorem Settings.Typed.metadata_eq_error (htyped : s.Typed host port eligible)
    (hconfig : s.config = .ok c) {r : Run} (hr : r.node.config = c) (hlong : maxText < (utf8 host).length) :
    ∃ r', Node.metadata r = .error (.unwritable (.textTooLong (utf8 host).length)) r' ∧
      r'.node = r.node := by
  obtain ⟨i, hi, hhas⟩ := htyped.exists_identity hconfig
  have hencode := i.encode_eq
  rw [hhas.host, if_pos hlong] at hencode
  have hrun := Node.metadata_eq (r := r) (by rw [hr, hi])
  rw [hencode] at hrun
  exact ⟨_, hrun, rfl⟩

/--
Whatever the state of a node, if its settings are given as they should be, it submits the identity that they
describe. The one exception is a host too long to be written out, with which it cannot join at all.
-/
theorem Settings.submission_exact (hconfig : s.config = .ok c) (htyped : s.Typed host port eligible)
    {r : Run} (hr : r.node.config = c) :
    ((utf8 host).length ≤ maxText → Gives Node.metadata r fun bytes r' => r'.node = r.node ∧
      ∃ i, Identity.decode (.bytes bytes) = .ok i ∧ i.Has host port eligible) ∧
    (maxText < (utf8 host).length →
      ∃ r', Node.metadata r = .error (.unwritable (.textTooLong (utf8 host).length)) r' ∧
        r'.node = r.node) :=
  ⟨htyped.gives_metadata hconfig hr, htyped.metadata_eq_error hconfig hr⟩

end submission

def reader : Settings :=
  { host := .text "node-1", port := .int 65535, primaryEligible := .bool false }

theorem Settings.submission_exact_reader :
    ∃ c s events, reader.config = .ok c ∧ Session.Course (fun _ _ => True) (.start c {}) s events ∧
      s.node.phase = .leading ∧ Gives Node.metadata ⟨s, events⟩ fun bytes r' => r'.node = s.node ∧
        ∃ i, Identity.decode (.bytes bytes) = .ok i ∧ i.Has "node-1" 65535 false := by
  have hreader : reader.config = .ok ⟨reader, .http⟩ := rfl
  have htyped : reader.Typed "node-1" 65535 false := ⟨rfl, rfl, rfl⟩
  obtain ⟨s, events, hcourse, hphase⟩ : ∃ s events, Session.Course (fun _ _ => True)
      (.start ⟨reader, .http⟩ {}) s events ∧ s.node.phase = .leading :=
    ⟨_, _, .call .silent (.compute 1 (.text "me") []) .begin trivial, by decide +kernel⟩
  have hexact := submission_exact hreader htyped (r := ⟨s, events⟩) hcourse.config_eq
  exact ⟨_, s, events, hreader, hcourse, hphase, hexact.1 (by decide +kernel)⟩

theorem length_utf8_replicate (n : Nat) : (utf8 (String.ofList (List.replicate n 'a'))).length = n := by
  have hsize : ∀ s : String, (utf8 s).length = s.utf8ByteSize := fun s => by simp [utf8]
  rw [hsize]
  induction n with
  | zero => rfl
  | succ n ih =>
    have hletter : 'a'.utf8Size = 1 := by decide
    rw [List.replicate_succ, String.ofList_cons, String.utf8ByteSize_append, ih,
      String.utf8ByteSize_singleton, hletter, Nat.add_comm]

def wordy (n : Nat) : Settings := { host := .text (String.ofList (List.replicate n 'a')), port := .int 8081 }

theorem Settings.config_wordy (n : Nat) : (wordy (n + 1)).config = .ok ⟨wordy (n + 1), .http⟩ := by
  have hhost : (wordy (n + 1)).host.isBlank = false := by
    simp [wordy, Value.isBlank, Text.isEmpty, Text.ofString, List.replicate_succ]
  have hcheck : (wordy (n + 1)).check = .ok .http := by
    rw [check, hhost]
    rfl
  rw [config, hcheck]
  rfl

theorem Settings.long_host_refused :
    ∃ c, (wordy 32768).config = .ok c ∧
      (wordy 32768).Typed (String.ofList (List.replicate 32768 'a')) 8081 true ∧
      ∀ r : Run, r.node.config = c →
        ∃ r', Node.metadata r = .error (.unwritable (.textTooLong 32768)) r' := by
  have htyped : (wordy 32768).Typed (String.ofList (List.replicate 32768 'a')) 8081 true :=
    ⟨rfl, rfl, rfl⟩
  refine ⟨_, config_wordy 32767, htyped, ?_⟩
  intro r hr
  have hlength := length_utf8_replicate 32768
  obtain ⟨r', hrun, _⟩ := htyped.metadata_eq_error (config_wordy 32767) hr (by rw [hlength]; decide)
  rw [hlength] at hrun
  exact ⟨r', hrun⟩

end PrimaryElection
