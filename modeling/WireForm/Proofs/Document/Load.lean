import WireForm.Document
import WireForm.Proofs.Outcome

/-!
# What loading does

A document is loaded when its bytes can be unpacked and their text be read. A text that can be
read never looks compressed, so it is loaded as it stands.
-/

namespace WireForm

/-- No text that is read begins as a compressed document does. -/
theorem detect_of_read {text : List UInt8} {root : Value} (h : Json.read text = .ok root) :
    Compression.detect text = .none := by
  unfold Compression.detect
  split
  · next hmagic =>
    -- The first byte of the magic begins no value.
    obtain ⟨rest, rfl⟩ := List.isPrefixOf_iff_prefix.mp hmagic
    exact nomatch h
  · rfl

/-- What looks compressed is no text: its first byte begins no value. -/
theorem detect_of_read_error {text : List UInt8} {fault : Json.Fault}
    (h : Json.read text = .error fault) (hp : fault.problem ≠ .expectedValue) :
    Compression.detect text = .none := by
  unfold Compression.detect
  split
  · next hmagic =>
    obtain ⟨rest, rfl⟩ := List.isPrefixOf_iff_prefix.mp hmagic
    obtain rfl := Except.error.inj h
    exact absurd rfl hp
  · rfl

section Loading

variable {inflater : Inflater} {options others : LoadOptions} {raw text : List UInt8}
  {compression : Compression} {document : Document}

theorem unpack_of_detect_none (hd : Compression.detect raw = .none)
    (hlen : raw.length ≤ options.maxBytes) :
    unpack inflater options raw = .ok (.none, raw) := by
  rw [unpack, hd]
  exact if_neg (Nat.not_lt.mpr hlen)

namespace Document

theorem loadWith_of_error {error : Error} (h : unpack inflater options raw = .error error) :
    loadWith inflater options raw = .error error := by
  unfold loadWith
  split
  · next other ho => rw [Except.error.inj (ho.symm.trans h)]
  · next ho => cases ho.symm.trans h

theorem loadWith_of_ok (h : unpack inflater options raw = .ok (compression, text))
    (hlen : text.length < 0x10000000000000000) :
    loadWith inflater options raw = ofText compression text hlen := by
  unfold loadWith
  split
  · next ho => cases ho.symm.trans h
  · next ho =>
    obtain ⟨rfl, rfl⟩ := Prod.mk.inj (Except.ok.inj (ho.symm.trans h))
    rfl

/-- What is loaded hangs on nothing but what is unpacked. -/
theorem loadWith_congr {other : List UInt8}
    (h : unpack inflater others other = unpack inflater options raw) :
    loadWith inflater others other = loadWith inflater options raw := by
  cases hu : unpack inflater options raw with
  | error error => rw [loadWith_of_error hu, loadWith_of_error (h.trans hu)]
  | ok unpacked =>
    obtain ⟨compression, text⟩ := unpacked
    have hlen := Nat.lt_of_le_of_lt (length_le_of_unpack hu) options.maxBytes_lt
    rw [loadWith_of_ok hu hlen, loadWith_of_ok (h.trans hu) hlen]

/-- A text makes a document of its size when it can be read. -/
theorem ofText_eq_ok_iff {hlen : text.length < 0x10000000000000000} :
    ofText compression text hlen = .ok document ↔
      document.compression = compression ∧ document.len = text.length ∧
        Json.read text = .ok document.root := by
  obtain ⟨storage, len, root, _⟩ := document
  cases hr : Json.read text with
  | error fault => simp [ofText, hr]
  | ok value => simp [ofText, hr, eq_comm]

theorem ofText_eq_error_iff {hlen : text.length < 0x10000000000000000} {error : Error} :
    ofText compression text hlen = .error error ↔
      ∃ fault, Json.read text = .error fault ∧ error = .json fault := by
  cases hr : Json.read text with
  | error fault => simp [ofText, hr, eq_comm]
  | ok value => simp [ofText, hr]

/-- Loading gives the text that was unpacked, its size and the value it holds. -/
theorem loadWith_eq_ok_iff_unpack :
    loadWith inflater options raw = .ok document ↔
      ∃ text, unpack inflater options raw = .ok (document.compression, text) ∧
        Json.read text = .ok document.root ∧ document.len = text.length := by
  cases hu : unpack inflater options raw with
  | error error => simp [loadWith_of_error hu]
  | ok unpacked =>
    obtain ⟨compression, text⟩ := unpacked
    have hlen := Nat.lt_of_le_of_lt (length_le_of_unpack hu) options.maxBytes_lt
    rw [loadWith_of_ok hu hlen, ofText_eq_ok_iff]
    constructor
    · rintro ⟨rfl, hsize, hr⟩
      exact ⟨text, rfl, hr, hsize⟩
    · rintro ⟨other, ho, hr, hsize⟩
      obtain ⟨rfl, rfl⟩ := Prod.mk.inj (Except.ok.inj ho)
      exact ⟨rfl, hsize, hr⟩

/-- Bytes are not loaded when they cannot be unpacked or their text cannot be read. -/
theorem loadWith_eq_error_iff_unpack {error : Error} :
    loadWith inflater options raw = .error error ↔
      unpack inflater options raw = .error error ∨
        ∃ compression text fault, unpack inflater options raw = .ok (compression, text) ∧
          Json.read text = .error fault ∧ error = .json fault := by
  cases hu : unpack inflater options raw with
  | error other => simp [loadWith_of_error hu]
  | ok unpacked =>
    obtain ⟨compression, text⟩ := unpacked
    have hlen := Nat.lt_of_le_of_lt (length_le_of_unpack hu) options.maxBytes_lt
    rw [loadWith_of_ok hu hlen, ofText_eq_error_iff]
    constructor
    · rintro ⟨fault, hr, rfl⟩
      exact .inr ⟨compression, text, fault, rfl, hr, rfl⟩
    · rintro (h | ⟨_, _, fault, h, hr, rfl⟩)
      · cases h
      · obtain ⟨-, rfl⟩ := Prod.mk.inj (Except.ok.inj h)
        exact ⟨fault, hr, rfl⟩

/-- A text that is read is loaded as it stands, if it is within the limit. -/
theorem loadWith_of_read {root : Value} (hr : Json.read text = .ok root)
    (hlen : text.length ≤ options.maxBytes) :
    loadWith inflater options text =
      .ok ⟨.none, text.length, root, Nat.lt_of_le_of_lt hlen options.maxBytes_lt⟩ :=
  loadWith_eq_ok_iff_unpack.mpr ⟨text, unpack_of_detect_none (detect_of_read hr) hlen, hr, rfl⟩

/-- A text that cannot be read is refused for that, if it is within the limit and something is
    wrong with it that is never wrong with compressed bytes. -/
theorem loadWith_of_read_error {fault : Json.Fault} (hr : Json.read text = .error fault)
    (hp : fault.problem ≠ .expectedValue) (hlen : text.length ≤ options.maxBytes) :
    loadWith inflater options text = .error (.json fault) := by
  have hu : unpack inflater options text = .ok (.none, text) :=
    unpack_of_detect_none (detect_of_read_error hr hp) hlen
  exact loadWith_eq_error_iff_unpack.mpr (.inr ⟨.none, text, fault, hu, hr, rfl⟩)

/-- That bytes are loaded as they stand, at their full size and with a given value as root, by
    everyone who accepts documents of that size. -/
def LoadsAs (text : List UInt8) (root : Value) : Prop :=
  ∀ (inflater : Inflater) (options : LoadOptions), text.length ≤ options.maxBytes →
    ∃ document, loadWith inflater options text = .ok document ∧ document.compression = .none ∧
      document.len = text.length ∧ document.root = root

theorem loadsAs_of_read {root : Value} (h : Json.read text = .ok root) : LoadsAs text root :=
  fun _ _ hlen => ⟨_, loadWith_of_read h hlen, rfl, rfl, rfl⟩

/-- That bytes are refused for a problem in their text, by everyone who accepts documents of that
    size. -/
def RefusedFor (problem : Json.Problem) (text : List UInt8) : Prop :=
  ∃ place, ∀ (inflater : Inflater) (options : LoadOptions), text.length ≤ options.maxBytes →
    loadWith inflater options text = .error (.json ⟨problem, place⟩)

theorem loadFileWith_eq_ok_iff {file : Except FileFault (List UInt8)} :
    loadFileWith inflater options file = .ok document ↔
      ∃ raw, file = .ok raw ∧ loadWith inflater options raw = .ok document := by
  cases file with
  | error fault => simp [loadFileWith]
  | ok raw => simp [loadFileWith]

end Document

end Loading

end WireForm
