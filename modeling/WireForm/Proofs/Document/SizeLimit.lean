import WireForm.Proofs.Document.Load

/-!
# The size limit is a threshold

Whatever the inflater is, bytes have an unpacked size, known without the limit: below it the limit
is exceeded, whatever else is wrong with the bytes, and from it on the limit plays no part in what
is loaded or why nothing is.
-/

namespace WireForm

/-! ## Unpacking -/

/-- The size that is compared with the limit: that of bytes which are not compressed, and all that
    the inflater hands out of others, be it to the end or to a defect. Nothing is handed out of
    what is refused. -/
def unpackedSize (inflater : Inflater) (allowZstd : Bool) (raw : List UInt8) : Nat :=
  match Compression.detect raw with
  | .none => raw.length
  | .zstd =>
    if allowZstd then
      match inflater.start raw with
      | .error _ => 0
      | .ok delivery => delivery.pieces.flatten.length
    else 0

/-- What bytes unpack to where no limit is exceeded. -/
def unpackFreely (inflater : Inflater) (allowZstd : Bool) (raw : List UInt8) :
    Except Error (Compression × List UInt8) :=
  match Compression.detect raw with
  | .none => .ok (.none, raw)
  | .zstd =>
    if allowZstd then
      match inflater.start raw with
      | .error defect => .error (.inflate defect)
      | .ok delivery =>
        match delivery.defect with
        | none => .ok (.zstd, delivery.pieces.flatten)
        | some defect => .error (.inflate defect)
    else .error .compressionRefused

/-- The error of bytes that exceed a limit. -/
def tooLarge (raw : List UInt8) (limit : Nat) : Error :=
  match Compression.detect raw with
  | .none => .inputTooLarge raw.length limit
  | .zstd => .inflatedTooLarge limit

theorem tooLarge_of_raw {raw : List UInt8} (h : Compression.detect raw = .none) (limit : Nat) :
    tooLarge raw limit = .inputTooLarge raw.length limit := by
  rw [tooLarge, h]

theorem tooLarge_of_stream {raw : List UInt8} (h : Compression.detect raw = .zstd) (limit : Nat) :
    tooLarge raw limit = .inflatedTooLarge limit := by
  rw [tooLarge, h]

/-- Whether an error is about a size. -/
def Error.isSize : Error → Bool
  | .inputTooLarge _ _ => true
  | .inflatedTooLarge _ => true
  | _ => false

section Unpacking

variable {inflater : Inflater} {options : LoadOptions} {raw text : List UInt8}
  {compression : Compression}

/-- The limit decides whether the size is accepted, and nothing else. -/
theorem unpack_eq_ite (inflater : Inflater) (options : LoadOptions) (raw : List UInt8) :
    unpack inflater options raw =
      if options.maxBytes < unpackedSize inflater options.allowZstd raw then
        .error (tooLarge raw options.maxBytes)
      else unpackFreely inflater options.allowZstd raw := by
  unfold unpack unpackedSize unpackFreely tooLarge
  cases Compression.detect raw with
  | none => rfl
  | zstd =>
    cases options.allowZstd with
    | false => rfl
    | true =>
      cases hs : inflater.start raw with
      | error defect => simp [Inflater.inflate, hs]
      | ok delivery =>
        -- The reads come to the whole delivery, whose size and end are known at once.
        simp only [if_true, Inflater.inflate_of_start hs]
        split
        · rfl
        · cases delivery.defect <;> rfl

theorem unpack_of_lt (h : options.maxBytes < unpackedSize inflater options.allowZstd raw) :
    unpack inflater options raw = .error (tooLarge raw options.maxBytes) := by
  rw [unpack_eq_ite, if_pos h]

theorem unpack_of_le (h : unpackedSize inflater options.allowZstd raw ≤ options.maxBytes) :
    unpack inflater options raw = unpackFreely inflater options.allowZstd raw := by
  rw [unpack_eq_ite, if_neg (Nat.not_lt.mpr h)]

/-- What unpacks: bytes that are not compressed, to themselves, and compressed ones that are
    accepted and that the inflater reads to a clean end, to all that it hands out. -/
theorem unpackFreely_eq_ok_iff {allowZstd : Bool} :
    unpackFreely inflater allowZstd raw = .ok (compression, text) ↔
      (Compression.detect raw = .none ∧ compression = .none ∧ text = raw) ∨
        (Compression.detect raw = .zstd ∧ compression = .zstd ∧ allowZstd = true ∧
          ∃ delivery, inflater.start raw = .ok delivery ∧ delivery.defect = none ∧
            text = delivery.pieces.flatten) := by
  unfold unpackFreely
  cases Compression.detect raw with
  | none => simp [eq_comm]
  | zstd =>
    cases allowZstd with
    | false => simp
    | true =>
      cases inflater.start raw with
      | error defect => simp
      | ok delivery => cases hf : delivery.defect <;> simp [hf, eq_comm]

/-- What is unpacked has the size that is compared with the limit. -/
theorem length_of_unpackFreely {allowZstd : Bool}
    (h : unpackFreely inflater allowZstd raw = .ok (compression, text)) :
    text.length = unpackedSize inflater allowZstd raw := by
  obtain ⟨hd, -, rfl⟩ | ⟨hd, -, rfl, delivery, hs, -, rfl⟩ := unpackFreely_eq_ok_iff.mp h
  · simp [unpackedSize, hd]
  · simp [unpackedSize, hd, hs]

/-- It is stored as the first bytes tell. -/
theorem detect_of_unpackFreely {allowZstd : Bool}
    (h : unpackFreely inflater allowZstd raw = .ok (compression, text)) :
    Compression.detect raw = compression := by
  obtain ⟨hd, rfl, -⟩ | ⟨hd, rfl, -⟩ := unpackFreely_eq_ok_iff.mp h
  · exact hd
  · exact hd

/-- What bytes unpack to is no error about a size. -/
theorem isSize_of_unpackFreely {allowZstd : Bool} {error : Error}
    (h : unpackFreely inflater allowZstd raw = .error error) : error.isSize = false := by
  unfold unpackFreely at h
  split at h
  · exact nomatch h
  · split at h
    · split at h
      · obtain rfl := Except.error.inj h
        rfl
      · split at h
        · exact nomatch h
        · obtain rfl := Except.error.inj h
          rfl
    · obtain rfl := Except.error.inj h
      rfl

theorem unpack_eq_ok_iff :
    unpack inflater options raw = .ok (compression, text) ↔
      unpackFreely inflater options.allowZstd raw = .ok (compression, text) ∧
        text.length ≤ options.maxBytes := by
  by_cases h : options.maxBytes < unpackedSize inflater options.allowZstd raw
  · rw [unpack_of_lt h]
    refine ⟨nofun, fun ⟨hf, hlen⟩ => ?_⟩
    rw [length_of_unpackFreely hf] at hlen
    omega
  · rw [unpack_of_le (Nat.not_lt.mp h)]
    refine ⟨fun hf => ⟨hf, ?_⟩, And.left⟩
    rw [length_of_unpackFreely hf]
    exact Nat.not_lt.mp h

end Unpacking

/-! ## The threshold -/

namespace Document

section Loading

variable {inflater : Inflater} {options others : LoadOptions} {raw text : List UInt8}
  {compression : Compression}

/-- Bytes whose unpacked size exceeds the limit are too large, whatever else is wrong with them. -/
theorem loadWith_of_lt (h : options.maxBytes < unpackedSize inflater options.allowZstd raw) :
    loadWith inflater options raw = .error (tooLarge raw options.maxBytes) :=
  loadWith_of_error (unpack_of_lt h)

/-- A text within the limit is read. -/
theorem loadWith_eq_ofText
    (h : unpackFreely inflater options.allowZstd raw = .ok (compression, text))
    (hlen : text.length ≤ options.maxBytes) :
    loadWith inflater options raw =
      ofText compression text (Nat.lt_of_le_of_lt hlen options.maxBytes_lt) :=
  loadWith_of_ok (unpack_eq_ok_iff.mpr ⟨h, hlen⟩) _

/-- A text that exceeds the limit is not looked at. -/
theorem loadWith_of_length_lt
    (h : unpackFreely inflater options.allowZstd raw = .ok (compression, text))
    (hlt : options.maxBytes < text.length) :
    loadWith inflater options raw = .error (tooLarge raw options.maxBytes) := by
  rw [length_of_unpackFreely h] at hlt
  exact loadWith_of_lt hlt

/-- A text of some size is loaded within the limit, if it can be read. -/
theorem loadWith_eq_ok_iff
    (h : unpackFreely inflater options.allowZstd raw = .ok (compression, text))
    {document : Document} :
    loadWith inflater options raw = .ok document ↔
      text.length ≤ options.maxBytes ∧ document.compression = compression ∧
        document.len = text.length ∧ Json.read text = .ok document.root := by
  by_cases hlen : text.length ≤ options.maxBytes
  · rw [loadWith_eq_ofText h hlen, ofText_eq_ok_iff, and_iff_right hlen]
  · rw [loadWith_of_length_lt h (Nat.not_le.mp hlen)]
    exact ⟨nofun, fun ⟨hle, _⟩ => absurd hle hlen⟩

/-- A text of some size is not loaded if it exceeds the limit or cannot be read. -/
theorem loadWith_eq_error_iff
    (h : unpackFreely inflater options.allowZstd raw = .ok (compression, text)) {error : Error} :
    loadWith inflater options raw = .error error ↔
      (options.maxBytes < text.length ∧ error = tooLarge raw options.maxBytes) ∨
        (text.length ≤ options.maxBytes ∧
          ∃ fault, Json.read text = .error fault ∧ error = .json fault) := by
  by_cases hlen : text.length ≤ options.maxBytes
  · simp [loadWith_eq_ofText h hlen, ofText_eq_error_iff, hlen, Nat.not_lt.mpr hlen]
  · rw [loadWith_of_length_lt h (Nat.not_le.mp hlen)]
    simp [hlen, Nat.not_le.mp hlen, eq_comm]

/-- From the unpacked size on, what is wrong with compressed bytes does not hang on the limit. -/
theorem loadWith_of_unpackFreely_error {error : Error}
    (hsize : unpackedSize inflater options.allowZstd raw ≤ options.maxBytes)
    (h : unpackFreely inflater options.allowZstd raw = .error error) :
    loadWith inflater options raw = .error error :=
  loadWith_of_error ((unpack_of_le hsize).trans h)

/-- From the unpacked size on, all limits are alike. -/
theorem loadWith_eq_of_le (ha : others.allowZstd = options.allowZstd)
    (ho : unpackedSize inflater options.allowZstd raw ≤ options.maxBytes)
    (hs : unpackedSize inflater options.allowZstd raw ≤ others.maxBytes) :
    loadWith inflater others raw = loadWith inflater options raw := by
  rw [← ha] at hs
  refine loadWith_congr ?_
  rw [unpack_of_le ho, unpack_of_le hs, ha]

/-- What is loaded has the unpacked size, which is within the limit. -/
theorem len_of_loadWith {document : Document}
    (h : loadWith inflater options raw = .ok document) :
    document.len = unpackedSize inflater options.allowZstd raw ∧
      unpackedSize inflater options.allowZstd raw ≤ options.maxBytes := by
  cases hu : unpack inflater options raw with
  | error error =>
    rw [loadWith_of_error hu] at h
    exact nomatch h
  | ok unpacked =>
    obtain ⟨compression, text⟩ := unpacked
    obtain ⟨hf, hlen⟩ := unpack_eq_ok_iff.mp hu
    obtain ⟨-, -, hd, -⟩ := (loadWith_eq_ok_iff hf).mp h
    rw [← length_of_unpackFreely hf]
    exact ⟨hd, hlen⟩

/-- Only bytes whose unpacked size exceeds the limit are reported too large. -/
theorem isSize_iff :
    (∃ error, loadWith inflater options raw = .error error ∧ error.isSize = true) ↔
      options.maxBytes < unpackedSize inflater options.allowZstd raw := by
  constructor
  · rintro ⟨error, he, hs⟩
    refine Nat.lt_of_not_le fun hle => ?_
    -- Within the limit an error comes from the inflater or from the text.
    cases hf : unpackFreely inflater options.allowZstd raw with
    | error other =>
      rw [loadWith_of_unpackFreely_error hle hf] at he
      obtain rfl := Except.error.inj he
      rw [isSize_of_unpackFreely hf] at hs
      exact nomatch hs
    | ok unpacked =>
      rw [← length_of_unpackFreely hf] at hle
      obtain ⟨hlt, -⟩ | ⟨-, fault, -, rfl⟩ := (loadWith_eq_error_iff hf).mp he
      · omega
      · exact nomatch hs
  · intro h
    refine ⟨_, loadWith_of_lt h, ?_⟩
    unfold tooLarge
    split <;> rfl

end Loading

/-- Loading fails over a size exactly where the limit is below the unpacked size of the bytes,
    with an error that says no more than their own size and the limit. Under all limits from
    there on the outcome is one and the same: a document of that very size, or an error about
    something else. So a document that is loaded stays the same under every larger limit, and
    none is longer than its limit. Compressed bytes that are refused are refused whatever the
    limit is. This holds of every inflater, and so of the one that documents are loaded with. -/
theorem loadWith_threshold (inflater : Inflater) (raw : List UInt8) (options : LoadOptions) :
    ((∃ error, loadWith inflater options raw = .error error ∧ error.isSize = true) ↔
      options.maxBytes < unpackedSize inflater options.allowZstd raw) ∧
    (options.maxBytes < unpackedSize inflater options.allowZstd raw →
      loadWith inflater options raw = .error (tooLarge raw options.maxBytes)) ∧
    (∀ document, loadWith inflater options raw = .ok document →
      document.len = unpackedSize inflater options.allowZstd raw ∧
        document.len ≤ options.maxBytes) ∧
    (∀ others : LoadOptions, others.allowZstd = options.allowZstd →
      (unpackedSize inflater options.allowZstd raw ≤ options.maxBytes →
        unpackedSize inflater options.allowZstd raw ≤ others.maxBytes →
          loadWith inflater others raw = loadWith inflater options raw) ∧
      (options.maxBytes ≤ others.maxBytes → ∀ document,
        loadWith inflater options raw = .ok document →
          loadWith inflater others raw = .ok document)) ∧
    (Compression.detect raw = .zstd → options.allowZstd = false →
      unpackedSize inflater options.allowZstd raw = 0 ∧
        loadWith inflater options raw = .error .compressionRefused) ∧
    load options raw = loadWith .zstd options raw := by
  refine ⟨isSize_iff, loadWith_of_lt, ?_, ?_, ?_, rfl⟩
  · intro document h
    obtain ⟨hlen, hle⟩ := len_of_loadWith h
    exact ⟨hlen, hlen ▸ hle⟩
  · refine fun others ha => ⟨loadWith_eq_of_le ha, fun hle document h => ?_⟩
    have hsize := (len_of_loadWith h).2
    rw [loadWith_eq_of_le ha hsize (Nat.le_trans hsize hle), h]
  · intro hd ha
    have hsize : unpackedSize inflater options.allowZstd raw = 0 := by
      simp [unpackedSize, hd, ha]
    refine ⟨hsize, loadWith_of_unpackFreely_error (hsize ▸ Nat.zero_le _) ?_⟩
    simp [unpackFreely, hd, ha]

end Document

end WireForm
