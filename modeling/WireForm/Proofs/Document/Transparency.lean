import WireForm.Proofs.Document.SizeLimit

/-!
# Compression is transparent

A compressed document is loaded as the text inside it is, under the same limits and with the same
faults, except for how it is said to be stored. Text that can be read never looks compressed, so
a text that does is loaded in neither form.
-/

namespace WireForm.Document

section Streams

variable {inflater : Inflater} {options : LoadOptions} {raw stream text : List UInt8}
  {compression : Compression} {delivery : Zstd.Delivery}

/-- Bytes that do not look compressed unpack to themselves. -/
theorem unpackFreely_of_raw (inflater : Inflater) (allowZstd : Bool)
    (h : Compression.detect raw = .none) :
    unpackFreely inflater allowZstd raw = .ok (.none, raw) :=
  unpackFreely_eq_ok_iff.mpr (.inl ⟨h, rfl, rfl⟩)

/-- A stream that is accepted and ends well unpacks to all that was handed out of it. -/
theorem unpackFreely_of_stream (ha : options.allowZstd = true)
    (hm : Compression.detect stream = .zstd) (hs : inflater.start stream = .ok delivery)
    (he : delivery.defect = none) (ht : delivery.pieces.flatten = text) :
    unpackFreely inflater options.allowZstd stream = .ok (.zstd, text) :=
  unpackFreely_eq_ok_iff.mpr (.inr ⟨hm, rfl, ha, delivery, hs, he, ht.symm⟩)

/-- A document that is loaded is stored as its first bytes tell. -/
theorem detect_of_loadWith {document : Document}
    (h : loadWith inflater options raw = .ok document) :
    Compression.detect raw = document.compression := by
  cases hu : unpack inflater options raw with
  | error error =>
    rw [loadWith_of_error hu] at h
    exact nomatch h
  | ok unpacked =>
    have hf := (unpack_eq_ok_iff.mp hu).1
    obtain ⟨-, hc, -⟩ := (loadWith_eq_ok_iff hf).mp h
    rw [hc, detect_of_unpackFreely hf]

/-- Whether compressed documents are accepted is of no matter to bytes that do not look it. -/
theorem loadWith_allowZstd (h : Compression.detect raw = .none) (allowZstd : Bool) :
    loadWith inflater { options with allowZstd } raw = loadWith inflater options raw := by
  refine loadWith_congr ?_
  simp only [unpack, h]

/-- A stream is loaded, as compressed, exactly if its text is, as it stands. -/
theorem loadWith_stream_eq_ok_iff
    (hstream : unpackFreely inflater options.allowZstd stream = .ok (.zstd, text))
    {len : Nat} {root : Value} {len_lt : len < 0x10000000000000000} :
    loadWith inflater options stream = .ok ⟨.zstd, len, root, len_lt⟩ ↔
      loadWith inflater options text = .ok ⟨.none, len, root, len_lt⟩ := by
  rw [loadWith_eq_ok_iff hstream]
  constructor
  · rintro ⟨hle, -, hlen, hr⟩
    have htext := unpackFreely_of_raw inflater options.allowZstd (detect_of_read hr)
    exact (loadWith_eq_ok_iff htext).mpr ⟨hle, rfl, hlen, hr⟩
  · intro h
    -- Of a text that looks compressed nothing is loaded as it stands.
    have htext := unpackFreely_of_raw inflater options.allowZstd (detect_of_loadWith h)
    obtain ⟨hle, -, hlen, hr⟩ := (loadWith_eq_ok_iff htext).mp h
    exact ⟨hle, rfl, hlen, hr⟩

/-- Of a stream and of its text the same faults are reported, and a text that is too large makes
    the stream too large. -/
theorem loadWith_stream_eq_error_iff
    (hstream : unpackFreely inflater options.allowZstd stream = .ok (.zstd, text))
    (hraw : Compression.detect text = .none) :
    (∀ fault, loadWith inflater options stream = .error (.json fault) ↔
      loadWith inflater options text = .error (.json fault)) ∧
    (loadWith inflater options stream = .error (.inflatedTooLarge options.maxBytes) ↔
      options.maxBytes < text.length) ∧
    (loadWith inflater options text = .error (.inputTooLarge text.length options.maxBytes) ↔
      options.maxBytes < text.length) := by
  have htext := unpackFreely_of_raw inflater options.allowZstd hraw
  have hmagic := detect_of_unpackFreely hstream
  refine ⟨fun fault => ?_, ?_, ?_⟩
  · rw [loadWith_eq_error_iff hstream, loadWith_eq_error_iff htext, tooLarge_of_stream hmagic,
      tooLarge_of_raw hraw]
    simp
  · rw [loadWith_eq_error_iff hstream, tooLarge_of_stream hmagic]
    simp
  · rw [loadWith_eq_error_iff htext, tooLarge_of_raw hraw]
    simp

/-- Nothing else goes wrong with a text than a fault in it or its size. -/
theorem error_of_loadWith (h : unpackFreely inflater options.allowZstd raw = .ok (compression, text))
    {error : Error} (he : loadWith inflater options raw = .error error) :
    (∃ fault, error = .json fault) ∨ error = tooLarge raw options.maxBytes := by
  obtain ⟨-, rfl⟩ | ⟨-, fault, -, rfl⟩ := (loadWith_eq_error_iff h).mp he
  · exact .inr rfl
  · exact .inl ⟨fault, rfl⟩

end Streams

/-- A stream of which the reads of an inflater hand out a text, in whatever pieces, and then end
    well, is loaded exactly if its text is: with the same size and the identical root, and under
    the same limits. If the text does not look compressed itself, the two fail alike too: with
    the same fault, or both because of the size. No text that can be read looks compressed, so
    it is of no matter to such a text whether compressed documents are accepted. -/
theorem loadWith_stream (inflater : Inflater) (options : LoadOptions) {stream text : List UInt8}
    {delivery : Zstd.Delivery} (ha : options.allowZstd = true)
    (hm : Compression.detect stream = .zstd) (hs : inflater.start stream = .ok delivery)
    (ht : delivery.pieces.flatten = text) (he : delivery.defect = none) :
    (∀ len root len_lt,
      loadWith inflater options stream = .ok ⟨.zstd, len, root, len_lt⟩ ↔
        loadWith inflater options text = .ok ⟨.none, len, root, len_lt⟩) ∧
    (Compression.detect text = .none →
      (∀ fault, loadWith inflater options stream = .error (.json fault) ↔
        loadWith inflater options text = .error (.json fault)) ∧
      (loadWith inflater options stream = .error (.inflatedTooLarge options.maxBytes) ↔
        options.maxBytes < text.length) ∧
      (loadWith inflater options text = .error (.inputTooLarge text.length options.maxBytes) ↔
        options.maxBytes < text.length) ∧
      (∀ error, loadWith inflater options stream = .error error →
        (∃ fault, error = .json fault) ∨ error = .inflatedTooLarge options.maxBytes) ∧
      (∀ error, loadWith inflater options text = .error error →
        (∃ fault, error = .json fault) ∨ error = .inputTooLarge text.length options.maxBytes)) ∧
    (∀ accepted root, Json.read accepted = .ok root →
      Compression.detect accepted = .none ∧
        ∀ allowZstd, loadWith inflater { options with allowZstd } accepted =
          loadWith inflater options accepted) ∧
    ∀ raw, load options raw = loadWith .zstd options raw := by
  have hstream := unpackFreely_of_stream ha hm hs he ht
  refine ⟨fun _ _ _ => loadWith_stream_eq_ok_iff hstream, fun hraw => ?_, fun accepted root hr => ?_,
    fun _ => rfl⟩
  · have htext := unpackFreely_of_raw inflater options.allowZstd hraw
    obtain ⟨hfault, hinflated, hinput⟩ := loadWith_stream_eq_error_iff hstream hraw
    refine ⟨hfault, hinflated, hinput, fun error h => ?_, fun error h => ?_⟩
    · rw [← tooLarge_of_stream hm]
      exact error_of_loadWith hstream h
    · rw [← tooLarge_of_raw hraw]
      exact error_of_loadWith htext h
  · exact ⟨detect_of_read hr, loadWith_allowZstd (detect_of_read hr)⟩

/-- Two frames of one block each that is not compressed. They hold the text `[1,2]` between them. -/
def listFrames : List UInt8 :=
  [0x28, 0xB5, 0x2F, 0xFD, 0x20, 0x03, 0x19, 0x00, 0x00, 0x5B, 0x31, 0x2C,
    0x28, 0xB5, 0x2F, 0xFD, 0x20, 0x02, 0x11, 0x00, 0x00, 0x32, 0x5D]

/-- That text. -/
def listText : List UInt8 := [0x5B, 0x31, 0x2C, 0x32, 0x5D]

/-- The frames are read in two pieces, and the text is loaded from them under the limit of its size
    and under no smaller one, as it is when it stands alone. -/
theorem loadWith_stream_listFrames :
    Zstd.deliver listFrames = ⟨[[0x5B, 0x31, 0x2C], [0x32, 0x5D]], none⟩ ∧
      loadWith .zstd { maxBytes := 5 } listFrames =
        .ok ⟨.zstd, 5, .sequence [.number (.ofNat 1), .number (.ofNat 2)], by decide⟩ ∧
      loadWith .zstd { maxBytes := 5 } listText =
        .ok ⟨.none, 5, .sequence [.number (.ofNat 1), .number (.ofNat 2)], by decide⟩ ∧
      loadWith .zstd { maxBytes := 4 } listFrames = .error (.inflatedTooLarge 4) ∧
      loadWith .zstd { maxBytes := 4 } listText = .error (.inputTooLarge 5 4) := by
  have hd : Zstd.deliver listFrames = ⟨[[0x5B, 0x31, 0x2C], [0x32, 0x5D]], none⟩ := by
    decide +kernel
  have hs : Inflater.zstd.start listFrames = .ok ⟨[[0x5B, 0x31, 0x2C], [0x32, 0x5D]], none⟩ :=
    congrArg Except.ok hd
  have hr : Json.read listText = .ok (.sequence [.number (.ofNat 1), .number (.ofNat 2)]) := rfl
  obtain ⟨hok, -⟩ := loadWith_stream .zstd { maxBytes := 5 } rfl rfl hs rfl rfl
  obtain ⟨-, hraw, -⟩ := loadWith_stream .zstd { maxBytes := 4 } rfl rfl hs rfl rfl
  obtain ⟨-, hstream, htext, -⟩ := hraw rfl
  have hlist : loadWith .zstd { maxBytes := 5 } listText =
      .ok ⟨.none, 5, .sequence [.number (.ofNat 1), .number (.ofNat 2)], by decide⟩ :=
    loadWith_of_read hr (by decide)
  exact ⟨hd, (hok _ _ _).mpr hlist, hlist, hstream.mpr (by decide), htext.mpr (by decide)⟩

end WireForm.Document
