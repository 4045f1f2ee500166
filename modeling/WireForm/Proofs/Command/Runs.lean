import WireForm.Command
import WireForm.Proofs.Document.Load
import WireForm.Proofs.Json.Accepted
import WireForm.Proofs.Record.Grammar

/-!
# Successful runs

What is behind a run that has status zero: a file that was loaded, and for a record a kind that is
known, under which the root of the document is read and written again.
-/

namespace WireForm.Command

section Runs

variable {host : Host} {words : List String} {request : Request}

/-- A run of a request has status zero when it has an answer. -/
theorem status_eq_zero_iff (hp : parse? words = some request) :
    (run host words).status = 0 ↔
      ∃ text, answer host request = .ok text ∧ (run host words).stdout = text := by
  simp only [run, hp]
  cases answer host request with
  | error error => simp
  | ok text => simp

/-- A request for information is answered when its file is loaded. -/
theorem answer_info_eq_ok_iff {text : String} (ht : request.task = .info) :
    answer host request = .ok text ↔
      ∃ document, host.load request.options request.path = .ok document ∧
        print request.json (Info.ofDocument request.path document).lines
          (Info.ofDocument request.path document).toValue = text := by
  simp only [answer, ht, bind_eq_ok_iff, pure_eq_ok, Except.ok.injEq]

/-- A request for a record is answered when its kind is known, its file is loaded and the
    document is read as that kind and written again. -/
theorem answer_decode_eq_ok_iff {name text : String} (ht : request.task = .decode name) :
    answer host request = .ok text ↔
      ∃ kind document decoded, Kind.parse name = .ok kind ∧
        host.load request.options request.path = .ok document ∧
        Decoded.ofDocument request.path kind document = .ok decoded ∧
        print request.json decoded.lines decoded.toValue = text := by
  simp only [answer, ht, bind_eq_ok_iff, pure_eq_ok, Except.ok.injEq]
  constructor
  · rintro ⟨kind, hk, document, hd, decoded, ho, rfl⟩
    exact ⟨kind, document, decoded, hk, hd, ho, rfl⟩
  · rintro ⟨kind, document, decoded, hk, hd, ho, rfl⟩
    exact ⟨kind, hk, document, hd, decoded, ho, rfl⟩

end Runs

/-- What is reported of a document as a kind: the record that its root is read as, and that
    record written again. -/
theorem Decoded.ofDocument_eq_ok_iff {path : String} {kind : Kind} {document : Document}
    {decoded : Decoded} :
    ofDocument path kind document = .ok decoded ↔
      ∃ record canonical, Record.decode kind document.root = .ok record ∧
        record.encode = .ok canonical ∧
        decoded = ⟨path, kind, document.compression, record.describe, canonical⟩ := by
  simp only [ofDocument, bind_eq_ok_iff, pure_eq_ok, Except.ok.injEq]
  constructor
  · rintro ⟨record, hr, canonical, hc, rfl⟩
    exact ⟨record, canonical, hr, hc, rfl⟩
  · rintro ⟨record, canonical, hr, hc, rfl⟩
    exact ⟨record, hr, canonical, hc, rfl⟩

/-- What is reported of a document as a kind holds its canonical form under that kind. -/
theorem canonicalize_of_ofDocument {path : String} {kind : Kind} {document : Document}
    {decoded : Decoded} (h : Decoded.ofDocument path kind document = .ok decoded) :
    canonicalize kind document.root = .ok decoded.canonical := by
  obtain ⟨record, canonical, hr, hc, rfl⟩ := Decoded.ofDocument_eq_ok_iff.mp h
  exact canonicalize_eq_ok_iff.mpr ⟨record, hr, hc⟩

/-- The root of a document that was loaded is within what the reader accepts. -/
theorem Host.admitted_of_load {host : Host} {options : LoadOptions} {path : String}
    {document : Document} (h : host.load options path = .ok document) :
    Json.Admitted Json.maxDepth document.root := by
  obtain ⟨raw, -, hl⟩ := Document.loadFileWith_eq_ok_iff.mp h
  obtain ⟨text, -, hr, -⟩ := Document.loadWith_eq_ok_iff_unpack.mp hl
  exact Json.admitted_of_read hr

end WireForm.Command
