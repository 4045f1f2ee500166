import WireForm.Proofs.Command.Runs
import WireForm.Proofs.Json.Printable
import WireForm.Proofs.Json.ReadBack
import WireForm.Proofs.Record.Admitted

/-!
# The printed canonical form

The last line that a request for a record prints in text holds its canonical form. Whatever
newlines are in the names of the record, they are escaped there, so the line is the whole form
and can be loaded as a document of its own.
-/

namespace WireForm.Command

/-! ## Lines -/

/-- The last line of a text: what follows its last newline, but for one at the very end. -/
def lastLine (text : String) : String :=
  let chars := text.toList.reverse
  let ended := if chars.head? = some '\n' then chars.tail else chars
  String.ofList (ended.takeWhile (· ≠ '\n')).reverse

theorem toList_unlines (lines : List String) :
    (unlines lines).toList = lines.flatMap fun line => line.toList ++ ['\n'] := by
  simp [unlines, String.toList_join, List.flatMap_map]

/-- Of the lines that are printed the last is the last one, if it has no newline of its own. -/
theorem lastLine_unlines (lines : List String) {last : String} (h : '\n' ∉ last.toList) :
    lastLine (unlines (lines ++ [last])) = last := by
  have hreverse : (unlines (lines ++ [last])).toList.reverse =
      '\n' :: (last.toList.reverse ++ (unlines lines).toList.reverse) := by
    simp [toList_unlines]
  have hlast : ∀ c ∈ last.toList.reverse, decide (c ≠ '\n') = true := by
    intro c hc
    refine decide_eq_true fun hn => h ?_
    rw [← hn]
    exact List.mem_reverse.mp hc
  -- The lines before, read from their end, begin with a newline, if there are any.
  have hbefore : ((unlines lines).toList.reverse).takeWhile (· ≠ '\n') = [] := by
    rw [toList_unlines, List.reverse_flatMap]
    cases lines.reverse with
    | nil => rfl
    | cons line others => simp
  unfold lastLine
  rw [hreverse]
  dsimp only
  rw [List.head?_cons, if_pos rfl, List.tail_cons, List.takeWhile_append_of_pos hlast, hbefore,
    List.append_nil, List.reverse_reverse, String.ofList_toList]

/-! ## The printed form -/

section Runs

variable {host : Host} {words : List String} {request : Request}

/-- The text that ends the report of a record holds the canonical form and nothing else. -/
theorem lastLine_decoded (decoded : Decoded) (value : Value) :
    lastLine (print false decoded.lines value) =
      "canonical: " ++ Json.compact decoded.canonical := by
  have hline : '\n' ∉ ("canonical: " ++ Json.compact decoded.canonical).toList := by
    rw [String.toList_append, Json.toList_compact, List.mem_append, not_or]
    refine ⟨by decide, fun hn => ?_⟩
    exact absurd (Json.printable_compactChars decoded.canonical '\n' hn) (by decide)
  exact lastLine_unlines ["path: " ++ decoded.path, "kind: " ++ decoded.kind.label,
    "compression: " ++ decoded.compression.label, "decoded: " ++ decoded.description] hline

/-- A run in text that reads a record with success ends its output with a line that holds the
    compact text of the canonical form. That text has no control byte, and if the form has no
    floats the text is a document that is loaded, uncompressed and at its full size, with the
    identical tree as its root. -/
theorem printed_form_reads_back {name : String} (hp : parse? words = some request)
    (ht : request.task = .decode name) (hj : request.json = false)
    (hs : (run host words).status = 0) :
    ∃ kind document canonical, Kind.parse name = .ok kind ∧
      host.load request.options request.path = .ok document ∧
      canonicalize kind document.root = .ok canonical ∧
      lastLine (run host words).stdout = "canonical: " ++ Json.compact canonical ∧
      (∀ b ∈ Text.Utf8.encodeText (Json.compact canonical), 0x20 ≤ b) ∧
      (canonical.FloatFree →
        Document.LoadsAs (Text.Utf8.encodeText (Json.compact canonical)) canonical) := by
  obtain ⟨text, ha, ho⟩ := (status_eq_zero_iff hp).mp hs
  obtain ⟨kind, document, decoded, hk, hd, hof, rfl⟩ := (answer_decode_eq_ok_iff ht).mp ha
  have hc := canonicalize_of_ofDocument hof
  -- The root was accepted by the reader, and its canonical form is nested no deeper.
  have hadmitted : Json.Admitted Json.maxDepth decoded.canonical :=
    admitted_canonicalize (Host.admitted_of_load hd) hc
  refine ⟨kind, document, decoded.canonical, hk, hd, hc, ?_, ?_, ?_⟩
  · rw [ho, hj]
    exact lastLine_decoded decoded decoded.toValue
  · intro b hb
    rw [Text.Utf8.encodeText, Json.toList_compact] at hb
    exact UInt8.le_iff_toNat_le.mpr
      (Text.Utf8.le_of_mem_encode (Json.printable_compactChars decoded.canonical) hb)
  · exact fun hf => Document.loadsAs_of_read (Json.read_compact hadmitted.2 hf hadmitted.1)

end Runs

/-- A host with a file whose record has a name of two lines. -/
def noteHost : Host where
  read _ := .ok (Text.Utf8.encodeText "\x7b\"n\": 1.5, \"name\": \"a\\nb\"\x7d")

theorem printed_form_reads_back_note :
    (run noteHost ["decode", "note", "--as", "data"]).status = 0 ∧
      lastLine (run noteHost ["decode", "note", "--as", "data"]).stdout =
        "canonical: \x7b\"name\":\"a\\nb\"\x7d" ∧
      Document.LoadsAs (Text.Utf8.encodeText "\x7b\"name\":\"a\\nb\"\x7d") (dataForm "a\nb") := by
  have hs : (run noteHost ["decode", "note", "--as", "data"]).status = 0 := by decide +kernel
  have hp : parse? ["decode", "note", "--as", "data"] =
      some ⟨.decode "data", "note", false, {}⟩ := by decide +kernel
  obtain ⟨kind, document, canonical, hk, hd, hc, hl, -, hload⟩ :=
    printed_form_reads_back hp rfl rfl hs
  obtain rfl : Kind.data = kind := Except.ok.inj hk
  have hform : (noteHost.load {} "note").toOption.bind
      (canonicalize .data ·.root |>.toOption) = some (dataForm "a\nb") := by decide +kernel
  rw [hd] at hform
  change (canonicalize .data document.root).toOption = _ at hform
  rw [hc] at hform
  obtain rfl : canonical = dataForm "a\nb" := Option.some.inj hform
  have hfree : (dataForm "a\nb").FloatFree := by
    refine .intro nofun fun part hpart => ?_
    obtain rfl := List.mem_singleton.mp hpart
    exact .intro nofun nofun
  exact ⟨hs, hl, hload hfree⟩

end WireForm.Command
