import WireForm.Proofs.Command.JsonReport
import WireForm.Proofs.Json.Reread

/-!
# Reports on records as documents

A report on a record is one level deeper than the canonical form in it. It is a document again,
with its numbers as they are reread, unless the canonical form is as deep as a document may be.
Only a wrapper can be, since only a wrapper keeps a part of the document; a report on such a
wrapper is refused for its depth.
-/

namespace WireForm

open Json Text.Utf8

/-- The canonical form of anything but a wrapper is nested two deep at most, whatever the root. -/
theorem admitted_canonicalize_of_ne_wrapper {kind : Kind} {wire canonical : Value}
    (hk : kind ≠ .wrapper) (h : canonicalize kind wire = .ok canonical) : Admitted 2 canonical := by
  cases kind with
  | point =>
    obtain ⟨timestamp, value, -, rfl⟩ := canonicalize_point_iff.mp h
    exact admitted_pointForm 1 timestamp value
  | wrapper => exact absurd rfl hk
  | data => exact (rereadable_canonicalize 0 (by decide) h).1
  | variant tag => exact (rereadable_canonicalize 0 (by cases tag <;> decide) h).1
  | interface => exact (rereadable_canonicalize 0 (by decide) h).1

namespace Command

variable {decoded : Decoded}

/-- A report on a record is one level deeper than the canonical form in it. -/
theorem Decoded.depth_toValue (decoded : Decoded) :
    decoded.toValue.depth = decoded.canonical.depth + 1 := by
  simp [Decoded.toValue, Value.depth, Value.depthMembers]

theorem Decoded.admitted_toValue {depth : Nat} (h : Admitted depth decoded.canonical) :
    Admitted (depth + 1) decoded.toValue := by
  refine .mapping ?_ (by decide : ["path", "kind", "compression", "decoded", "canonical"].Nodup)
  exact List.forall_mem_cons.mpr ⟨.string _ decoded.path,
    List.forall_mem_cons.mpr ⟨.string _ decoded.kind.label,
      List.forall_mem_cons.mpr ⟨.string _ decoded.compression.label,
        List.forall_mem_cons.mpr ⟨.string _ decoded.description,
          List.forall_mem_cons.mpr ⟨h, List.forall_mem_nil _⟩⟩⟩⟩⟩

/-- A report on a canonical form that is not as deep as can be is loaded as that report, with the
    numbers in the form as they are reread. -/
theorem Decoded.loadsAs_pretty_line (h : Admitted maxDepth decoded.canonical)
    (hd : decoded.canonical.depth < maxDepth) :
    Document.LoadsAs (encodeText (pretty decoded.toValue ++ "\n"))
      { decoded with canonical := decoded.canonical.mapNumbers Number.reread }.toValue := by
  have hreport : Admitted maxDepth decoded.toValue :=
    ⟨decoded.depth_toValue.trans_le hd, (Decoded.admitted_toValue h).2⟩
  have hread := read_pretty_line_reread hreport
  rw [Decoded.toValue, Value.mapNumbers_mapping] at hread
  exact Document.loadsAs_of_read hread

/-- A report on a canonical form as deep as can be is refused for its depth. -/
theorem Decoded.refused_pretty_line (h : Admitted maxDepth decoded.canonical)
    (hd : decoded.canonical.depth = maxDepth) :
    Document.RefusedFor .recursionLimit
      (encodeText (pretty decoded.toValue ++ "\n")) := by
  obtain ⟨place, hread⟩ := read_pretty_line_too_deep (Decoded.admitted_toValue h).2
    (decoded.depth_toValue.trans (congrArg (· + 1) hd))
  exact ⟨place, fun _ _ hlen => Document.loadWith_of_read_error hread nofun hlen⟩

/-! ## Runs -/

section Runs

variable {host : Host} {words : List String} {request : Request}
  {name : String}

/-- What a run in JSON on a record prints when it succeeds: the report on the record that the root
    of the document is read as, whose canonical form is within the limit again. -/
theorem decode_report_of_status (hp : parse? words = some request) (hj : request.json = true)
    (ht : request.task = .decode name) (hs : (run host words).status = 0) :
    ∃ document kind record canonical,
      host.load request.options request.path = .ok document ∧
      Kind.parse name = .ok kind ∧ Record.decode kind document.root = .ok record ∧
      canonicalize kind document.root = .ok canonical ∧ Admitted maxDepth canonical ∧
      (run host words).stdout = pretty (Decoded.toValue
        ⟨request.path, kind, document.compression, record.describe, canonical⟩) ++ "\n" := by
  obtain ⟨text, ha, ho⟩ := (status_eq_zero_iff hp).mp hs
  obtain ⟨kind, document, decoded, hk, hd, hof, rfl⟩ := (answer_decode_eq_ok_iff ht).mp ha
  have hc := canonicalize_of_ofDocument hof
  have hadmitted : Admitted maxDepth decoded.canonical :=
    admitted_canonicalize (Host.admitted_of_load hd) hc
  obtain ⟨record, canonical, hr, -, rfl⟩ := Decoded.ofDocument_eq_ok_iff.mp hof
  rw [hj, print_json] at ho
  exact ⟨document, kind, record, canonical, hd, hk, hr, hc, hadmitted, ho⟩

/-- A run in JSON on a record that succeeds prints a document that is loaded as its report, with
    the numbers of the canonical form as they are reread, unless the canonical form is as deep as
    a document may be. Only that of a wrapper can be, and then what is printed is refused for its
    depth by everyone. -/
theorem decode_report_reads_back (hp : parse? words = some request) (hj : request.json = true)
    (ht : request.task = .decode name) (hs : (run host words).status = 0) :
    ∃ document kind record canonical,
      host.load request.options request.path = .ok document ∧
      Kind.parse name = .ok kind ∧ Record.decode kind document.root = .ok record ∧
      canonicalize kind document.root = .ok canonical ∧ canonical.depth ≤ maxDepth ∧
      (kind ≠ .wrapper → canonical.depth < maxDepth) ∧
      (canonical.depth < maxDepth →
        Document.LoadsAs (encodeText (run host words).stdout)
          (.mapping [("path", .string request.path), ("kind", .string kind.label),
            ("compression", .string document.compression.label),
            ("decoded", .string record.describe),
            ("canonical", canonical.mapNumbers Number.reread)])) ∧
      (canonical.depth = maxDepth →
        Document.RefusedFor .recursionLimit (encodeText (run host words).stdout)) := by
  obtain ⟨document, kind, record, canonical, hd, hk, hr, hc, ha, ho⟩ :=
    decode_report_of_status hp hj ht hs
  refine ⟨document, kind, record, canonical, hd, hk, hr, hc, ha.1, fun hkind => ?_, ?_, ?_⟩
  · have hshallow := (admitted_canonicalize_of_ne_wrapper hkind hc).1
    exact Nat.lt_of_le_of_lt hshallow (by decide)
  · intro hdepth
    rw [ho]
    exact Decoded.loadsAs_pretty_line ha hdepth
  · intro hdepth
    rw [ho]
    exact Decoded.refused_pretty_line ha hdepth

end Runs

/-- A host with a file whose wrapper holds a list with a number, nested two deep. -/
def shallowHost : Host where
  read _ := .ok (encodeText "\x7b\"data\": [0.5, null]\x7d")

/-- The wrapper in that file in its canonical form. -/
def shallowForm : Value :=
  wrapperForm (.sequence [.number (.float ⟨false, 0x3FE0000000000000, by decide⟩), .null])

theorem parse?_decode_type : parse? ["decode", "doc", "--json", "--as", "type"] =
    some ⟨.decode "type", "doc", true, {}⟩ := by decide +kernel

theorem decode_report_reads_back_shallow :
    (run shallowHost ["decode", "doc", "--json", "--as", "type"]).status = 0 ∧
      Document.LoadsAs
        (encodeText (run shallowHost ["decode", "doc", "--json", "--as", "type"]).stdout)
        (.mapping [("path", .string "doc"), ("kind", .string "type"),
          ("compression", .string "none"), ("decoded", .string "Type(data=[0.5,null])"),
          ("canonical", shallowForm)]) := by
  have hs : (run shallowHost ["decode", "doc", "--json", "--as", "type"]).status = 0 := by
    decide +kernel
  refine ⟨hs, ?_⟩
  obtain ⟨document, kind, record, canonical, hd, hk, hr, hc, -, -, hloads, -⟩ :=
    decode_report_reads_back parse?_decode_type rfl rfl hs
  obtain rfl : Kind.wrapper = kind := Except.ok.inj hk
  have hparts : (shallowHost.load {} "doc").toOption.map
      (fun document => (document.compression.label,
        (Record.decode .wrapper document.root).toOption.map Record.describe,
        (canonicalize .wrapper document.root).toOption)) =
      some ("none", some "Type(data=[0.5,null])", some shallowForm) := by decide +kernel
  rw [hd] at hparts
  have hparts := Option.some.inj hparts
  dsimp only at hparts
  rw [hr, hc] at hparts
  obtain ⟨hcompression, hdescribe, hcanonical⟩ := by simpa only [Prod.mk.injEq] using hparts
  obtain rfl : canonical = shallowForm := Option.some.inj hcanonical
  have hreread : shallowForm.mapNumbers Number.reread = shallowForm := by decide +kernel
  have hreport := hloads (by decide)
  rw [hcompression, Option.some.inj hdescribe, hreread] at hreport
  exact hreport

/-! ## The deepest wrapper -/

/-- A list in a list and so on, the innermost of them empty. -/
def nested : Nat → Value
  | 0 => .sequence []
  | n + 1 => .sequence [nested n]

theorem length_gap_pretty (level : Nat) : (encode (Layout.pretty.gap level)).length = 2 * level + 1 := by
  have hblanks (n : Nat) : (encode (List.replicate n ' ')).length = n := by
    induction n with
    | zero => rfl
    | succ n ih => rw [List.replicate_succ, encode_cons_of_ascii (by decide), List.length_cons, ih]
  show (encode (newLine level)).length = _
  rw [newLine, encode_cons_of_ascii (by decide), List.length_cons, hblanks]

theorem length_memberBytes_pretty (level : Nat) (key : String) (value : Value)
    (rest : List UInt8) :
    (memberBytes Layout.pretty level key value rest).length =
      (encode (quoted key)).length + 2 + (encode (Layout.pretty.chars level value)).length +
        rest.length := by
  have hcolon : (encode (':' :: Layout.pretty.afterColon)).length = 2 := rfl
  rw [← encode_member, List.length_append, List.length_append, List.length_append, hcolon]
  omega

/-- Each list in a list adds two brackets and the lines that they stand on. -/
theorem length_nested_le (level n : Nat) :
    (encode (Layout.pretty.chars level (nested n))).length ≤ (n + 1) * (4 * (level + n) + 6) := by
  induction n generalizing level with
  | zero =>
    have htext : (encode (Layout.pretty.chars level (nested 0))).length = 2 := rfl
    omega
  | succ n ih =>
    have hinner := ih (level + 1)
    have hlength := congrArg List.length
      (@encode_sequence_cons Layout.pretty level (nested n) [] [])
    rw [List.append_nil, encode_moreItems_nil] at hlength
    simp only [List.length_append, List.length_cons, length_gap_pretty, List.length_nil] at hlength
    have hmul : (n + 1 + 1) * (4 * (level + (n + 1)) + 6) =
      (n + 1) * (4 * (level + 1 + n) + 6) + (4 * (level + 1 + n) + 6) := by ring
    rw [nested, hlength]
    omega

/-- The size of a printed report, from those of the parts that vary. -/
theorem Decoded.length_pretty_line (decoded : Decoded) :
    (encodeText (pretty decoded.toValue ++ "\n")).length =
      (encode (quoted decoded.path)).length + (encode (quoted decoded.kind.label)).length +
        (encode (quoted decoded.compression.label)).length +
        (encode (quoted decoded.description)).length +
        (encode (Layout.pretty.chars 1 decoded.canonical)).length + 78 := by
  have hkeys : (["path", "kind", "compression", "decoded", "canonical"].map fun key =>
      (encode (quoted key)).length) = [6, 6, 13, 9, 11] := by decide +kernel
  simp only [List.map_cons, List.map_nil, List.cons.injEq] at hkeys
  obtain ⟨hpath, hkind, hcompression, hdecoded, hcanonical, -⟩ := hkeys
  have hend : (encode ['\n']).length = 1 := rfl
  rw [encodeText_pretty_line, encode_append, Decoded.toValue, encode_mapping_cons]
  simp only [encode_moreMembers_cons, encode_moreMembers_nil, length_memberBytes_pretty,
    List.length_append, List.length_cons, length_gap_pretty, Layout.chars, scalarChars, hpath, hkind,
    hcompression, hdecoded, hcanonical, hend, Nat.zero_add]
  omega

theorem length_wrapperForm_pretty (level : Nat) (payload : Value) :
    (encode (Layout.pretty.chars level (wrapperForm payload))).length =
      (encode (Layout.pretty.chars (level + 1) payload)).length + 4 * level + 14 := by
  have hkey : (encode (quoted "data")).length = 6 := by decide +kernel
  have hlength := congrArg List.length
    (@encode_mapping_cons Layout.pretty level "data" payload [] [])
  rw [List.append_nil, encode_moreMembers_nil] at hlength
  simp only [List.length_append, List.length_cons, length_gap_pretty, length_memberBytes_pretty,
    hkey, List.length_nil] at hlength
  rw [wrapperForm, hlength]
  omega

/-- A host with a file whose wrapper holds lists nested as deep as the reader allows. -/
def deepHost : Host where
  read _ := .ok (encodeText "\x7b\"data\":" ++ List.replicate 126 0x5B ++ List.replicate 126 0x5D ++
    encodeText "\x7d")

/-- How the wrapper in that file is described. Its text is taken apart before it is counted, since
    long texts are slow to compute. -/
theorem length_describe_nested :
    (encode (quoted (Record.wrapper ⟨some (nested 125)⟩).describe)).length = 265 := by
  have htext : (Record.wrapper ⟨some (nested 125)⟩).describe.toList =
      "Type(data=".toList ++ compactChars (nested 125) ++ ")".toList := by
    rw [← toList_compact, ← String.toList_append, ← String.toList_append]
    rfl
  rw [quoted, htext]
  decide +kernel

/-- The wrapper in that file is reported on, and the report, which is far smaller than what is
    accepted by default, is refused as a document. -/
theorem decode_report_refused_deep :
    (run deepHost ["decode", "doc", "--json", "--as", "type"]).status = 0 ∧
      (encodeText (run deepHost ["decode", "doc", "--json", "--as", "type"]).stdout).length ≤
        ({} : LoadOptions).maxBytes ∧
      Document.RefusedFor .recursionLimit
        (encodeText (run deepHost ["decode", "doc", "--json", "--as", "type"]).stdout) := by
  have hs : (run deepHost ["decode", "doc", "--json", "--as", "type"]).status = 0 := by
    decide +kernel
  refine ⟨hs, ?_⟩
  obtain ⟨document, kind, record, canonical, hd, hk, hr, hc, ha, ho⟩ :=
    decode_report_of_status parse?_decode_type rfl rfl hs
  obtain rfl : Kind.wrapper = kind := Except.ok.inj hk
  have hfile : (deepHost.load {} "doc").toOption.map
      (fun document => (document.compression.label, document.root)) =
        some ("none", wrapperForm (nested 125)) := by decide +kernel
  rw [hd] at hfile
  obtain ⟨hcompression, hroot⟩ := Prod.mk.inj (Option.some.inj hfile)
  rw [hroot] at hr hc
  obtain rfl : Record.wrapper ⟨some (nested 125)⟩ = record := Except.ok.inj hr
  obtain rfl : wrapperForm (nested 125) = canonical := Except.ok.inj hc
  rw [ho]
  have hdepth : (wrapperForm (nested 125)).depth = maxDepth := by decide +kernel
  refine ⟨?_, Decoded.refused_pretty_line ha hdepth⟩
  have hfixed : (encode (quoted "doc")).length = 5 ∧
      (encode (quoted Kind.wrapper.label)).length = 6 ∧
      (encode (quoted "none")).length = 6 := by decide +kernel
  have hnested := length_nested_le (1 + 1) 125
  have hmax : ({} : LoadOptions).maxBytes = 67108864 := rfl
  rw [Decoded.length_pretty_line, length_wrapperForm_pretty, hcompression, hmax]
  dsimp only
  rw [length_describe_nested, hfixed.1, hfixed.2.1, hfixed.2.2]
  omega

end Command

end WireForm
