import WireForm.Proofs.Command.Arguments
import WireForm.Proofs.Command.Runs
import WireForm.Proofs.Json.Rereadable

/-!
# JSON reports are read back

What a request prints in JSON is a document of its own. Whatever characters are in the path, the
keys, the names or the discriminator of the document it reports on, the report that is loaded from
it is the one that was printed, member by member.
-/

namespace WireForm.Command

open Json

/-! ## Reports as values -/

/-- The information about a document as a value. The discriminator has a member if there is one. -/
theorem Info.toValue_ofDocument (path : String) (document : Document) :
    (Info.ofDocument path document).toValue =
      .mapping ([("path", .string path), ("compression", .string document.compression.label),
        ("len", .number (.ofNat document.len document.len_lt)),
        ("shape", .string document.root.shape.label),
        ("keys", .sequence (document.root.keys.map .string))] ++
        (document.discriminator?.map fun value =>
          ("discriminator", .string (discriminatorText value))).toList) := by
  unfold Info.toValue Info.ofDocument Document.discriminatorLabel?
  rw [Option.map_map]
  rfl

/-- Only strings and one size are in the information about a document. -/
theorem Info.rereadable_toValue (depth : Nat) (info : Info) :
    Rereadable (depth + 2) info.toValue := by
  have hkeys : ∀ item ∈ info.keys.map Value.string, Rereadable depth item := by
    intro item hi
    obtain ⟨key, -, rfl⟩ := List.mem_map.mp hi
    exact .string depth key
  refine .mapping ?_ ?_
  · refine List.forall_mem_append.mpr ⟨?_, fun member hm => ?_⟩
    · exact List.forall_mem_cons.mpr ⟨.string _ info.path,
        List.forall_mem_cons.mpr ⟨.string _ info.compression.label,
          List.forall_mem_cons.mpr ⟨.natural _ info.len info.len_lt,
            List.forall_mem_cons.mpr ⟨.string _ info.shape.label,
              List.forall_mem_cons.mpr ⟨.sequence hkeys, List.forall_mem_nil _⟩⟩⟩⟩⟩
    · obtain ⟨label, -, rfl⟩ := Option.map_eq_some_iff.mp (Option.mem_toList.mp hm)
      exact .string _ label
  · -- The keys are fixed, but for the last, which is there or not.
    cases info.discriminator with
    | none => exact (by decide : ["path", "compression", "len", "shape", "keys"].Nodup)
    | some label =>
      exact (by decide : ["path", "compression", "len", "shape", "keys", "discriminator"].Nodup)

/-- A report on a record is one level deeper than the canonical form in it. -/
theorem Decoded.rereadable_toValue {depth : Nat} {decoded : Decoded}
    (h : Rereadable depth decoded.canonical) : Rereadable (depth + 1) decoded.toValue := by
  refine .mapping ?_ (by decide : ["path", "kind", "compression", "decoded", "canonical"].Nodup)
  exact List.forall_mem_cons.mpr ⟨.string _ decoded.path,
    List.forall_mem_cons.mpr ⟨.string _ decoded.kind.label,
      List.forall_mem_cons.mpr ⟨.string _ decoded.compression.label,
        List.forall_mem_cons.mpr ⟨.string _ decoded.description,
          List.forall_mem_cons.mpr ⟨h, List.forall_mem_nil _⟩⟩⟩⟩⟩

/-! ## Reports as documents -/

/-- In JSON the pretty form of the report is printed and nothing else, ended by a newline. -/
theorem print_json (lines : List String) (value : Value) :
    print true lines value = Json.pretty value ++ "\n" := by
  simp [print, unlines, String.join]

section Runs

variable {host : Host} {words : List String} {request : Request}

/-- A run in JSON that succeeds prints a document that is loaded as its report. For information
    it has the path as given, how the document is stored, its size and its shape, the keys of its
    root in order, and the discriminator if there is one. For a record it has the path, the kind,
    how the document is stored, the description of the record and the canonical form. The second
    is said of the kinds whose canonical forms are made of strings alone. -/
theorem json_report_reads_back (hp : parse? words = some request) (hj : request.json = true)
    (hs : (run host words).status = 0) :
    request.path ∈ words ∧
    ∃ document, host.load request.options request.path = .ok document ∧
      (request.task = .info →
        Document.LoadsAs (Text.Utf8.encodeText (run host words).stdout)
          (.mapping ([("path", .string request.path),
            ("compression", .string document.compression.label),
            ("len", .number (.ofNat document.len document.len_lt)),
            ("shape", .string document.root.shape.label),
            ("keys", .sequence (document.root.keys.map .string))] ++
            (document.discriminator?.map fun value =>
              ("discriminator", .string (discriminatorText value))).toList))) ∧
      ∀ name, request.task = .decode name →
        ∃ kind record canonical, Kind.parse name = .ok kind ∧
          Record.decode kind document.root = .ok record ∧
          canonicalize kind document.root = .ok canonical ∧
          (kind ∈ [.data, .variant .one, .variant .two, .interface] →
            Document.LoadsAs (Text.Utf8.encodeText (run host words).stdout)
              (.mapping [("path", .string request.path), ("kind", .string kind.label),
                ("compression", .string document.compression.label),
                ("decoded", .string record.describe), ("canonical", canonical)])) := by
  obtain ⟨text, ha, ho⟩ := (status_eq_zero_iff hp).mp hs
  refine ⟨path_mem_words hp, ?_⟩
  rw [ho]
  cases ht : request.task with
  | info =>
    obtain ⟨document, hd, rfl⟩ := (answer_info_eq_ok_iff ht).mp ha
    refine ⟨document, hd, fun _ => ?_, nofun⟩
    have hreport := Info.rereadable_toValue 125 (Info.ofDocument request.path document)
    rw [hj, print_json, ← Info.toValue_ofDocument]
    exact hreport.loadsAs_pretty_line
  | decode name =>
    obtain ⟨kind, document, decoded, hk, hd, hof, rfl⟩ := (answer_decode_eq_ok_iff ht).mp ha
    have hc := canonicalize_of_ofDocument hof
    obtain ⟨record, canonical, hr, -, rfl⟩ := Decoded.ofDocument_eq_ok_iff.mp hof
    refine ⟨document, hd, nofun, fun other hother => ?_⟩
    obtain rfl := Task.decode.inj hother
    refine ⟨kind, record, canonical, hk, hr, hc, fun hkind => ?_⟩
    -- Such a canonical form is nested two deep, however deep the root is, so what the report
    -- adds around it is never too deep to be read.
    have hreport := Decoded.rereadable_toValue (rereadable_canonicalize 124 hkind hc)
    rw [hj, print_json]
    exact hreport.loadsAs_pretty_line

end Runs

/-- A host with a file whose record has a name of two lines, and in place of a tag a mapping with a
    quote. -/
def quotedHost : Host where
  read _ := .ok (Text.Utf8.encodeText "\x7b\"type\": \x7b\"\\\"\": 1.5\x7d, \"name\": \"a\\nb\"\x7d")

/-- The information about that file under a path with a quote and a newline. -/
def quotedInfo : Value :=
  .mapping [("path", .string "x\"\n"), ("compression", .string "none"),
    ("len", .number (.ofNat 37 (by decide))), ("shape", .string "mapping"),
    ("keys", .sequence [.string "type", .string "name"]),
    ("discriminator", .string "\x7b\"\\\"\":1.5\x7d")]

/-- The data record in that file. -/
def quotedData : Value :=
  .mapping [("path", .string "x\"\n"), ("kind", .string "data"), ("compression", .string "none"),
    ("decoded", .string "Data(name=a\nb)"), ("canonical", dataForm "a\nb")]

theorem json_report_reads_back_quoted :
    ((run quotedHost ["info", "x\"\n", "--json"]).status = 0 ∧
      Document.LoadsAs (Text.Utf8.encodeText (run quotedHost ["info", "x\"\n", "--json"]).stdout)
        quotedInfo) ∧
    (run quotedHost ["decode", "x\"\n", "--json", "--as", "data"]).status = 0 ∧
      Document.LoadsAs
        (Text.Utf8.encodeText (run quotedHost ["decode", "x\"\n", "--json", "--as", "data"]).stdout)
        quotedData := by
  have hi : parse? ["info", "x\"\n", "--json"] = some ⟨.info, "x\"\n", true, {}⟩ := by
    decide +kernel
  have hsi : (run quotedHost ["info", "x\"\n", "--json"]).status = 0 := by decide +kernel
  have hd : parse? ["decode", "x\"\n", "--json", "--as", "data"] =
      some ⟨.decode "data", "x\"\n", true, {}⟩ := by decide +kernel
  have hsd : (run quotedHost ["decode", "x\"\n", "--json", "--as", "data"]).status = 0 := by
    decide +kernel
  refine ⟨⟨hsi, ?_⟩, hsd, ?_⟩
  · obtain ⟨-, document, hl, hload, -⟩ := json_report_reads_back hi rfl hsi
    have hinfo : (quotedHost.load {} "x\"\n").toOption.map
        (Info.ofDocument "x\"\n" · |>.toValue) = some quotedInfo := by decide +kernel
    rw [hl] at hinfo
    rw [← Option.some.inj hinfo]
    dsimp only
    rw [Info.toValue_ofDocument]
    exact hload rfl
  · obtain ⟨-, document, hl, -, hload⟩ := json_report_reads_back hd rfl hsd
    obtain ⟨kind, record, canonical, hk, hr, hc, hreads⟩ := hload "data" rfl
    obtain rfl : Kind.data = kind := Except.ok.inj hk
    have hdata : (quotedHost.load {} "x\"\n").toOption.map
        (fun document => (document.compression.label,
          (Record.decode .data document.root).toOption.map Record.describe,
          (canonicalize .data document.root).toOption)) =
        some ("none", some "Data(name=a\nb)", some (dataForm "a\nb")) := by decide +kernel
    rw [hl] at hdata
    have hparts := Option.some.inj hdata
    dsimp only at hparts
    rw [hr, hc] at hparts
    obtain ⟨hcompression, hdescribe, hcanonical⟩ := by
      simpa only [Prod.mk.injEq] using hparts
    obtain rfl : canonical = dataForm "a\nb" := Option.some.inj hcanonical
    have hreport := hreads (by decide)
    rw [hcompression, Option.some.inj hdescribe] at hreport
    exact hreport

end WireForm.Command
