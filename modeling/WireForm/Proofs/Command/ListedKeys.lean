import WireForm.Command.Report
import WireForm.Proofs.Document.Load
import WireForm.Proofs.Json.Denoted
import WireForm.Proofs.Record.DistinctKeys

/-!
# The keys that are listed

A report lists the keys of a document's root. They are the keys that the text has at its top
level, each once and in the order in which they are written first, since documents are loaded
condensed: nothing that is loaded, and nothing that canonicalization makes of it, has a key twice.
-/

namespace WireForm.Command

/-- That a report lists given keys, in both of its forms. Its text has no line for no keys. -/
def Info.Lists (info : Info) (keys : List String) : Prop :=
  info.keys = keys ∧ (keys ≠ [] → "keys: " ++ ", ".intercalate keys ∈ info.lines) ∧
    ∃ fields, info.toValue = .mapping fields ∧
      fields.lookup "keys" = some (.sequence (keys.map .string))

theorem Info.lists_keys (info : Info) : info.Lists info.keys := by
  refine ⟨rfl, fun hne => ?_, _, rfl, rfl⟩
  rw [Info.lines, if_neg hne]
  exact List.mem_append_left _ (List.mem_append_right _ List.mem_cons_self)

/-- A document that is loaded holds the one value that its text denotes, condensed: wherever a
    mapping is written, as the root or inside it, its keys are in the order in which they are
    written first, each has the value that is written last under it, and that value is what every
    decoder reads. So no key stands twice anywhere in the root, a report lists the keys of the root
    once each in that order, and chains from the root and encoders of any record keep keys
    distinct. -/
theorem loaded_keys_distinct {inflater : Inflater} {options : LoadOptions} {raw : List UInt8}
    {document : Document} (h : Document.loadWith inflater options raw = .ok document) :
    (∃ text written, unpack inflater options raw = .ok (document.compression, text) ∧
      Json.Holds text written ∧ (∀ other, Json.Holds text other → other = written) ∧
      document.root = written.condensed ∧
      (∀ members, written = .mapping members → ReadsLast members document.root) ∧
      ∀ path, (Info.ofDocument path document).Lists written.keys.eraseDups) ∧
    (∀ members, ReadsLast members (Value.mapping members).condensed) ∧
    document.root.DistinctKeys ∧
    (∀ kinds, (canonicalChain document.root kinds).DistinctKeys) ∧
    (∀ names form, .ok form ∈ chainByName document.root names → form.DistinctKeys) ∧
    ∀ (record : Record) form,
      (∀ payload, record.payload? = some payload → payload.DistinctKeys) →
      record.encode = .ok form → form.DistinctKeys := by
  obtain ⟨text, hunpack, hread, -⟩ := Document.loadWith_eq_ok_iff_unpack.mp h
  obtain ⟨written, hholds, hroot⟩ := Json.exists_holds_of_read hread
  have hk : document.root.DistinctKeys := by
    rw [hroot]
    exact Value.distinctKeys_condensed written
  have hlast (members : Members) (hm : written = .mapping members) :
      ReadsLast members document.root := by
    rw [hroot, hm]
    exact readsLast_condensed members
  refine ⟨⟨text, written, hunpack, hholds, fun other ho => hholds.unique ho, hroot, hlast,
      fun path => ?_⟩,
    readsLast_condensed, hk, fun kinds => distinctKeys_canonicalChain kinds hk,
    fun names form => distinctKeys_chainByName hk, fun record form => distinctKeys_encode⟩
  have hkeys : (Info.ofDocument path document).keys = written.keys.eraseDups := by
    rw [← Value.keys_condensed, ← hroot]
    rfl
  rw [← hkeys]
  exact Info.lists_keys _

/-- An object with both of its keys written twice, one of them with an escape, and a key written
    twice in one of its values. -/
def repeatedText : List UInt8 :=
  Text.Utf8.encodeText ("\x7b\"type\":\"two\",\"data\":1,\"t\\u0079pe\":\"one\"," ++
    "\"data\":\x7b\"name\":1,\"name\":2\x7d\x7d")

theorem loaded_keys_distinct_repeated :
    ∃ document, Document.loadWith .zstd {} repeatedText = .ok document ∧
      document.root = .mapping [("type", .string "one"),
        ("data", .mapping [("name", .number (.ofNat 2))])] ∧
      document.root.DistinctKeys ∧
      (Info.ofDocument "twice.json" document).Lists ["type", "data"] := by
  have hload : Document.loadWith .zstd {} repeatedText =
      .ok ⟨.none, 68, .mapping [("type", .string "one"),
        ("data", .mapping [("name", .number (.ofNat 2))])], by decide⟩ := by decide +kernel
  obtain ⟨⟨text, written, -, -, -, hroot, -, hlists⟩, -, hk, -⟩ := loaded_keys_distinct hload
  have hkeys : written.keys.eraseDups = ["type", "data"] := by
    rw [← Value.keys_condensed, ← hroot]
    rfl
  exact ⟨_, hload, rfl, hk, hkeys ▸ hlists "twice.json"⟩

end WireForm.Command
