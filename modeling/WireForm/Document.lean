import WireForm.Inflater
import WireForm.Json.Reader
import WireForm.Record.Variant

/-!
# Documents

A document is a JSON text, as it is or inflated from a zstd stream, of at most a given size.
`Document.loadWith` reads one from bytes with the help of an inflater, and `Document.load` with
that of zstd streams.
-/

namespace WireForm

/-! ## Compression -/

/-- How the bytes of a document are stored. -/
inductive Compression where
  | none | zstd
deriving DecidableEq

namespace Compression

/-- The label of a compression. -/
def label : Compression → String
  | .none => "none"
  | .zstd => "zstd"

/-- Tells the compression by the first bytes. -/
def detect (raw : List UInt8) : Compression :=
  if Zstd.magic.isPrefixOf raw then .zstd else .none

end Compression

/-! ## Loading -/

/-- What a caller accepts. -/
structure LoadOptions where
  /-- The largest size of the JSON text. -/
  maxBytes : Nat := 67108864
  /-- Sizes are numbers of 64 bits. -/
  maxBytes_lt : maxBytes < 0x10000000000000000 := by decide
  /-- Whether compressed documents are accepted. -/
  allowZstd : Bool := true
deriving DecidableEq

/-- The JSON text that bytes hold, and how they hold it, with the help of an inflater. -/
def unpack (inflater : Inflater) (options : LoadOptions) (raw : List UInt8) :
    Except Error (Compression × List UInt8) :=
  match Compression.detect raw with
  | .none =>
    if options.maxBytes < raw.length then .error (.inputTooLarge raw.length options.maxBytes)
    else .ok (.none, raw)
  | .zstd =>
    if options.allowZstd then do
      return (.zstd, ← inflater.inflate options.maxBytes raw)
    else .error .compressionRefused

/-- What is unpacked keeps to the limit. -/
theorem length_le_of_unpack {inflater : Inflater} {options : LoadOptions}
    {raw text : List UInt8} {compression : Compression}
    (h : unpack inflater options raw = .ok (compression, text)) :
    text.length ≤ options.maxBytes := by
  unfold unpack at h
  split at h
  · split at h
    · cases h
    next hlimit =>
    obtain ⟨-, rfl⟩ := Prod.mk.inj (Except.ok.inj h)
    exact Nat.not_lt.mp hlimit
  · split at h
    · cases hi : inflater.inflate options.maxBytes raw with
      | error error =>
        rw [hi] at h
        cases h
      | ok inflated =>
        rw [hi] at h
        obtain ⟨-, rfl⟩ := Prod.mk.inj (Except.ok.inj h)
        exact Inflater.length_le_of_inflate hi
    · cases h

/-- A document. -/
structure Document where
  compression : Compression
  /-- The size of the JSON text. -/
  len : Nat
  root : Value
  /-- Sizes are numbers of 64 bits. -/
  len_lt : len < 0x10000000000000000
deriving DecidableEq

namespace Document

/-- Reads a document from the JSON text it holds. -/
def ofText (compression : Compression) (text : List UInt8)
    (h : text.length < 0x10000000000000000) : Except Error Document :=
  match Json.read text with
  | .error fault => .error (.json fault)
  | .ok root => .ok ⟨compression, text.length, root, h⟩

/-- Reads a document from bytes, with the help of an inflater. -/
def loadWith (inflater : Inflater) (options : LoadOptions) (raw : List UInt8) :
    Except Error Document :=
  match h : unpack inflater options raw with
  | .error error => .error error
  | .ok (compression, text) =>
    ofText compression text (Nat.lt_of_le_of_lt (length_le_of_unpack h) options.maxBytes_lt)

/-- Reads a document from bytes. -/
def load (options : LoadOptions) (raw : List UInt8) : Except Error Document :=
  loadWith .zstd options raw

/-- Reads a document from a file, with the help of an inflater. -/
def loadFileWith (inflater : Inflater) (options : LoadOptions)
    (file : Except FileFault (List UInt8)) : Except Error Document :=
  match file with
  | .ok raw => loadWith inflater options raw
  | .error fault => .error (.file fault)

/-- Reads a document from a file. -/
def loadFile (options : LoadOptions) (file : Except FileFault (List UInt8)) :
    Except Error Document :=
  loadFileWith .zstd options file

/-- What stands under the tag key of the root, if it is there and not `null`. -/
def discriminator? (document : Document) : Option Value := document.root.discriminator?

/-- What the discriminator is shown as. -/
def discriminatorLabel? (document : Document) : Option String :=
  document.discriminator?.map discriminatorText

end Document

end WireForm
