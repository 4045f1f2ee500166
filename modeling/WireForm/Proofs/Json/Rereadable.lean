import WireForm.Proofs.Json.ReadBack
import WireForm.Proofs.Document.Load
import WireForm.Proofs.Record.Admitted

/-!
# Values that are read back as they were written

A value that the reader could have given and that has no floats is loaded from its pretty form as
the identical tree. The canonical forms of data records and of variants are such values, whatever
their strings are.
-/

namespace WireForm.Json

/-- That a value is nested within a depth, has distinct keys and holds no floats. -/
def Rereadable (depth : Nat) (value : Value) : Prop := Admitted depth value ∧ value.FloatFree

section Rereadable

variable {depth : Nat}

theorem Rereadable.string (depth : Nat) (text : String) : Rereadable depth (.string text) :=
  ⟨.string depth text, .intro nofun nofun⟩

theorem Rereadable.natural (depth n : Nat) (h : n < 0x10000000000000000) :
    Rereadable depth (.number (.ofNat n h)) :=
  ⟨.number depth (.ofNat n h), .intro nofun nofun⟩

theorem Rereadable.sequence {items : List Value} (h : ∀ item ∈ items, Rereadable depth item) :
    Rereadable (depth + 1) (.sequence items) :=
  ⟨.sequence fun item hi => (h item hi).1, .intro nofun fun item hi => (h item hi).2⟩

theorem Rereadable.mapping {members : Members}
    (h : ∀ member ∈ members, Rereadable depth member.2) (hk : (members.map (·.1)).Nodup) :
    Rereadable (depth + 1) (.mapping members) := by
  refine ⟨.mapping (fun member hm => (h member hm).1) hk, .intro nofun fun part hp => ?_⟩
  obtain ⟨member, hm, rfl⟩ := List.mem_map.mp hp
  exact (h member hm).2

/-- Such a value is loaded from its pretty form, printed as a line. -/
theorem Rereadable.loadsAs_pretty_line {value : Value} (h : Rereadable maxDepth value) :
    Document.LoadsAs (Text.Utf8.encodeText (pretty value ++ "\n")) value :=
  Document.loadsAs_of_read (read_pretty_line h.1.2 h.2 h.1.1)

theorem rereadable_dataForm (depth : Nat) (name : String) :
    Rereadable (depth + 1) (dataForm name) := by
  refine .mapping ?_ (by decide : ["name"].Nodup)
  exact List.forall_mem_cons.mpr ⟨.string depth name, List.forall_mem_nil _⟩

theorem rereadable_variantForm (depth : Nat) (tag : Tag) (name inner : String) :
    Rereadable (depth + 2) (variantForm tag name inner) := by
  refine .mapping ?_ (by decide : ["type", "name", "data"].Nodup)
  exact List.forall_mem_cons.mpr ⟨.string _ tag.stamp,
    List.forall_mem_cons.mpr ⟨.string _ name,
      List.forall_mem_cons.mpr ⟨rereadable_dataForm depth inner, List.forall_mem_nil _⟩⟩⟩

/-- The canonical form of a data record, of a variant or of a union holds strings only, however
    large the value is that it was made of. -/
theorem rereadable_canonicalize (depth : Nat) {kind : Kind} {wire canonical : Value}
    (hk : kind ∈ [.data, .variant .one, .variant .two, .interface])
    (h : canonicalize kind wire = .ok canonical) : Rereadable (depth + 2) canonical := by
  cases kind with
  | data =>
    obtain ⟨_, name, -, -, rfl⟩ := canonicalize_data_iff.mp h
    exact rereadable_dataForm (depth + 1) name
  | variant tag =>
    obtain ⟨_, _, name, inner, -, -, -, -, rfl⟩ := canonicalize_variant_iff.mp h
    exact rereadable_variantForm depth tag name inner
  | interface =>
    obtain ⟨_, tag, -, -, hv⟩ := canonicalize_interface_iff.mp h
    obtain ⟨_, _, name, inner, -, -, -, -, rfl⟩ := canonicalize_variant_iff.mp hv
    exact rereadable_variantForm depth tag name inner
  | point => exact absurd hk (by decide)
  | wrapper => exact absurd hk (by decide)

end Rereadable

end WireForm.Json
