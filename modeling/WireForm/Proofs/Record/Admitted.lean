import WireForm.Proofs.Json.Accepted
import WireForm.Proofs.Record.Grammar

/-!
# Canonical forms stay within what the reader accepts

A value that the reader can have given has canonical forms that the reader could give too. Only
a wrapper keeps a part of the value, and that part stood one level down, where the wrapper puts
it again; the other forms hold strings and numbers at fixed places.
-/

namespace WireForm

open Json

theorem Json.Admitted.string (depth : Nat) (text : String) : Admitted depth (.string text) :=
  .of_parts_eq_nil rfl rfl rfl depth

theorem Json.Admitted.number (depth : Nat) (n : Number) : Admitted depth (.number n) :=
  .of_parts_eq_nil rfl rfl rfl depth

/-- What stands in a mapping is nested one level less. -/
theorem Json.Admitted.of_mem {depth : Nat} {members : Members} {member : String × Value}
    (h : Admitted (depth + 1) (.mapping members)) (hm : member ∈ members) :
    Admitted depth member.2 :=
  ⟨Value.depth_mapping_le_iff.mp h.1 member hm, h.2.inside member.2 (List.mem_map_of_mem hm)⟩

theorem admitted_dataForm (depth : Nat) (name : String) : Admitted (depth + 1) (dataForm name) := by
  refine .mapping ?_ (by decide : ["name"].Nodup)
  exact List.forall_mem_cons.mpr ⟨.string depth name, List.forall_mem_nil _⟩

theorem admitted_pointForm (depth : Nat) (timestamp value : Number) :
    Admitted (depth + 1) (pointForm timestamp value) := by
  refine .sequence ?_
  exact List.forall_mem_cons.mpr ⟨.number depth timestamp,
    List.forall_mem_cons.mpr ⟨.number depth value, List.forall_mem_nil _⟩⟩

theorem admitted_variantForm (depth : Nat) (tag : Tag) (name inner : String) :
    Admitted (depth + 2) (variantForm tag name inner) := by
  refine .mapping ?_ (by decide : ["type", "name", "data"].Nodup)
  exact List.forall_mem_cons.mpr ⟨.string _ tag.stamp,
    List.forall_mem_cons.mpr ⟨.string _ name,
      List.forall_mem_cons.mpr ⟨admitted_dataForm depth inner, List.forall_mem_nil _⟩⟩⟩

theorem admitted_wrapperForm {depth : Nat} {payload : Value} (h : Admitted depth payload) :
    Admitted (depth + 1) (wrapperForm payload) := by
  refine .mapping ?_ (by decide : ["data"].Nodup)
  exact List.forall_mem_cons.mpr ⟨h, List.forall_mem_nil _⟩

/-- Canonicalization never takes a value over the depth it was within, and makes no key stand
    twice. -/
theorem admitted_canonicalize {depth : Nat} {kind : Kind} {wire canonical : Value}
    (ha : Admitted (depth + 2) wire) (h : canonicalize kind wire = .ok canonical) :
    Admitted (depth + 2) canonical := by
  cases kind with
  | data =>
    obtain ⟨_, name, -, -, rfl⟩ := canonicalize_data_iff.mp h
    exact admitted_dataForm (depth + 1) name
  | point =>
    obtain ⟨timestamp, value, -, rfl⟩ := canonicalize_point_iff.mp h
    exact admitted_pointForm (depth + 1) timestamp value
  | variant tag =>
    obtain ⟨_, _, name, inner, -, -, -, -, rfl⟩ := canonicalize_variant_iff.mp h
    exact admitted_variantForm depth tag name inner
  | interface =>
    obtain ⟨_, tag, -, -, hv⟩ := canonicalize_interface_iff.mp h
    obtain ⟨_, _, name, inner, -, -, -, -, rfl⟩ := canonicalize_variant_iff.mp hv
    exact admitted_variantForm depth tag name inner
  | wrapper =>
    obtain ⟨payload, rfl, ⟨text, -, rfl⟩ | ⟨members, rfl, hs⟩⟩ := canonicalize_wrapper_iff.mp h
    · exact admitted_wrapperForm (.string (depth + 1) text)
    -- The payload was a member of the value, so there is one level of nesting to spare.
    · exact admitted_wrapperForm (ha.of_mem (Value.mem_of_slot hs))

end WireForm
