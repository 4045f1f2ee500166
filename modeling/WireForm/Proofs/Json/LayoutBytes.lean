import WireForm.Proofs.Json.Layout
import WireForm.Proofs.Json.ReadSteps
import WireForm.Proofs.Json.StringReadBack

/-!
# The bytes of written values

The bytes of sequences and mappings, taken apart from the left as the reader meets them: a
bracket or a comma, a gap, and then the next item or member in front of all the others. What
follows an item is never mistaken for a part of it, and is longer than the number of items in
it, so a reader that is given its bytes as steps never runs out of them.
-/

namespace WireForm.Json

open Text.Utf8

variable {layout : Layout} {level : Nat}

/-! ## Sequences -/

theorem encode_moreItems_nil (rest : List UInt8) :
    encode (layout.moreItems level []) ++ rest =
      encode (layout.gap (level - 1)) ++ 0x5D :: rest := by
  rw [Layout.moreItems, encode_append, List.append_assoc]
  rfl

theorem encode_moreItems_cons (value : Value) (items : List Value) (rest : List UInt8) :
    encode (layout.moreItems level (value :: items)) ++ rest =
      0x2C :: (encode (layout.gap level) ++
        (encode (layout.chars level value) ++
          (encode (layout.moreItems level items) ++ rest))) := by
  rw [Layout.moreItems, List.cons_append, List.cons_append, encode_cons_of_ascii (by decide),
    encode_append, encode_append, List.cons_append, List.append_assoc, List.append_assoc]
  rfl

theorem encode_sequence_cons (value : Value) (items : List Value) (rest : List UInt8) :
    encode (layout.chars level (.sequence (value :: items))) ++ rest =
      0x5B :: (encode (layout.gap (level + 1)) ++ (encode (layout.chars (level + 1) value) ++
        (encode (layout.moreItems (level + 1) items) ++ rest))) := by
  rw [Layout.chars, encode_append, encode_append, encode_cons_of_ascii (by decide)]
  simp only [List.cons_append, List.append_assoc]
  rfl

/-- No number goes on with what follows an item. -/
theorem endsNumber_moreItems (layout : Layout) (level : Nat) (items : List Value)
    (rest : List UInt8) :
    EndsNumber (encode (layout.moreItems level items) ++ rest) := by
  cases items with
  | nil =>
    rw [encode_moreItems_nil]
    exact endsNumber_blanks (layout.gap_blank _) ⟨rfl, by decide, by decide, by decide⟩
  | cons value items =>
    rw [encode_moreItems_cons]
    exact ⟨rfl, by decide, by decide, by decide⟩

/-- There are more bytes than items. -/
theorem length_lt_moreItems (layout : Layout) (level : Nat) (items : List Value) :
    items.length < (encode (layout.moreItems level items)).length := by
  induction items with
  | nil =>
    have hbytes := congrArg List.length (@encode_moreItems_nil layout level [])
    simp only [List.append_nil, List.length_append, List.length_cons] at hbytes
    simp only [List.length_nil]
    omega
  | cons value items ih =>
    have hbytes := congrArg List.length (@encode_moreItems_cons layout level value items [])
    simp only [List.append_nil, List.length_append, List.length_cons] at hbytes ⊢
    omega

/-! ## Mappings -/

/-- The bytes of a written member before others. -/
def memberBytes (layout : Layout) (level : Nat) (key : String) (value : Value)
    (rest : List UInt8) : List UInt8 :=
  0x22 :: (encode (key.toList.flatMap escapeChar) ++
    0x22 :: 0x3A :: (encode layout.afterColon ++ (encode (layout.chars level value) ++ rest)))

theorem encode_member (key : String) (value : Value) (rest : List UInt8) :
    encode (quoted key) ++ (encode (':' :: layout.afterColon) ++
        (encode (layout.chars level value) ++ rest)) = memberBytes layout level key value rest := by
  rw [encode_quoted, encode_cons_of_ascii (by decide), List.cons_append, List.append_assoc]
  rfl

theorem encode_moreMembers_nil (rest : List UInt8) :
    encode (layout.moreMembers level []) ++ rest =
      encode (layout.gap (level - 1)) ++ 0x7D :: rest := by
  rw [Layout.moreMembers, encode_append, List.append_assoc]
  rfl

theorem encode_moreMembers_cons (key : String) (value : Value) (members : Members)
    (rest : List UInt8) :
    encode (layout.moreMembers level ((key, value) :: members)) ++ rest =
      0x2C :: (encode (layout.gap level) ++
        memberBytes layout level key value
          (encode (layout.moreMembers level members) ++ rest)) := by
  rw [← encode_member, Layout.moreMembers, encode_append, encode_append, encode_append,
    encode_append, encode_cons_of_ascii (by decide)]
  simp only [List.cons_append, List.append_assoc]
  rfl

theorem encode_mapping_cons (key : String) (value : Value) (members : Members)
    (rest : List UInt8) :
    encode (layout.chars level (.mapping ((key, value) :: members))) ++ rest =
      0x7B :: (encode (layout.gap (level + 1)) ++ memberBytes layout (level + 1) key value
        (encode (layout.moreMembers (level + 1) members) ++ rest)) := by
  rw [← encode_member, Layout.chars, encode_append, encode_append, encode_append,
    encode_append, encode_cons_of_ascii (by decide)]
  simp only [List.cons_append, List.append_assoc]
  rfl

/-- No number goes on with what follows a member. -/
theorem endsNumber_moreMembers (layout : Layout) (level : Nat) (members : Members)
    (rest : List UInt8) : EndsNumber (encode (layout.moreMembers level members) ++ rest) := by
  cases members with
  | nil =>
    rw [encode_moreMembers_nil]
    exact endsNumber_blanks (layout.gap_blank _) ⟨rfl, by decide, by decide, by decide⟩
  | cons member members =>
    rw [encode_moreMembers_cons]
    exact ⟨rfl, by decide, by decide, by decide⟩

/-- There are more bytes than members. -/
theorem length_lt_moreMembers (layout : Layout) (level : Nat) (members : Members) :
    members.length < (encode (layout.moreMembers level members)).length := by
  induction members with
  | nil =>
    have hbytes := congrArg List.length (@encode_moreMembers_nil layout level [])
    simp only [List.append_nil, List.length_append, List.length_cons] at hbytes
    simp only [List.length_nil]
    omega
  | cons member members ih =>
    obtain ⟨key, value⟩ := member
    have hbytes := congrArg List.length (@encode_moreMembers_cons layout level key value members [])
    simp only [memberBytes, List.append_nil, List.length_append, List.length_cons] at hbytes ⊢
    omega

end WireForm.Json
