import WireForm.Proofs.Json.Accepted
import WireForm.Proofs.Json.ReadBack

/-!
# What nesting the reader refuses

A reader that allows less depth than another reads what the other reads, and alike, unless it
comes to the limit and says so. So the text of a value that is nested one level too deep is
refused for its depth and for nothing else.
-/

namespace WireForm.Json

/-! ## Cut results -/

section Cut

variable {α β : Type} {a b : Except Stop α}

/-- That one result is the other, unless the reader that gave it came to the limit. -/
def Cut (a b : Except Stop α) : Prop := a = b ∨ ∃ unread, a = .error ⟨.recursionLimit, unread, 0⟩

theorem Cut.refl (a : Except Stop α) : Cut a a := .inl rfl

theorem Cut.bind {f g : α → Except Stop β} (h : Cut a b) (hfg : ∀ x, Cut (f x) (g x)) :
    Cut (a >>= f) (b >>= g) := by
  obtain rfl | ⟨unread, rfl⟩ := h
  · cases a with
    | error stop => exact .refl _
    | ok x => exact hfg x
  · exact .inr ⟨unread, rfl⟩

end Cut

/-! ## Loops -/

section Loops

variable {item more : List UInt8 → Except Stop (After Value)}

theorem cut_readItems (hi : ∀ text, Cut (item text) (more text)) (steps : List UInt8)
    (read : List Value) (text : List UInt8) :
    Cut (readItems item steps read text) (readItems more steps read text) := by
  induction steps generalizing read text with
  | nil => exact .refl _
  | cons step steps ih =>
    -- Past the item both readers look at the same bytes.
    refine (hi text).bind fun (value, rest) => ?_
    dsimp only
    split
    · exact .refl _
    · exact .refl _
    · split
      · exact .refl _
      · exact .refl _
      · exact ih (value :: read) _
    · exact .refl _

theorem cut_readList (hi : ∀ text, Cut (item text) (more text)) (text : List UInt8) :
    Cut (readList item text) (readList more text) := by
  unfold readList
  split
  · exact .refl _
  · exact .refl _
  · exact (cut_readItems hi _ [] _).bind fun _ => .refl _

theorem cut_readMemberValue (hi : ∀ text, Cut (item text) (more text)) (text : List UInt8) :
    Cut (readMemberValue item text) (readMemberValue more text) := by
  unfold readMemberValue
  split
  · exact .refl _
  · exact hi _
  · exact .refl _

theorem cut_readMembers (hi : ∀ text, Cut (item text) (more text)) (steps : List UInt8)
    (read : Members) (text : List UInt8) :
    Cut (readMembers item steps read text) (readMembers more steps read text) := by
  induction steps generalizing read text with
  | nil => exact .refl _
  | cons step steps ih =>
    refine (Cut.refl (readString text.tail)).bind fun (key, rest) => ?_
    refine (cut_readMemberValue hi rest).bind fun (value, rest) => ?_
    dsimp only
    split
    · exact .refl _
    · exact .refl _
    · split
      · exact .refl _
      · exact ih _ _
      · exact .refl _
      · exact .refl _
    · exact .refl _

theorem cut_readObject (hi : ∀ text, Cut (item text) (more text)) (text : List UInt8) :
    Cut (readObject item text) (readObject more text) := by
  unfold readObject
  split
  · exact .refl _
  · exact .refl _
  · exact (cut_readMembers hi _ [] _).bind fun _ => .refl _
  · exact .refl _

end Loops

/-! ## Values -/

/-- One more level of nesting allowed changes no result but that of coming to the limit. -/
theorem cut_readValue (depth : Nat) (text : List UInt8) :
    Cut (readValue depth text) (readValue (depth + 1) text) := by
  induction depth generalizing text with
  | zero =>
    rw [readValue.eq_def, readValue.eq_def]
    dsimp only
    split
    · exact .inr ⟨_, rfl⟩
    · exact .inr ⟨_, rfl⟩
    · exact .refl _
  | succ depth ih =>
    rw [readValue.eq_def, readValue.eq_def (depth + 1 + 1)]
    dsimp only
    split
    · exact cut_readList ih _
    · exact cut_readObject ih _
    · exact .refl _

/-- The text of a value that is nested one level too deep is refused for that. -/
theorem read_chars_too_deep {g : Number → Number} {value : Value} (hk : value.DistinctKeys)
    (hn : NumbersReread g value) (hd : value.depth = maxDepth + 1) (layout : Layout) (level : Nat)
    {blanks : List Char} (hb : ∀ c ∈ blanks, c = ' ' ∨ c = '\n') :
    ∃ place, read (Text.Utf8.encode (layout.chars level value ++ blanks)) =
      .error ⟨.recursionLimit, place⟩ := by
  have hend : EndsNumber (Text.Utf8.encode blanks) :=
    List.append_nil (Text.Utf8.encode blanks) ▸ endsNumber_blanks hb trivial
  have hmore := @readValue_chars layout g value hk hn level (maxDepth + 1) (Nat.le_of_eq hd) _ hend
  rw [← Text.Utf8.encode_append] at hmore
  obtain hsame | ⟨unread, hlimit⟩ := cut_readValue maxDepth
    (Text.Utf8.encode (layout.chars level value ++ blanks))
  · -- What is read within the limit is nested no deeper, and the numbers do not change that.
    have hadmitted := (readValue_yields maxDepth (hsame.trans hmore)).1
    rw [Value.depth_mapNumbers] at hadmitted
    omega
  · exact ⟨_, by rw [read, readDocument, hlimit]; rfl⟩

end WireForm.Json
