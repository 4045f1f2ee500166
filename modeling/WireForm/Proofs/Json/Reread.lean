import WireForm.Proofs.Json.Depth
import WireForm.Proofs.Json.FloatReadBack

/-!
# Every value is read back with its numbers reread

The text of an integer is read as that integer, and that of a float as some float of its sign: the
digits that are written are the shortest ones for a reader that rounds once, and this reader rounds
twice. `Number.reread` is what becomes of a number on the way, and it is all that changes in a
value that is written and read again.
-/

namespace WireForm

open Json

namespace Number

/-- The number that the text of a number is read as. -/
def reread (n : Number) : Number :=
  ((readNumber (Text.Utf8.encode n.text)).toOption.map (·.1)).getD n

end Number

namespace Json

theorem RereadAs.reread_eq {n m : Number} (h : RereadAs n m) : n.reread = m := by
  have hread := h [] trivial
  rw [List.append_nil] at hread
  rw [Number.reread, hread]
  rfl

@[simp] theorem reread_int (value : Int)
    (inRange : -0x8000000000000000 ≤ value ∧ value < 0x10000000000000000) :
    (Number.int value inRange).reread = .int value inRange :=
  (RereadAs.int value inRange).reread_eq

/-- A float is reread as a float of its sign. -/
theorem exists_reread_float (x : Binary64) :
    ∃ y : Binary64, (Number.float x).reread = .float y ∧ y.negative = x.negative := by
  obtain ⟨y, hy, hneg⟩ := exists_rereadAs_float x
  exact ⟨y, hy.reread_eq, hneg⟩

/-- Whatever number it is, its text is read. -/
theorem rereadAs_reread (n : Number) : RereadAs n n.reread := by
  cases n with
  | int value inRange =>
    rw [reread_int]
    exact .int value inRange
  | float x =>
    obtain ⟨y, hy, -⟩ := exists_rereadAs_float x
    rwa [hy.reread_eq]

theorem numbersReread_reread (value : Value) : NumbersReread Number.reread value := by
  induction value using Value.parts_induction with
  | step value ih => exact .intro (fun n _ => rereadAs_reread n) ih

/-! ## Texts -/

/-- A value within the limit is read back from its compact form but for its numbers. -/
theorem read_compact_reread {value : Value} (h : Admitted maxDepth value) :
    read (Text.Utf8.encodeText (compact value)) = .ok (value.mapNumbers Number.reread) := by
  rw [encodeText_compact]
  exact read_chars h.2 (numbersReread_reread value) h.1 .compact 0 (List.forall_mem_nil _)

/-- A value within the limit is read back from its pretty form, printed as a line. -/
theorem read_pretty_line_reread {value : Value} (h : Admitted maxDepth value) :
    read (Text.Utf8.encodeText (pretty value ++ "\n")) = .ok (value.mapNumbers Number.reread) := by
  rw [encodeText_pretty_line]
  exact read_chars h.2 (numbersReread_reread value) h.1 .pretty 0
    (List.forall_mem_singleton.mpr (.inr rfl))

/-- The pretty form of a value one level over the limit is refused for its depth. -/
theorem read_pretty_line_too_deep {value : Value} (hk : value.DistinctKeys)
    (hd : value.depth = maxDepth + 1) :
    ∃ place, read (Text.Utf8.encodeText (pretty value ++ "\n")) =
      .error ⟨.recursionLimit, place⟩ := by
  rw [encodeText_pretty_line]
  exact read_chars_too_deep hk (numbersReread_reread value) hd .pretty 0
    (List.forall_mem_singleton.mpr (.inr rfl))

end Json

end WireForm
