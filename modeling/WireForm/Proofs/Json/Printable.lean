import WireForm.Proofs.Json.Layout
import WireForm.Proofs.Json.NumberText

/-!
# The compact form has no control characters

Whatever strings are in a value, its compact form is one line: control characters are escaped,
and what is written around the strings has none. This holds of floats as well, whose texts are
made of digits, signs, a point and an `e`.
-/

namespace WireForm.Json

/-- That a text has no control character. -/
def Printable (chars : List Char) : Prop := ∀ c ∈ chars, 0x20 ≤ c.toNat

-- The instance is named because one that goes through every character there is fits as well.
instance (chars : List Char) : Decidable (Printable chars) :=
  List.decidableBAll (fun c : Char => 0x20 ≤ c.toNat) chars

theorem Printable.nil : Printable [] := List.forall_mem_nil _

@[simp] theorem printable_cons {c : Char} {chars : List Char} :
    Printable (c :: chars) ↔ 0x20 ≤ c.toNat ∧ Printable chars :=
  List.forall_mem_cons

@[simp] theorem printable_append {xs ys : List Char} :
    Printable (xs ++ ys) ↔ Printable xs ∧ Printable ys :=
  List.forall_mem_append

/-! ## Numbers -/

theorem le_of_isNumeric {c : Char} (h : isNumeric c = true) : 0x20 ≤ c.toNat := by
  simp only [isNumeric, Bool.or_eq_true, decide_eq_true_eq] at h
  obtain hdigit | hother := h
  · exact Nat.le_trans (by decide) (Char.isDigit_iff_toNat.mp hdigit).1
  · exact (by decide : Printable ['-', '+', '.', 'e']) c hother

theorem printable_number (n : Number) : Printable n.text :=
  fun c hc => le_of_isNumeric (numeric_text n c hc)

/-! ## Strings -/

theorem printable_hexDigit : ∀ d < 16, 0x20 ≤ (hexDigit d).toNat := by decide

/-- A character is written without control characters, also when it is one. -/
theorem printable_escapeChar (c : Char) : Printable (escapeChar c) := by
  unfold escapeChar
  split
  · decide
  split
  · decide
  split
  · decide
  split
  · decide
  split
  · decide
  split
  · decide
  split
  · decide
  split
  · have hhigh := printable_hexDigit (c.toNat / 16) (by omega)
    have hlow := printable_hexDigit (c.toNat % 16) (by omega)
    have hmark : Printable ['\\', 'u', '0', '0'] := by decide
    exact printable_append.mpr ⟨hmark, printable_cons.mpr ⟨hhigh, printable_cons.mpr ⟨hlow, .nil⟩⟩⟩
  · next hc => exact printable_cons.mpr ⟨Nat.le_of_not_lt hc, .nil⟩

theorem printable_quoted (text : String) : Printable (quoted text) := by
  rw [quoted, List.cons_append, printable_cons, printable_append, printable_cons]
  refine ⟨by decide, ?_, by decide, .nil⟩
  intro c hc
  obtain ⟨source, -, hc⟩ := List.mem_flatMap.mp hc
  exact printable_escapeChar source c hc

/-! ## Values -/

theorem printable_moreItems {items : List Value} (level : Nat)
    (h : ∀ item ∈ items, Printable (Layout.compact.chars level item)) :
    Printable (Layout.compact.moreItems level items) := by
  induction items with
  | nil => exact (by decide : Printable [']'])
  | cons item items ih =>
    obtain ⟨hitem, hrest⟩ := List.forall_mem_cons.mp h
    rw [Layout.moreItems, printable_append, printable_append]
    exact ⟨⟨(by decide : Printable [',']), hitem⟩, ih hrest⟩

theorem printable_moreMembers {members : Members} (level : Nat)
    (h : ∀ member ∈ members, Printable (Layout.compact.chars level member.2)) :
    Printable (Layout.compact.moreMembers level members) := by
  induction members with
  | nil => exact (by decide : Printable ['\x7d'])
  | cons member members ih =>
    obtain ⟨key, value⟩ := member
    obtain ⟨hvalue, hrest⟩ := List.forall_mem_cons.mp h
    rw [Layout.moreMembers, printable_append, printable_append, printable_append,
      printable_append]
    exact ⟨⟨⟨⟨(by decide : Printable [',']), printable_quoted key⟩,
      (by decide : Printable [':'])⟩, hvalue⟩, ih hrest⟩

theorem printable_chars (value : Value) (level : Nat) :
    Printable (Layout.compact.chars level value) := by
  induction value using Value.parts_induction generalizing level with
  | step value ih =>
    cases value with
    | null => exact (by decide : Printable "null".toList)
    | bool b =>
      cases b with
      | false => exact (by decide : Printable "false".toList)
      | true => exact (by decide : Printable "true".toList)
    | number n => exact printable_number n
    | string text => exact printable_quoted text
    | sequence items =>
      cases items with
      | nil => exact (by decide : Printable ['[', ']'])
      | cons item items =>
        obtain ⟨hitem, hrest⟩ := List.forall_mem_cons.mp ih
        rw [Layout.chars, printable_append, printable_append]
        exact ⟨⟨(by decide : Printable ['[']), hitem _⟩,
          printable_moreItems _ fun item hi => hrest item hi _⟩
    | mapping members =>
      cases members with
      | nil => exact (by decide : Printable ['\x7b', '\x7d'])
      | cons member members =>
        obtain ⟨key, value⟩ := member
        obtain ⟨hvalue, hrest⟩ := List.forall_mem_cons.mp ih
        rw [Layout.chars, printable_append, printable_append, printable_append,
          printable_append]
        exact ⟨⟨⟨⟨(by decide : Printable ['\x7b']), printable_quoted key⟩,
          (by decide : Printable [':'])⟩, hvalue _⟩,
          printable_moreMembers _ fun member hm => hrest member.2 (List.mem_map_of_mem hm) _⟩

/-- The compact form of any value is a text without control characters. -/
theorem printable_compactChars (value : Value) : Printable (compactChars value) := by
  rw [compactChars_eq value 0]
  exact printable_chars value 0

end WireForm.Json
