import WireForm.Proofs.Json.LayoutBytes
import WireForm.Proofs.Json.Members

/-!
# Written values are read back

A value that is nested no deeper than the reader allows and that has distinct keys is read back
from either of its written forms. Its numbers are read as whatever their own texts are read as,
and everything else as it was.
-/

namespace WireForm.Json

open Text.Utf8

/-! ## Loops -/

section Loops

variable {layout : Layout} {level : Nat} {item : List UInt8 → Except Stop (After Value)}
  {f : Value → Value}

/-- That blanks before an item do not matter to a reader of items. -/
def SkipsBlanks (item : List UInt8 → Except Stop (After Value)) : Prop :=
  ∀ {text text'}, skipBlanks text = skipBlanks text' → item text = item text'

/-- That a reader of items reads a written value and changes it by `f`. -/
def ReadsBack (layout : Layout) (level : Nat) (item : List UInt8 → Except Stop (After Value))
    (f : Value → Value) (value : Value) : Prop :=
  ∀ rest, EndsNumber rest →
    item (encode (layout.chars level value) ++ rest) = .ok (f value, rest)

/-- The items of a list are read up to its closing bracket. -/
theorem readItems_chars {next : Value} {items : List Value}
    (hi : ∀ value ∈ next :: items, ReadsBack layout level item f value)
    (hb : ∀ value ∈ items, BeginsValue (encode (layout.chars level value)))
    (steps : List UInt8) (read : List Value) (rest : List UInt8)
    (hlen : items.length < steps.length) :
    readItems item steps read
        (encode (layout.chars level next) ++ (encode (layout.moreItems level items) ++ rest)) =
      .ok (read.reverse ++ (next :: items).map f, rest) := by
  -- On the items after the next one: each costs a step, and the last one a step more.
  induction items generalizing next steps read with
  | nil =>
    obtain ⟨step, steps, rfl⟩ := List.exists_cons_of_length_pos hlen
    have hnext := hi next List.mem_cons_self _ (endsNumber_moreItems layout level [] rest)
    rw [encode_moreItems_nil] at hnext ⊢
    rw [readItems_end hnext (skipBlanks_encode (layout.gap_blank _) _)]
    simp
  | cons after items ih =>
    obtain ⟨step, steps, rfl⟩ := List.exists_cons_of_length_pos (Nat.zero_lt_of_lt hlen)
    have hnext := hi next List.mem_cons_self _
      (endsNumber_moreItems layout level (after :: items) rest)
    have hbegin := (hb after List.mem_cons_self).append
      (encode (layout.moreItems level items) ++ rest)
    have hrest := ih (fun value hv => hi value (List.mem_cons_of_mem next hv))
      (fun value hv => hb value (List.mem_cons_of_mem after hv)) steps (f next :: read)
      (Nat.lt_of_succ_lt_succ hlen)
    rw [encode_moreItems_cons] at hnext ⊢
    rw [readItems_next hnext (skipBlanks_encode (layout.gap_blank _) _)]
    · rw [skipBlanks_of_begins hbegin, hrest]
      simp
    · rw [skipBlanks_of_begins hbegin]
      exact hbegin

/-- The value of a member is read after its colon, whatever blanks are there. -/
theorem readMemberValue_chars {value : Value} (hskip : SkipsBlanks item)
    (hv : ReadsBack layout level item f value) {rest : List UInt8} (hr : EndsNumber rest) :
    readMemberValue item (0x3A :: (encode layout.afterColon ++
      (encode (layout.chars level value) ++ rest))) = .ok (f value, rest) := by
  rw [← hv rest hr]
  exact hskip (skipBlanks_encode layout.afterColon_blank _)

/-- The members of an object with distinct keys are read up to its closing brace. -/
theorem readMembers_chars (hskip : SkipsBlanks item) {key : String}
    {value : Value} {members : Members}
    (hi : ∀ member ∈ (key, value) :: members, ReadsBack layout level item f member.2)
    (steps : List UInt8) (read : Members) (rest : List UInt8)
    (hk : ((read ++ (key, value) :: members).map (·.1)).Nodup)
    (hlen : members.length < steps.length) :
    readMembers item steps read
        (memberBytes layout level key value (encode (layout.moreMembers level members) ++ rest)) =
      .ok (read ++ ((key, value) :: members).map fun member => (member.1, f member.2), rest) := by
  induction members generalizing key value steps read with
  | nil =>
    obtain ⟨step, steps, rfl⟩ := List.exists_cons_of_length_pos hlen
    have hvalue := readMemberValue_chars hskip (hi (key, value) List.mem_cons_self)
      (endsNumber_moreMembers layout level [] rest)
    rw [encode_moreMembers_nil] at hvalue ⊢
    rw [memberBytes, readMembers_end (readString_quoted key _) hvalue
      (skipBlanks_encode (layout.gap_blank _) _), putMember_of_not_mem (not_mem_of_nodup hk)]
    rfl
  | cons after members ih =>
    obtain ⟨step, steps, rfl⟩ := List.exists_cons_of_length_pos (Nat.zero_lt_of_lt hlen)
    obtain ⟨nextKey, next⟩ := after
    have hvalue := readMemberValue_chars hskip (hi (key, value) List.mem_cons_self)
      (endsNumber_moreMembers layout level ((nextKey, next) :: members) rest)
    -- The key is new, so its member goes to the end of those read, in the order written.
    have hk' : ((read ++ [(key, f value)] ++ (nextKey, next) :: members).map (·.1)).Nodup := by
      simpa using hk
    have hrest := ih (fun member hm => hi member (List.mem_cons_of_mem _ hm)) steps
      (read ++ [(key, f value)]) hk' (Nat.lt_of_succ_lt_succ hlen)
    rw [encode_moreMembers_cons] at hvalue ⊢
    rw [memberBytes, readMembers_next (readString_quoted key _) hvalue
      (skipBlanks_encode (layout.gap_blank _) _), putMember_of_not_mem (not_mem_of_nodup hk),
      ← memberBytes, hrest]
    simp

end Loops

/-! ## Values -/

theorem skipsBlanks_readValue (depth : Nat) : SkipsBlanks (readValue depth) := by
  intro text text' h
  rw [readValue.eq_def, readValue.eq_def]
  dsimp only
  rw [h]

/-- That each number in a value has a text that is read as `g` of it. -/
def NumbersReread (g : Number → Number) (value : Value) : Prop :=
  value.Everywhere fun part => ∀ n, part = .number n → RereadAs n (g n)

section Values

variable {layout : Layout} {g : Number → Number}

/-- A written value begins as a value does. -/
theorem beginsValue_chars {value : Value} (hn : NumbersReread g value) (level : Nat) :
    BeginsValue (encode (layout.chars level value)) := by
  cases value with
  | null => exact ⟨rfl, by decide⟩
  | bool b => cases b <;> exact ⟨rfl, by decide⟩
  | number n =>
    obtain ⟨b, tail, heq, hb⟩ := head_of_readNumber (hn.here n rfl [] trivial)
    rw [List.append_nil] at heq
    have htext : encode (layout.chars level (.number n)) = b :: tail := heq
    rw [htext]
    exact beginsValue_of_number hb
  | string text =>
    have htext : layout.chars level (.string text) = quoted text := rfl
    rw [htext, encode_quoted]
    exact ⟨rfl, by decide⟩
  | sequence items => cases items <;> exact ⟨rfl, by decide⟩
  | mapping members => cases members <;> exact ⟨rfl, by decide⟩

theorem readValue_number {n m : Number} (h : RereadAs n m) (level depth : Nat) {rest : List UInt8}
    (hr : EndsNumber rest) :
    readValue depth (encode (layout.chars level (.number n)) ++ rest) = .ok (.number m, rest) := by
  have htext : layout.chars level (.number n) = n.text := rfl
  have hread := h rest hr
  -- The text need not be known: that it is read as a number says how it begins.
  obtain ⟨b, tail, heq, hb⟩ := head_of_readNumber hread
  have hskip := skipBlanks_of_begins (beginsValue_of_number hb : BeginsValue (b :: tail))
  rw [htext]
  rw [heq] at hread ⊢
  rw [readValue_scalar hskip, readScalar_number hread hb]
  · rintro rfl
    exact absurd hb (by decide)
  · rintro rfl
    exact absurd hb (by decide)

theorem readValue_string (text : String) (level depth : Nat) (rest : List UInt8) :
    readValue depth (encode (layout.chars level (.string text)) ++ rest) =
      .ok (.string text, rest) := by
  have htext : layout.chars level (.string text) = quoted text := rfl
  rw [htext, encode_quoted, List.cons_append, List.append_assoc, List.singleton_append,
    readValue_scalar rfl (by decide) (by decide)]
  simp only [readScalar, readString_quoted, ok_bind]

theorem readValue_sequence {items : List Value} {level depth : Nat}
    (hi : ∀ item ∈ items, ReadsBack layout (level + 1) (readValue depth) (Value.mapNumbers g) item)
    (hn : ∀ item ∈ items, NumbersReread g item) (rest : List UInt8) :
    readValue (depth + 1) (encode (layout.chars level (.sequence items)) ++ rest) =
      .ok (.sequence (items.map (Value.mapNumbers g)), rest) := by
  cases items with
  | nil => rfl
  | cons item items =>
    have hbegin : ∀ value ∈ item :: items, BeginsValue (encode (layout.chars (level + 1) value)) :=
      fun value hv => beginsValue_chars (hn value hv) (level + 1)
    have hfirst := (hbegin item List.mem_cons_self).append
      (encode (layout.moreItems (level + 1) items) ++ rest)
    have hlen : items.length < (encode (layout.chars (level + 1) item) ++
        (encode (layout.moreItems (level + 1) items) ++ rest)).length := by
      have := length_lt_moreItems layout (level + 1) items
      simp only [List.length_append]
      omega
    have hread := readItems_chars hi (fun value hv => hbegin value (List.mem_cons_of_mem item hv))
      _ [] rest hlen
    rw [encode_sequence_cons]
    show readList (readValue depth) _ = _
    refine readList_of_items ?_ hfirst hread
    rw [skipBlanks_encode (layout.gap_blank _), skipBlanks_of_begins hfirst]

theorem readValue_mapping {members : Members} {level depth : Nat}
    (hi : ∀ member ∈ members,
      ReadsBack layout (level + 1) (readValue depth) (Value.mapNumbers g) member.2)
    (hk : (members.map (·.1)).Nodup) (rest : List UInt8) :
    readValue (depth + 1) (encode (layout.chars level (.mapping members)) ++ rest) =
      .ok (.mapping (members.map fun member => (member.1, member.2.mapNumbers g)), rest) := by
  cases members with
  | nil => rfl
  | cons member members =>
    obtain ⟨key, value⟩ := member
    have hlen : members.length < (memberBytes layout (level + 1) key value
        (encode (layout.moreMembers (level + 1) members) ++ rest)).length := by
      have := length_lt_moreMembers layout (level + 1) members
      simp only [memberBytes, List.length_append, List.length_cons]
      omega
    have hread := readMembers_chars (skipsBlanks_readValue depth) hi _ [] rest hk hlen
    rw [encode_mapping_cons]
    show readObject (readValue depth) _ = _
    exact readObject_of_members (skipBlanks_encode (layout.gap_blank _) _) hread

/-- A written value is read back with its numbers as they are read, up to whatever follows. -/
theorem readValue_chars {value : Value} (hk : value.DistinctKeys) (hn : NumbersReread g value)
    {level depth : Nat} (hd : value.depth ≤ depth) :
    ReadsBack layout level (readValue depth) (Value.mapNumbers g) value := by
  -- The depth goes down with every part, as it does in the reader, and the level goes up.
  induction value using Value.parts_induction generalizing level depth with
  | step value ih =>
    intro rest hr
    cases value with
    | null => exact readValue_scalar rfl (by decide) (by decide)
    | bool b => cases b <;> exact readValue_scalar rfl (by decide) (by decide)
    | number n => exact readValue_number (hn.here n rfl) level depth hr
    | string text => exact readValue_string text level depth rest
    | sequence items =>
      cases depth with
      | zero => exact absurd hd (by simp [Value.depth])
      | succ depth =>
        rw [Value.mapNumbers_sequence]
        exact readValue_sequence (fun item hi => ih item hi (hk.inside item hi) (hn.inside item hi)
          (Value.depth_sequence_le_iff.mp hd item hi)) hn.inside rest
    | mapping members =>
      cases depth with
      | zero => exact absurd hd (by simp [Value.depth])
      | succ depth =>
        rw [Value.mapNumbers_mapping]
        refine readValue_mapping (fun member hm => ?_) hk.here rest
        have hpart : member.2 ∈ (Value.mapping members).parts := List.mem_map_of_mem hm
        exact ih member.2 hpart (hk.inside _ hpart) (hn.inside _ hpart)
          (Value.depth_mapping_le_iff.mp hd member hm)

/-! ## Texts -/

/-- A written value is read back from a text that holds it and perhaps blanks after it. -/
theorem read_chars {value : Value} (hk : value.DistinctKeys) (hn : NumbersReread g value)
    (hd : value.depth ≤ maxDepth) (layout : Layout) (level : Nat) {blanks : List Char}
    (hb : ∀ c ∈ blanks, c = ' ' ∨ c = '\n') :
    read (encode (layout.chars level value ++ blanks)) = .ok (value.mapNumbers g) := by
  have hend : EndsNumber (encode blanks ++ []) := endsNumber_blanks hb trivial
  have hskip : skipBlanks (encode blanks ++ []) = [] := skipBlanks_encode hb []
  rw [List.append_nil] at hend hskip
  have hvalue := @readValue_chars layout g value hk hn level maxDepth hd (encode blanks) hend
  simp only [read, readDocument, encode_append, hvalue, ok_bind, hskip]
  rfl

end Values

theorem encodeText_compact (value : Value) :
    encodeText (compact value) = encode (Layout.compact.chars 0 value ++ []) := by
  rw [encodeText, toList_compact, compactChars_eq value 0, List.append_nil]

theorem encodeText_pretty_line (value : Value) :
    encodeText (pretty value ++ "\n") = encode (Layout.pretty.chars 0 value ++ ['\n']) := by
  rw [encodeText, String.toList_append, pretty, String.toList_ofList, prettyChars_eq]
  rfl

theorem numbersReread_of_floatFree {value : Value} (h : value.FloatFree) :
    NumbersReread id value := by
  refine h.mono fun part hpart n hn => ?_
  cases n with
  | int value inRange => exact .int value inRange
  | float x => exact absurd hn (hpart x)

/-- A value without floats is read back from its compact form as it was. -/
theorem read_compact {value : Value} (hk : value.DistinctKeys) (hf : value.FloatFree)
    (hd : value.depth ≤ maxDepth) : read (encodeText (compact value)) = .ok value := by
  have hread := read_chars hk (numbersReread_of_floatFree hf) hd .compact 0 (List.forall_mem_nil _)
  rwa [← encodeText_compact, Value.mapNumbers_id] at hread

/-- It is read back from its pretty form as well, printed as a line. -/
theorem read_pretty_line {value : Value} (hk : value.DistinctKeys) (hf : value.FloatFree)
    (hd : value.depth ≤ maxDepth) : read (encodeText (pretty value ++ "\n")) = .ok value := by
  have hread := read_chars hk (numbersReread_of_floatFree hf) hd .pretty 0
    (List.forall_mem_singleton.mpr (.inr rfl))
  rwa [← encodeText_pretty_line, Value.mapNumbers_id] at hread

end WireForm.Json
