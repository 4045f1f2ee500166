import Mathlib.Data.List.DropRight
import WireForm.Proofs.Json.Accepted
import WireForm.Proofs.Value.Condensed

/-!
# The values that texts denote

A text denotes a value with every member as it is written, keys that are repeated included. It
denotes one value at most. The reader gives that value condensed, whatever members are repeated and
however deep in the text they are: each key where it stands first, with what stands last under it.
-/

namespace WireForm.Json

/-! ## What is written -/

/-- One thing or more, with commas between them. `one text a rest` says that a text begins with
    one of them and what is left behind it and the blanks after it. -/
inductive Separated {α : Type} (one : List UInt8 → α → List UInt8 → Prop) :
    List UInt8 → List α → List UInt8 → Prop where
  | last {text rest : List UInt8} {a : α} (ha : one text a rest) : Separated one text [a] rest
  | next {text more rest : List UInt8} {a : α} {as : List α} (ha : one text a (0x2C :: more))
      (has : Separated one (skipBlanks more) as rest) : Separated one text (a :: as) rest

/-- A key, a colon and a value. Keys are known by what their escapes stand for. -/
inductive DenotesMember (one : List UInt8 → Value → List UInt8 → Prop) :
    List UInt8 → String × Value → List UInt8 → Prop where
  | intro {text more after rest : List UInt8} {key : String} {value : Value}
      (hkey : readString text = .ok (key, more)) (hcolon : skipBlanks more = 0x3A :: after)
      (hvalue : one (skipBlanks after) value rest) :
    DenotesMember one (0x22 :: text) (key, value) rest

/-- That a text begins with a value, in which all members stand that are written, and what is left
    behind the value and the blanks after it. -/
inductive Denotes : List UInt8 → Value → List UInt8 → Prop where
  | scalar {text rest : List UInt8} {value : Value} (h : readScalar text = .ok (value, rest)) :
    Denotes text value (skipBlanks rest)
  | emptyList {text rest : List UInt8} (h : skipBlanks text = 0x5D :: rest) :
    Denotes (0x5B :: text) (.sequence []) (skipBlanks rest)
  | list {text rest : List UInt8} {items : List Value}
      (h : Separated Denotes (skipBlanks text) items (0x5D :: rest)) :
    Denotes (0x5B :: text) (.sequence items) (skipBlanks rest)
  | emptyObject {text rest : List UInt8} (h : skipBlanks text = 0x7D :: rest) :
    Denotes (0x7B :: text) (.mapping []) (skipBlanks rest)
  | object {text rest : List UInt8} {members : Members}
      (h : Separated (DenotesMember Denotes) (skipBlanks text) members (0x7D :: rest)) :
    Denotes (0x7B :: text) (.mapping members) (skipBlanks rest)

/-- That a text holds a value and nothing else but blanks. -/
def Holds (text : List UInt8) (value : Value) : Prop := Denotes (skipBlanks text) value []

/-! ## No text denotes two values -/

section Unique

variable {text rest rest' : List UInt8}

/-- That a text has one reading of a thing at most. -/
def OneReading {α : Type} (one : List UInt8 → α → List UInt8 → Prop) (a : α) : Prop :=
  ∀ {text rest b rest'}, one text a rest → one text b rest' → a = b ∧ rest = rest'

theorem Separated.exists_first {α : Type} {one : List UInt8 → α → List UInt8 → Prop} {as : List α}
    (h : Separated one text as rest) : ∃ a more, one text a more := by
  cases h with
  | last ha => exact ⟨_, _, ha⟩
  | next ha _ => exact ⟨_, _, ha⟩

/-- A closing byte, which is no comma, tells where the last thing ends. -/
theorem Separated.unique {α : Type} {one : List UInt8 → α → List UInt8 → Prop} {as bs : List α}
    {close : UInt8} (hclose : close ≠ 0x2C) (hone : ∀ a ∈ as, OneReading one a)
    (ha : Separated one text as (close :: rest)) (hb : Separated one text bs (close :: rest')) :
    as = bs ∧ rest = rest' := by
  generalize hend : close :: rest = after at ha
  -- Along the first reading: the second goes on with a comma where the first does.
  induction ha generalizing bs with
  | last ha =>
    subst hend
    obtain ⟨hfirst, -⟩ := List.forall_mem_cons.mp hone
    cases hb with
    | last hb =>
      obtain ⟨rfl, hrest⟩ := hfirst ha hb
      exact ⟨rfl, (List.cons.inj hrest).2⟩
    | next hb _ => exact absurd (List.cons.inj (hfirst ha hb).2).1 hclose
  | next ha _ ih =>
    subst hend
    obtain ⟨hfirst, hothers⟩ := List.forall_mem_cons.mp hone
    cases hb with
    | last hb => exact absurd (List.cons.inj (hfirst ha hb).2).1 hclose.symm
    | next hb hbs =>
      obtain ⟨rfl, hmore⟩ := hfirst ha hb
      obtain ⟨-, rfl⟩ := List.cons.inj hmore
      obtain ⟨rfl, hrest⟩ := ih hothers hbs rfl
      exact ⟨rfl, hrest⟩

theorem DenotesMember.unique {one : List UInt8 → Value → List UInt8 → Prop}
    {member : String × Value} (h : OneReading one member.2) :
    OneReading (DenotesMember one) member := by
  intro text rest other rest' ha hb
  obtain ⟨hkey, hcolon, hvalue⟩ := ha
  obtain ⟨hkey', hcolon', hvalue'⟩ := hb
  obtain ⟨rfl, rfl⟩ := Prod.mk.inj (Except.ok.inj (hkey.symm.trans hkey'))
  obtain ⟨-, rfl⟩ := List.cons.inj (hcolon.symm.trans hcolon')
  obtain ⟨rfl, hrest⟩ := h hvalue hvalue'
  exact ⟨rfl, hrest⟩

/-- No scalar begins with a bracket or a brace. -/
theorem readScalar_ne_ok {b : UInt8} {result : After Value}
    (hb : b = 0x5B ∨ b = 0x5D ∨ b = 0x7B ∨ b = 0x7D) : readScalar (b :: text) ≠ .ok result := by
  obtain rfl | rfl | rfl | rfl := hb <;> exact nofun

theorem not_separated_bracket {items : List Value} :
    ¬Separated Denotes (0x5D :: text) items rest := by
  intro h
  obtain ⟨_, _, hfirst⟩ := h.exists_first
  cases hfirst with
  | scalar h => exact readScalar_ne_ok (.inr (.inl rfl)) h

theorem not_separated_brace {members : Members} :
    ¬Separated (DenotesMember Denotes) (0x7D :: text) members rest := by
  intro h
  obtain ⟨_, _, hfirst⟩ := h.exists_first
  cases hfirst

/-- What an opening bracket begins is a list. -/
theorem denotes_list_iff {value : Value} :
    Denotes (0x5B :: text) value rest ↔
      ∃ items more, value = .sequence items ∧ rest = skipBlanks more ∧
        (items = [] ∧ skipBlanks text = 0x5D :: more ∨
          Separated Denotes (skipBlanks text) items (0x5D :: more)) := by
  constructor
  · intro h
    cases h with
    | scalar h => exact absurd h (readScalar_ne_ok (.inl rfl))
    | emptyList h => exact ⟨[], _, rfl, rfl, .inl ⟨rfl, h⟩⟩
    | list h => exact ⟨_, _, rfl, rfl, .inr h⟩
  · rintro ⟨items, more, rfl, rfl, ⟨rfl, h⟩ | h⟩
    · exact .emptyList h
    · exact .list h

/-- What an opening brace begins is an object. -/
theorem denotes_object_iff {value : Value} :
    Denotes (0x7B :: text) value rest ↔
      ∃ members more, value = .mapping members ∧ rest = skipBlanks more ∧
        (members = [] ∧ skipBlanks text = 0x7D :: more ∨
          Separated (DenotesMember Denotes) (skipBlanks text) members (0x7D :: more)) := by
  constructor
  · intro h
    cases h with
    | scalar h => exact absurd h (readScalar_ne_ok (.inr (.inr (.inl rfl))))
    | emptyObject h => exact ⟨[], _, rfl, rfl, .inl ⟨rfl, h⟩⟩
    | object h => exact ⟨_, _, rfl, rfl, .inr h⟩
  · rintro ⟨members, more, rfl, rfl, ⟨rfl, h⟩ | h⟩
    · exact .emptyObject h
    · exact .object h

/-- A text begins with one value at most, and that ends at one place. -/
theorem Denotes.unique (value : Value) : OneReading Denotes value := by
  -- What is inside a list or an object has one reading, and so the whole has.
  induction value using Value.parts_induction with
  | step value ih =>
    intro text rest other rest' ha hb
    cases ha with
    | scalar h =>
      cases hb with
      | scalar h' =>
        obtain ⟨rfl, rfl⟩ := Prod.mk.inj (Except.ok.inj (h.symm.trans h'))
        exact ⟨rfl, rfl⟩
      | emptyList _ => exact absurd h (readScalar_ne_ok (.inl rfl))
      | list _ => exact absurd h (readScalar_ne_ok (.inl rfl))
      | emptyObject _ => exact absurd h (readScalar_ne_ok (.inr (.inr (.inl rfl))))
      | object _ => exact absurd h (readScalar_ne_ok (.inr (.inr (.inl rfl))))
    | emptyList h =>
      obtain ⟨items, more, rfl, rfl, ⟨rfl, h'⟩ | h'⟩ := denotes_list_iff.mp hb
      · obtain ⟨-, rfl⟩ := List.cons.inj (h.symm.trans h')
        exact ⟨rfl, rfl⟩
      · rw [h] at h'
        exact absurd h' not_separated_bracket
    | list h =>
      obtain ⟨items, more, rfl, rfl, ⟨rfl, h'⟩ | h'⟩ := denotes_list_iff.mp hb
      · rw [h'] at h
        exact absurd h not_separated_bracket
      · obtain ⟨rfl, rfl⟩ := h.unique (by decide) ih h'
        exact ⟨rfl, rfl⟩
    | emptyObject h =>
      obtain ⟨members, more, rfl, rfl, ⟨rfl, h'⟩ | h'⟩ := denotes_object_iff.mp hb
      · obtain ⟨-, rfl⟩ := List.cons.inj (h.symm.trans h')
        exact ⟨rfl, rfl⟩
      · rw [h] at h'
        exact absurd h' not_separated_brace
    | object h =>
      obtain ⟨members, more, rfl, rfl, ⟨rfl, h'⟩ | h'⟩ := denotes_object_iff.mp hb
      · rw [h'] at h
        exact absurd h not_separated_brace
      · have hmembers : ∀ member ∈ _, OneReading (DenotesMember Denotes) member :=
          fun member hm => DenotesMember.unique (ih member.2 (List.mem_map_of_mem hm))
        obtain ⟨rfl, rfl⟩ := h.unique (by decide) hmembers h'
        exact ⟨rfl, rfl⟩

/-- A text holds one value at most. -/
theorem Holds.unique {value other : Value} (h : Holds text value) (h' : Holds text other) :
    other = value :=
  (Denotes.unique value h h').1.symm

end Unique

/-! ## What is read -/

/-- That a reader of items gives condensed what the text denotes. -/
def ReadsCondensed (item : List UInt8 → Except Stop (After Value)) : Prop :=
  ∀ {text value rest}, item text = .ok (value, rest) →
    ∃ written, Denotes (skipBlanks text) written (skipBlanks rest) ∧ value = written.condensed

theorem peek_ne_ok {α : Type} {problem : Problem} {text : List UInt8} {result : After α} :
    Stop.peek problem text ≠ .ok result := by
  simp [Stop.peek]

theorem skipBlanks_skipBlanks (text : List UInt8) :
    skipBlanks (skipBlanks text) = skipBlanks text :=
  List.dropWhile_idempotent _ text

section Loops

variable {item : List UInt8 → Except Stop (After Value)} {text rest : List UInt8}

theorem ReadsCondensed.items (hi : ReadsCondensed item) {steps : List UInt8} {read items : List Value}
    (h : readItems item steps read text = .ok (items, rest)) :
    ∃ written, Separated Denotes (skipBlanks text) written (0x5D :: rest) ∧
      items = read.reverse ++ Value.condensedItems written := by
  induction steps generalizing read text with
  | nil => exact absurd h peek_ne_ok
  | cons step steps ih =>
    rw [readItems] at h
    obtain ⟨⟨value, after⟩, hvalue, h⟩ := bind_eq_ok_iff.mp h
    obtain ⟨first, hfirst, rfl⟩ := hi hvalue
    -- The byte behind the item tells whether it is the last.
    dsimp only at h
    split at h
    · exact absurd h peek_ne_ok
    · next hend =>
      obtain ⟨rfl, rfl⟩ := Prod.mk.inj (Except.ok.inj h)
      rw [hend] at hfirst
      exact ⟨[first], .last hfirst, List.reverse_cons⟩
    · next more hcomma =>
      rw [hcomma] at hfirst
      split at h
      · exact absurd h peek_ne_ok
      · exact absurd h peek_ne_ok
      · obtain ⟨others, hothers, rfl⟩ := ih h
        rw [skipBlanks_skipBlanks] at hothers
        refine ⟨first :: others, .next hfirst hothers, ?_⟩
        rw [List.reverse_cons, List.append_assoc]
        rfl
    · exact absurd h peek_ne_ok

theorem ReadsCondensed.list (hi : ReadsCondensed item) {value : Value}
    (h : readList item text = .ok (value, rest)) :
    ∃ written, Denotes (0x5B :: text) written (skipBlanks rest) ∧ value = written.condensed := by
  rw [readList] at h
  split at h
  · exact absurd h peek_ne_ok
  · next hend =>
    obtain ⟨rfl, rfl⟩ := Prod.mk.inj (Except.ok.inj h)
    exact ⟨.sequence [], .emptyList hend, rfl⟩
  · obtain ⟨⟨items, after⟩, hitems, h⟩ := bind_eq_ok_iff.mp h
    obtain ⟨rfl, rfl⟩ := Prod.mk.inj (Except.ok.inj h)
    obtain ⟨written, hwritten, rfl⟩ := hi.items hitems
    rw [skipBlanks_skipBlanks] at hwritten
    exact ⟨.sequence written, .list hwritten, rfl⟩

theorem ReadsCondensed.memberValue (hi : ReadsCondensed item) {value : Value}
    (h : readMemberValue item text = .ok (value, rest)) :
    ∃ after written, skipBlanks text = 0x3A :: after ∧
      Denotes (skipBlanks after) written (skipBlanks rest) ∧ value = written.condensed := by
  rw [readMemberValue] at h
  split at h
  · exact absurd h peek_ne_ok
  · next after hcolon =>
    obtain ⟨written, hwritten, hvalue⟩ := hi h
    exact ⟨after, written, hcolon, hwritten, hvalue⟩
  · exact absurd h peek_ne_ok

theorem ReadsCondensed.members (hi : ReadsCondensed item) {steps : List UInt8} {seen members : Members}
    (h : readMembers item steps (Value.keepLast seen) (0x22 :: text) = .ok (members, rest)) :
    ∃ written, Separated (DenotesMember Denotes) (0x22 :: text) written (0x7D :: rest) ∧
      members = Value.keepLast (seen ++ Value.condensedMembers written) := by
  induction steps generalizing seen text with
  | nil => exact absurd h peek_ne_ok
  | cons step steps ih =>
    rw [readMembers] at h
    obtain ⟨⟨key, afterKey⟩, hkey, h⟩ := bind_eq_ok_iff.mp h
    rw [List.tail_cons] at hkey
    obtain ⟨⟨value, after⟩, hvalue, h⟩ := bind_eq_ok_iff.mp h
    obtain ⟨afterColon, first, hcolon, hfirst, rfl⟩ := hi.memberValue hvalue
    have hmember := DenotesMember.intro hkey hcolon hfirst
    -- The invariant: what was read is what is kept of the members so far.
    dsimp only at h
    rw [← Value.keepLast_append_singleton] at h
    split at h
    · exact absurd h peek_ne_ok
    · next hend =>
      obtain ⟨rfl, rfl⟩ := Prod.mk.inj (Except.ok.inj h)
      rw [hend] at hmember
      exact ⟨[(key, first)], .last hmember, rfl⟩
    · next more hcomma =>
      rw [hcomma] at hmember
      split at h
      · exact absurd h peek_ne_ok
      · next hquote =>
        obtain ⟨others, hothers, rfl⟩ := ih h
        rw [← hquote] at hothers
        refine ⟨(key, first) :: others, .next hmember hothers, ?_⟩
        rw [List.append_assoc]
        rfl
      · exact absurd h peek_ne_ok
      · exact absurd h peek_ne_ok
    · exact absurd h peek_ne_ok

theorem ReadsCondensed.object (hi : ReadsCondensed item) {value : Value}
    (h : readObject item text = .ok (value, rest)) :
    ∃ written, Denotes (0x7B :: text) written (skipBlanks rest) ∧ value = written.condensed := by
  rw [readObject] at h
  split at h
  · exact absurd h peek_ne_ok
  · next hend =>
    obtain ⟨rfl, rfl⟩ := Prod.mk.inj (Except.ok.inj h)
    exact ⟨.mapping [], .emptyObject hend, rfl⟩
  · next hquote =>
    obtain ⟨⟨members, after⟩, hmembers, h⟩ := bind_eq_ok_iff.mp h
    obtain ⟨rfl, rfl⟩ := Prod.mk.inj (Except.ok.inj h)
    have hnone : Value.keepLast [] = [] := rfl
    rw [← hnone] at hmembers
    obtain ⟨written, hwritten, rfl⟩ := hi.members hmembers
    rw [← hquote] at hwritten
    exact ⟨.mapping written, .object hwritten, rfl⟩
  · exact absurd h peek_ne_ok

end Loops

/-- What is read as a scalar has no parts to condense. -/
theorem condensed_of_readScalar {text rest : List UInt8} {value : Value}
    (h : readScalar text = .ok (value, rest)) : value.condensed = value := by
  have hdepth : value.depth ≤ 0 := (readScalar_yields 0 h).1
  cases value with
  | sequence items => rw [Value.depth] at hdepth; omega
  | mapping members => rw [Value.depth] at hdepth; omega
  | _ => rfl

theorem readsCondensed_readScalar {text rest : List UInt8} {value : Value}
    (h : readScalar text = .ok (value, rest)) :
    ∃ written, Denotes text written (skipBlanks rest) ∧ value = written.condensed :=
  ⟨value, .scalar h, (condensed_of_readScalar h).symm⟩

/-- Values are read condensed, however deep lists and objects may be nested. -/
theorem readsCondensed_readValue (depth : Nat) : ReadsCondensed (readValue depth) := by
  induction depth with
  | zero =>
    intro text value rest h
    rw [readValue.eq_def] at h
    dsimp only at h
    split at h
    · exact absurd h peek_ne_ok
    · exact absurd h peek_ne_ok
    · exact readsCondensed_readScalar h
  | succ depth ih =>
    intro text value rest h
    rw [readValue.eq_def] at h
    dsimp only at h
    split at h
    · next hopen =>
      rw [hopen]
      exact ReadsCondensed.list ih h
    · next hopen =>
      rw [hopen]
      exact ReadsCondensed.object ih h
    · exact readsCondensed_readScalar h

/-- A text that is read holds a value, and that value is what is read once it is condensed. -/
theorem exists_holds_of_read {text : List UInt8} {value : Value} (h : read text = .ok value) :
    ∃ written, Holds text written ∧ value = written.condensed := by
  obtain ⟨rest, hvalue, hrest⟩ := exists_readValue_of_read h
  obtain ⟨written, hwritten, hcondensed⟩ := readsCondensed_readValue maxDepth hvalue
  rw [hrest] at hwritten
  exact ⟨written, hwritten, hcondensed⟩

end WireForm.Json
