import WireForm.Json.Writer
import WireForm.Proofs.Value.Parts

/-!
# One layout for both written forms

The compact and the pretty form differ in the blanks that they put between the parts of a
text and in nothing else. `Layout.chars` writes a value with any such blanks; both forms are
cases of it, so that what is proved of it holds of either.
-/

namespace WireForm.Json

/-- The blanks of a written form: before an item, a member or a closing bracket at a level, and
    after a colon. -/
structure Layout where
  gap : Nat → List Char
  afterColon : List Char
  /-- Only blanks stand in a gap. -/
  gap_blank : ∀ level, ∀ c ∈ gap level, c = ' ' ∨ c = '\n'
  /-- Only blanks stand after a colon. -/
  afterColon_blank : ∀ c ∈ afterColon, c = ' ' ∨ c = '\n'

namespace Layout

mutual
/-- A value written at a level. -/
def chars (layout : Layout) (level : Nat) : Value → List Char
  | .sequence [] => ['[', ']']
  | .sequence (item :: items) =>
    '[' :: layout.gap (level + 1) ++ layout.chars (level + 1) item ++
      layout.moreItems (level + 1) items
  | .mapping [] => ['\x7b', '\x7d']
  | .mapping ((key, value) :: members) =>
    '\x7b' :: layout.gap (level + 1) ++ quoted key ++ ':' :: layout.afterColon ++
      layout.chars (level + 1) value ++ layout.moreMembers (level + 1) members
  | value => scalarChars value
/-- What follows an item: the other items and the closing bracket. -/
def moreItems (layout : Layout) (level : Nat) : List Value → List Char
  | [] => layout.gap (level - 1) ++ [']']
  | item :: items =>
    ',' :: layout.gap level ++ layout.chars level item ++ layout.moreItems level items
/-- What follows a member: the other members and the closing brace. -/
def moreMembers (layout : Layout) (level : Nat) : Members → List Char
  | [] => layout.gap (level - 1) ++ ['\x7d']
  | (key, value) :: members =>
    ',' :: layout.gap level ++ quoted key ++ ':' :: layout.afterColon ++
      layout.chars level value ++ layout.moreMembers level members
end

/-- No blanks at all. -/
def compact : Layout where
  gap _ := []
  afterColon := []
  gap_blank := by simp
  afterColon_blank := by simp

/-- Every item and member on an indented line of its own, and a blank after every colon. -/
def pretty : Layout where
  gap := newLine
  afterColon := [' ']
  gap_blank := by
    intro level c hc
    rcases List.mem_cons.mp hc with rfl | hc
    · exact .inr rfl
    · exact .inl (List.eq_of_mem_replicate hc)
  afterColon_blank := by simp

end Layout

/-! ## The compact form -/

theorem compactItems_cons (item : Value) (items : List Value) (level : Nat)
    (h : ∀ item ∈ items, ∀ level, compactChars item = Layout.compact.chars level item) :
    compactItems (item :: items) = compactChars item ++ Layout.compact.moreItems level items := by
  -- The writer's recursion is on the items from the second on.
  induction items generalizing item with
  | nil => rfl
  | cons next items ih =>
    have hrest := ih next fun other ho => h other (List.mem_cons_of_mem next ho)
    rw [compactItems, hrest, h next List.mem_cons_self level]
    rfl

theorem compactMembers_cons (key : String) (value : Value) (members : Members) (level : Nat)
    (h : ∀ member ∈ members, ∀ level, compactChars member.2 = Layout.compact.chars level member.2) :
    compactMembers ((key, value) :: members) =
      quoted key ++ ':' :: compactChars value ++ Layout.compact.moreMembers level members := by
  induction members generalizing key value with
  | nil => rfl
  | cons next members ih =>
    obtain ⟨nextKey, next⟩ := next
    have hrest := ih nextKey next fun other ho => h other (List.mem_cons_of_mem _ ho)
    rw [compactMembers, hrest, h _ List.mem_cons_self level]
    simp [Layout.moreMembers, Layout.compact]

/-- The compact form has no blanks, at whatever level. -/
theorem compactChars_eq (value : Value) (level : Nat) :
    compactChars value = Layout.compact.chars level value := by
  induction value using Value.parts_induction generalizing level with
  | step value ih =>
    cases value with
    | sequence items =>
      cases items with
      | nil => rfl
      | cons item items =>
        have hitems := compactItems_cons item items (level + 1)
          fun other ho => ih other (List.mem_cons_of_mem item ho)
        rw [compactChars, hitems, ih item List.mem_cons_self (level + 1)]
        rfl
    | mapping members =>
      cases members with
      | nil => rfl
      | cons member members =>
        obtain ⟨key, value⟩ := member
        have hmembers := compactMembers_cons key value members (level + 1)
          fun other ho => ih other.2 (List.mem_cons_of_mem _ (List.mem_map_of_mem ho))
        rw [compactChars, hmembers, ih value List.mem_cons_self (level + 1)]
        simp [Layout.chars, Layout.compact]
    | _ => rfl

@[simp] theorem toList_compact (value : Value) : (Json.compact value).toList = compactChars value :=
  String.toList_ofList

/-! ## The pretty form -/

theorem prettyItems_cons (item : Value) (items : List Value) (level : Nat)
    (h : ∀ item ∈ items, ∀ level, prettyChars level item = Layout.pretty.chars level item) :
    prettyItems level (item :: items) =
      newLine level ++ prettyChars level item ++ Layout.pretty.moreItems level items := by
  induction items generalizing item with
  | nil => simp [prettyItems, Layout.moreItems, Layout.pretty]
  | cons next items ih =>
    have hrest := ih next fun other ho => h other (List.mem_cons_of_mem next ho)
    rw [prettyItems, hrest, h next List.mem_cons_self level]
    simp [Layout.moreItems, Layout.pretty]

theorem prettyMembers_cons (key : String) (value : Value) (members : Members) (level : Nat)
    (h : ∀ member ∈ members, ∀ level,
      prettyChars level member.2 = Layout.pretty.chars level member.2) :
    prettyMembers level ((key, value) :: members) =
      newLine level ++ quoted key ++ ':' :: ' ' :: prettyChars level value ++
        Layout.pretty.moreMembers level members := by
  induction members generalizing key value with
  | nil => simp [prettyMembers, Layout.moreMembers, Layout.pretty]
  | cons next members ih =>
    obtain ⟨nextKey, next⟩ := next
    have hrest := ih nextKey next fun other ho => h other (List.mem_cons_of_mem _ ho)
    rw [prettyMembers, hrest, h _ List.mem_cons_self level]
    simp [Layout.moreMembers, Layout.pretty]

/-- The pretty form has the blanks of its layout, and they are those of its level. -/
theorem prettyChars_eq (value : Value) (level : Nat) :
    prettyChars level value = Layout.pretty.chars level value := by
  induction value using Value.parts_induction generalizing level with
  | step value ih =>
    cases value with
    | sequence items =>
      cases items with
      | nil => rfl
      | cons item items =>
        have hitems := prettyItems_cons item items (level + 1)
          fun other ho => ih other (List.mem_cons_of_mem item ho)
        rw [prettyChars, hitems, ih item List.mem_cons_self (level + 1)]
        simp [Layout.chars, Layout.pretty]
    | mapping members =>
      cases members with
      | nil => rfl
      | cons member members =>
        obtain ⟨key, value⟩ := member
        have hmembers := prettyMembers_cons key value members (level + 1)
          fun other ho => ih other.2 (List.mem_cons_of_mem _ (List.mem_map_of_mem ho))
        rw [prettyChars, hmembers, ih value List.mem_cons_self (level + 1)]
        simp [Layout.chars, Layout.pretty]
    | _ => rfl

end WireForm.Json
