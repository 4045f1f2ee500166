import WireForm.Value

/-!
# The parts of a value

The items of a sequence and the values of a mapping's members. What is said of a value and all
that is inside it is said through its parts: that something holds everywhere in it, that its
mappings have distinct keys, and how deep it is nested.
-/

namespace WireForm.Value

/-- The values directly inside a value. -/
def parts : Value → List Value
  | .sequence items => items
  | .mapping members => members.map (·.2)
  | _ => []

@[simp] theorem parts_sequence (items : List Value) : (sequence items).parts = items := rfl

@[simp] theorem parts_mapping (members : Members) :
    (mapping members).parts = members.map (·.2) := rfl

theorem sizeOf_lt_of_mem_parts {value part : Value} (h : part ∈ value.parts) :
    sizeOf part < sizeOf value := by
  cases value with
  | sequence items =>
    have : sizeOf part < sizeOf items := List.sizeOf_lt_of_mem h
    simp only [sequence.sizeOf_spec]
    omega
  | mapping members =>
    obtain ⟨⟨key, value⟩, hm, rfl⟩ := List.mem_map.mp h
    have := List.sizeOf_lt_of_mem hm
    simp only [mapping.sizeOf_spec, Prod.mk.sizeOf_spec] at this ⊢
    omega
  | _ => exact nomatch h

/-- What holds of a value whenever it holds of its parts holds of every value. -/
@[elab_as_elim]
theorem parts_induction {motive : Value → Prop}
    (step : ∀ value : Value, (∀ part ∈ value.parts, motive part) → motive value)
    (value : Value) : motive value :=
  step value fun part h =>
    have := sizeOf_lt_of_mem_parts h
    parts_induction step part
termination_by sizeOf value

/-! ## Everywhere in a value -/

/-- That something holds of a value and of all the values inside it. -/
inductive Everywhere (p : Value → Prop) : Value → Prop where
  | intro {value : Value} (here : p value) (inside : ∀ part ∈ value.parts, Everywhere p part) :
    Everywhere p value

namespace Everywhere

variable {p q : Value → Prop} {value : Value}

theorem here (h : Everywhere p value) : p value := by
  cases h
  assumption

theorem inside (h : Everywhere p value) : ∀ part ∈ value.parts, Everywhere p part := by
  cases h
  assumption

theorem mono (hpq : ∀ v, p v → q v) (h : Everywhere p value) : Everywhere q value := by
  induction h with
  | intro here _ ih => exact .intro (hpq _ here) ih

end Everywhere

/-- That in every mapping inside a value, and in the value itself, no key stands twice. -/
def DistinctKeys (value : Value) : Prop := value.Everywhere fun part => part.keys.Nodup

/-- That all numbers in a value are integers. -/
def FloatFree (value : Value) : Prop :=
  value.Everywhere fun part => ∀ x : Binary64, part ≠ .number (.float x)

/-! ## Depth -/

mutual
/-- How many sequences and mappings are nested in a value, itself included. -/
def depth : Value → Nat
  | .sequence items => depthItems items + 1
  | .mapping members => depthMembers members + 1
  | _ => 0
/-- The depth of the deepest item. -/
def depthItems : List Value → Nat
  | [] => 0
  | item :: items => max item.depth (depthItems items)
/-- The depth of the deepest member. -/
def depthMembers : Members → Nat
  | [] => 0
  | (_, value) :: members => max value.depth (depthMembers members)
end

theorem depthItems_le_iff {items : List Value} {d : Nat} :
    depthItems items ≤ d ↔ ∀ item ∈ items, item.depth ≤ d := by
  induction items with
  | nil => simp [depthItems]
  | cons item items ih => rw [depthItems, Nat.max_le, ih, List.forall_mem_cons]

theorem depthMembers_le_iff {members : Members} {d : Nat} :
    depthMembers members ≤ d ↔ ∀ member ∈ members, member.2.depth ≤ d := by
  induction members with
  | nil => simp [depthMembers]
  | cons member members ih => rw [depthMembers, Nat.max_le, ih, List.forall_mem_cons]

theorem depth_sequence_le_iff {items : List Value} {d : Nat} :
    (sequence items).depth ≤ d + 1 ↔ ∀ item ∈ items, item.depth ≤ d := by
  rw [depth, Nat.add_le_add_iff_right, depthItems_le_iff]

theorem depth_mapping_le_iff {members : Members} {d : Nat} :
    (mapping members).depth ≤ d + 1 ↔ ∀ member ∈ members, member.2.depth ≤ d := by
  rw [depth, Nat.add_le_add_iff_right, depthMembers_le_iff]

/-! ## Changing the numbers -/

mutual
/-- A value with another number in the place of each number. -/
def mapNumbers (f : Number → Number) : Value → Value
  | .number n => .number (f n)
  | .sequence items => .sequence (mapNumbersItems f items)
  | .mapping members => .mapping (mapNumbersMembers f members)
  | value => value
/-- Items with other numbers. -/
def mapNumbersItems (f : Number → Number) : List Value → List Value
  | [] => []
  | item :: items => item.mapNumbers f :: mapNumbersItems f items
/-- Members with other numbers under the same keys. -/
def mapNumbersMembers (f : Number → Number) : Members → Members
  | [] => []
  | (key, value) :: members => (key, value.mapNumbers f) :: mapNumbersMembers f members
end

variable {f : Number → Number}

theorem mapNumbersItems_eq_map (items : List Value) :
    mapNumbersItems f items = items.map (mapNumbers f) := by
  induction items with
  | nil => rfl
  | cons item items ih => rw [mapNumbersItems, ih, List.map_cons]

theorem mapNumbersMembers_eq_map (members : Members) :
    mapNumbersMembers f members = members.map fun member => (member.1, member.2.mapNumbers f) := by
  induction members with
  | nil => rfl
  | cons member members ih => rw [mapNumbersMembers, ih, List.map_cons]

@[simp] theorem mapNumbers_sequence (items : List Value) :
    (sequence items).mapNumbers f = .sequence (items.map (mapNumbers f)) := by
  rw [mapNumbers, mapNumbersItems_eq_map]

@[simp] theorem mapNumbers_mapping (members : Members) :
    (mapping members).mapNumbers f =
      .mapping (members.map fun member => (member.1, member.2.mapNumbers f)) := by
  rw [mapNumbers, mapNumbersMembers_eq_map]

theorem depth_mapNumbers_le_iff {value : Value} {d : Nat} :
    (value.mapNumbers f).depth ≤ d ↔ value.depth ≤ d := by
  induction value using parts_induction generalizing d with
  | step value ih =>
    cases value with
    | sequence items =>
      rw [mapNumbers_sequence]
      cases d with
      | zero => simp [depth]
      | succ d =>
        rw [depth_sequence_le_iff, depth_sequence_le_iff, List.forall_mem_map]
        exact forall₂_congr fun item hi => ih item hi
    | mapping members =>
      rw [mapNumbers_mapping]
      cases d with
      | zero => simp [depth]
      | succ d =>
        rw [depth_mapping_le_iff, depth_mapping_le_iff, List.forall_mem_map]
        exact forall₂_congr fun member hm => ih member.2 (List.mem_map_of_mem hm)
    | _ => rfl

/-- Other numbers do not change how deep a value is nested. -/
theorem depth_mapNumbers (value : Value) : (value.mapNumbers f).depth = value.depth :=
  Nat.le_antisymm (depth_mapNumbers_le_iff.mpr (Nat.le_refl _)) (depth_mapNumbers_le_iff.mp (Nat.le_refl _))

theorem mapNumbers_id (value : Value) : value.mapNumbers id = value := by
  induction value using parts_induction with
  | step value ih =>
    cases value with
    | sequence items =>
      have hitems : items.map (mapNumbers id) = items :=
        (List.map_congr_left ih).trans (List.map_id' items)
      rw [mapNumbers_sequence, hitems]
    | mapping members =>
      have hmembers : members.map (fun member => (member.1, member.2.mapNumbers id)) = members := by
        refine (List.map_congr_left fun member hm => ?_).trans (List.map_id' members)
        exact Prod.ext rfl (ih member.2 (List.mem_map_of_mem hm))
      rw [mapNumbers_mapping, hmembers]
    | _ => rfl

end WireForm.Value
