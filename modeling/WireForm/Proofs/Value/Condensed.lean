import Mathlib.Data.List.Induction
import Mathlib.Data.List.Nodup
import WireForm.Proofs.Json.Members
import WireForm.Proofs.Value.Equality

/-!
# Keys that are written more than once

A mapping can be written with several members under one key. Condensed, it has each key once, in
the place where the key is written first and with the value that is written last under it. That
is what is left when members are put under their keys one after another, and no key stands twice
anywhere in a condensed value.
-/

namespace WireForm.Value

open Json

/-! ## The last value under each key -/

/-- The value that is written last under a key. -/
def lastValue? (members : Members) (key : String) : Option Value := members.reverse.lookup key

/-- Each key once, in the order in which the keys are written first, with its last value. -/
def keepLast (members : Members) : Members :=
  (members.map (·.1)).eraseDups.filterMap fun key => (lastValue? members key).map (key, ·)

section Members

variable {members : Members} {key : String} {value : Value}

theorem lookup_cons_eq_ite (key other : String) (value : Value) (members : Members) :
    ((key, value) :: members).lookup other =
      if other = key then some value else members.lookup other := by
  by_cases h : other = key
  · rw [if_pos h, h, List.lookup_cons_self]
  · rw [if_neg h, List.lookup_cons, beq_eq_false_iff_ne.mpr h]

/-- Another member only changes the last value under its own key. -/
theorem lastValue?_append_singleton (members : Members) (key other : String) (value : Value) :
    lastValue? (members ++ [(key, value)]) other =
      if other = key then some value else lastValue? members other := by
  rw [lastValue?, List.reverse_append, List.reverse_singleton, List.singleton_append,
    lookup_cons_eq_ite]
  rfl

theorem lastValue?_eq_none_iff : lastValue? members key = none ↔ key ∉ members.map (·.1) := by
  rw [lastValue?, lookup_eq_none_iff, List.map_reverse, List.mem_reverse]

theorem mem_of_lastValue? (h : lastValue? members key = some value) : (key, value) ∈ members := by
  obtain ⟨before, after, hreverse, -⟩ := List.lookup_eq_some_iff.mp h
  rw [← List.mem_reverse, hreverse]
  exact List.mem_append_right _ List.mem_cons_self

/-- What is done to all values is done to the last one under a key. -/
theorem lastValue?_map (f : Value → Value) (members : Members) (key : String) :
    lastValue? (members.map fun member => (member.1, f member.2)) key =
      (lastValue? members key).map f := by
  rw [lastValue?, lastValue?, ← List.map_reverse]
  induction members.reverse with
  | nil => rfl
  | cons member members ih =>
    obtain ⟨other, value⟩ := member
    rw [List.map_cons, lookup_cons_eq_ite, lookup_cons_eq_ite, ih]
    split <;> rfl

/-! ## Keys in the order in which they are written first -/

theorem eraseDups_append_singleton (keys : List String) (key : String) :
    (keys ++ [key]).eraseDups =
      if key ∈ keys then keys.eraseDups else keys.eraseDups ++ [key] := by
  rw [List.eraseDups_append]
  split
  · next hk =>
    have hnone : [key].removeAll keys = [] := by simp [List.removeAll, hk]
    rw [hnone, List.eraseDups_nil, List.append_nil]
  · next hk =>
    have hone : [key].removeAll keys = [key] := by simp [List.removeAll, hk]
    rw [hone, List.eraseDups_cons, List.filter_nil, List.eraseDups_nil]

theorem nodup_eraseDups (keys : List String) : keys.eraseDups.Nodup := by
  induction keys using List.reverseRecOn with
  | nil => exact List.nodup_nil
  | append_singleton keys key ih =>
    rw [eraseDups_append_singleton]
    split
    · exact ih
    · next hk =>
      have hnew : key ∉ keys.eraseDups := mt List.mem_eraseDups.mp hk
      rw [← List.concat_eq_append]
      exact List.nodup_concat _ key |>.mpr ⟨hnew, ih⟩

/-! ## Members that are kept -/

/-- Every key is kept, in the order in which the keys are written first. -/
theorem keys_keepLast (members : Members) :
    (keepLast members).map (·.1) = (members.map (·.1)).eraseDups := by
  have hkept (key : String) (hk : key ∈ (members.map (·.1)).eraseDups) :
      ((lastValue? members key).map (key, ·)).map (·.1) = some key := by
    cases hvalue : lastValue? members key with
    | none => exact absurd (List.mem_eraseDups.mp hk) (lastValue?_eq_none_iff.mp hvalue)
    | some value => rfl
  rw [keepLast, List.map_filterMap, List.filterMap_congr hkept, List.filterMap_some]

theorem nodup_keepLast (members : Members) : ((keepLast members).map (·.1)).Nodup := by
  rw [keys_keepLast]
  exact nodup_eraseDups _

/-- Under each key the value that is written last is found. -/
theorem lookup_keepLast (members : Members) (key : String) :
    (keepLast members).lookup key = lastValue? members key := by
  cases hvalue : lastValue? members key with
  | none =>
    rw [lookup_eq_none_iff, keys_keepLast, List.mem_eraseDups]
    exact lastValue?_eq_none_iff.mp hvalue
  | some value =>
    refine lookup_of_mem (nodup_keepLast members) (List.mem_filterMap.mpr ⟨key, ?_, ?_⟩)
    · rw [List.mem_eraseDups]
      exact List.mem_map_of_mem (mem_of_lastValue? hvalue)
    · rw [hvalue, Option.map_some]

/-- What is kept was written. -/
theorem mem_of_mem_keepLast {member : String × Value} (h : member ∈ keepLast members) :
    member ∈ members := by
  obtain ⟨key, -, hmember⟩ := List.mem_filterMap.mp h
  obtain ⟨value, hvalue, rfl⟩ := Option.map_eq_some_iff.mp hmember
  exact mem_of_lastValue? hvalue

/-! ## Members put one after another -/

/-- Members with distinct keys are known by the keys in their order and by what is found under
    each. -/
theorem members_ext {as bs : Members} (hk : (as.map (·.1)).Nodup)
    (hkeys : as.map (·.1) = bs.map (·.1)) (h : ∀ key, as.lookup key = bs.lookup key) : as = bs := by
  induction as generalizing bs with
  | nil => exact (List.map_eq_nil_iff.mp hkeys.symm).symm
  | cons member as ih =>
    obtain ⟨key, a⟩ := member
    cases bs with
    | nil => exact nomatch hkeys
    | cons member bs =>
      obtain ⟨key', b⟩ := member
      obtain ⟨rfl, htail⟩ : key = key' ∧ as.map (·.1) = bs.map (·.1) := List.cons.inj hkeys
      obtain ⟨hnot, hk⟩ := List.nodup_cons.mp hk
      have hfirst : a = b := by
        simpa only [List.lookup_cons_self, Option.some.injEq] using h key
      have hrest : as = bs := by
        refine ih hk htail fun other => ?_
        by_cases hother : other = key
        · -- The first key stands nowhere behind its member.
          rw [hother, lookup_eq_none_iff.mpr hnot, lookup_eq_none_iff.mpr (htail ▸ hnot)]
        · simpa only [lookup_cons_eq_ite, if_neg hother] using h other
      rw [hfirst, hrest]

theorem lookup_putMember (key other : String) (value : Value) (members : Members) :
    (putMember key value members).lookup other =
      if other = key then some value else members.lookup other := by
  induction members with
  | nil => exact lookup_cons_eq_ite key other value []
  | cons member members ih =>
    obtain ⟨k, v⟩ := member
    rw [putMember, lookup_cons_eq_ite k]
    by_cases hk : k = key
    · subst hk
      rw [if_pos rfl, lookup_cons_eq_ite]
      split <;> rfl
    · rw [if_neg hk, lookup_cons_eq_ite, ih]
      by_cases h : other = k
      · rw [if_pos h, if_pos h, if_neg (h ▸ hk)]
      · rw [if_neg h, if_neg h]

/-- Members are kept one after another: the next is put under its key. -/
theorem keepLast_append_singleton (members : Members) (key : String) (value : Value) :
    keepLast (members ++ [(key, value)]) = putMember key value (keepLast members) := by
  refine members_ext (nodup_keepLast _) ?_ fun other => ?_
  · rw [keys_keepLast, keys_putMember, keys_keepLast, List.map_append, List.map_singleton,
      eraseDups_append_singleton]
    simp only [List.mem_eraseDups]
  · rw [lookup_keepLast, lookup_putMember, lookup_keepLast, lastValue?_append_singleton]

end Members

/-! ## Condensed values -/

mutual
/-- A value in which each mapping has each of its keys once, with the last of its values. -/
def condensed : Value → Value
  | .sequence items => .sequence (condensedItems items)
  | .mapping members => .mapping (keepLast (condensedMembers members))
  | value => value
/-- Items that are condensed. -/
def condensedItems : List Value → List Value
  | [] => []
  | item :: items => item.condensed :: condensedItems items
/-- Members that are condensed, all of them. -/
def condensedMembers : Members → Members
  | [] => []
  | (key, value) :: members => (key, value.condensed) :: condensedMembers members
end

theorem condensedItems_eq_map (items : List Value) : condensedItems items = items.map condensed := by
  induction items with
  | nil => rfl
  | cons item items ih => rw [condensedItems, ih, List.map_cons]

theorem condensedMembers_eq_map (members : Members) :
    condensedMembers members = members.map fun member => (member.1, member.2.condensed) := by
  induction members with
  | nil => rfl
  | cons member members ih => rw [condensedMembers, ih, List.map_cons]

@[simp] theorem condensed_sequence (items : List Value) :
    (sequence items).condensed = .sequence (items.map condensed) := by
  rw [condensed, condensedItems_eq_map]

@[simp] theorem condensed_mapping (members : Members) :
    (mapping members).condensed =
      .mapping (keepLast (members.map fun member => (member.1, member.2.condensed))) := by
  rw [condensed, condensedMembers_eq_map]

/-- The keys of a condensed mapping are those that are written, in the order in which they are
    written first. -/
theorem keys_condensed (value : Value) : value.condensed.keys = value.keys.eraseDups := by
  cases value with
  | mapping members =>
    rw [condensed_mapping, keys, keys_keepLast, List.map_map]
    rfl
  | sequence items => rw [condensed_sequence]; rfl
  | _ => rfl

/-- No key stands twice anywhere in a condensed value. -/
theorem distinctKeys_condensed (value : Value) : value.condensed.DistinctKeys := by
  induction value using parts_induction with
  | step value ih =>
    refine .intro ?_ ?_
    · rw [keys_condensed]
      exact nodup_eraseDups _
    cases value with
    | sequence items =>
      rw [condensed_sequence, parts_sequence, List.forall_mem_map]
      exact ih
    | mapping members =>
      rw [condensed_mapping, parts_mapping, List.forall_mem_map]
      intro member hm
      obtain ⟨written, hw, rfl⟩ := List.mem_map.mp (mem_of_mem_keepLast hm)
      exact ih written.2 (List.mem_map_of_mem hw)
    | _ => exact List.forall_mem_nil _

end WireForm.Value
