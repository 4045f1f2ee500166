import Mathlib.Data.List.Perm.Subperm
import WireForm.Proofs.Value.Parts

/-!
# Equality on the wire

Values that are equal on the wire have the same shape and, place by place and key by key, parts
that are equal on the wire. Members that are found are equal, and under a key of neither mapping
nothing is found in either: this is where distinct keys are needed, since mappings are compared by
their sizes and by the members of the first alone.
-/

namespace WireForm.Value

/-- That two slots are both empty or hold values that are equal on the wire. -/
abbrev SameSlot : Option Value → Option Value → Prop := Option.Rel fun a b => a.same b = true

/-! ## Shapes -/

theorem shape_eq_of_same {a b : Value} (h : a.same b = true) : a.shape = b.shape := by
  cases a <;> cases b <;> simp_all [same, shape]

theorem isNull_eq_decide (a : Value) : a.isNull = decide (a.shape = .null) := by
  cases a <;> rfl

theorem isNull_eq_of_same {a b : Value} (h : a.same b = true) : a.isNull = b.isNull := by
  rw [isNull_eq_decide, isNull_eq_decide, shape_eq_of_same h]

/-- A value that fills no slot is equal to such a value only. -/
theorem SameSlot.present {a b : Option Value} (h : SameSlot a b) :
    SameSlot (present a) (present b) := by
  cases h with
  | none => exact .none
  | @some a b hab =>
    have hnull := isNull_eq_of_same hab
    cases ha : a.isNull with
    | true =>
      rw [ha] at hnull
      simp only [Value.present, Option.filter, ha, ← hnull]
      exact .none
    | false =>
      rw [present_of_not_null ha, present_of_not_null (hnull.symm.trans ha)]
      exact .some hab

/-! ## Sequences -/

theorem SameSlot.getElem? {as bs : List Value} (h : sameItems as bs = true) (index : Nat) :
    SameSlot as[index]? bs[index]? := by
  induction as generalizing bs index with
  | nil =>
    cases bs with
    | nil => exact .none
    | cons b bs => simp [sameItems] at h
  | cons a as ih =>
    cases bs with
    | nil => simp [sameItems] at h
    | cons b bs =>
      simp only [sameItems, Bool.and_eq_true] at h
      cases index with
      | zero => exact .some h.1
      | succ index => exact ih h.2 index

/-- The items at a place of sequences that are equal on the wire. -/
theorem SameSlot.slotAt {as bs : List Value} (h : (sequence as).same (sequence bs) = true)
    (index : Nat) : SameSlot (slotAt as index) (slotAt bs index) :=
  (SameSlot.getElem? (by simpa only [same] using h) index).present

/-! ## Mappings -/

theorem lookup_eq_none_iff {members : Members} {key : String} :
    members.lookup key = none ↔ key ∉ members.map (·.1) := by
  rw [List.lookup_eq_none_iff, List.mem_map, not_exists]
  constructor
  · rintro h member ⟨hm, rfl⟩
    exact absurd (h member hm) (by simp)
  · intro h member hm
    exact bne_iff_ne.mpr fun hk => h member ⟨hm, hk.symm⟩

/-- Of distinct keys each finds the member that it is the key of. -/
theorem lookup_of_mem {members : Members} (hk : (members.map (·.1)).Nodup) {key : String}
    {value : Value} (h : (key, value) ∈ members) : members.lookup key = some value := by
  obtain ⟨before, after, rfl⟩ := List.append_of_mem h
  refine List.lookup_eq_some_iff.mpr ⟨before, after, rfl, fun member hm => ?_⟩
  rw [List.map_append, List.nodup_append] at hk
  exact bne_iff_ne.mpr fun he => hk.2.2 member.1 (List.mem_map_of_mem hm) key List.mem_cons_self
    he.symm

theorem sameMembers_iff {as bs : Members} :
    sameMembers as bs = true ↔
      ∀ member ∈ as, ∃ b, bs.lookup member.1 = some b ∧ member.2.same b = true := by
  induction as with
  | nil => simp [sameMembers]
  | cons member as ih =>
    obtain ⟨key, a⟩ := member
    rw [sameMembers, Bool.and_eq_true, ih, List.forall_mem_cons]
    refine and_congr ?_ Iff.rfl
    cases bs.lookup key <;> simp

theorem same_mapping_iff {as bs : Members} :
    (mapping as).same (mapping bs) = true ↔
      as.length = bs.length ∧
        ∀ member ∈ as, ∃ b, bs.lookup member.1 = some b ∧ member.2.same b = true := by
  rw [same, Bool.and_eq_true, beq_iff_eq, sameMembers_iff]

theorem mem_keys_of_lookup {members : Members} {key : String} {value : Value}
    (h : members.lookup key = some value) : key ∈ members.map (·.1) := by
  refine Decidable.not_not.mp fun hn => ?_
  rw [lookup_eq_none_iff.mpr hn] at h
  exact nomatch h

/-- Mappings that are equal on the wire have the same keys. -/
theorem keys_perm_of_same {as bs : Members} (hk : (as.map (·.1)).Nodup)
    (h : (mapping as).same (mapping bs) = true) : (as.map (·.1)).Perm (bs.map (·.1)) := by
  obtain ⟨hlen, hmem⟩ := same_mapping_iff.mp h
  have hsub : as.map (·.1) ⊆ bs.map (·.1) := by
    intro key hkey
    obtain ⟨member, hm, rfl⟩ := List.mem_map.mp hkey
    obtain ⟨b, hb, -⟩ := hmem member hm
    exact mem_keys_of_lookup hb
  -- As many keys, all of them distinct: none of the second mapping is left over.
  refine (List.subperm_of_subset hk hsub).perm_of_length_le ?_
  rw [List.length_map, List.length_map]
  exact Nat.le_of_eq hlen.symm

/-- What mappings that are equal on the wire hold under a key. -/
theorem SameSlot.lookup {as bs : Members} (hk : (as.map (·.1)).Nodup)
    (h : (mapping as).same (mapping bs) = true) (key : String) :
    SameSlot (as.lookup key) (bs.lookup key) := by
  cases ha : as.lookup key with
  | some a =>
    obtain ⟨before, after, rfl, -⟩ := List.lookup_eq_some_iff.mp ha
    obtain ⟨b, hb, hab⟩ := (same_mapping_iff.mp h).2 (key, a) (by simp)
    rw [hb]
    exact .some hab
  | none =>
    have hnot : key ∉ bs.map (·.1) := fun hb =>
      lookup_eq_none_iff.mp ha ((keys_perm_of_same hk h).mem_iff.mpr hb)
    rw [lookup_eq_none_iff.mpr hnot]
    exact .none

/-- The slots under a key of mappings that are equal on the wire. -/
theorem SameSlot.slot {as bs : Members} (hk : (mapping as).DistinctKeys)
    (h : (mapping as).same (mapping bs) = true) (key : String) :
    SameSlot (slot as key) (slot bs key) :=
  (SameSlot.lookup hk.here h key).present

/-! ## A value and itself -/

theorem sameItems_self {items : List Value} (h : ∀ item ∈ items, item.same item = true) :
    sameItems items items = true := by
  induction items with
  | nil => rfl
  | cons item items ih =>
    rw [List.forall_mem_cons] at h
    rw [sameItems, h.1, ih h.2]
    rfl

/-- A value with distinct keys is equal to itself. -/
theorem same_self {value : Value} (hk : value.DistinctKeys) : value.same value = true := by
  induction value using parts_induction with
  | step value ih =>
    cases value with
    | null => rfl
    | bool b => simp [same]
    | number n => rw [same, Number.same_refl]
    | string text => simp [same]
    | sequence items =>
      rw [same]
      exact sameItems_self fun item hi => ih item hi (hk.inside item hi)
    | mapping members =>
      refine same_mapping_iff.mpr ⟨rfl, fun member hm => ?_⟩
      have hpart : member.2 ∈ (mapping members).parts := List.mem_map_of_mem hm
      exact ⟨member.2, lookup_of_mem hk.here hm, ih member.2 hpart (hk.inside _ hpart)⟩

end WireForm.Value
