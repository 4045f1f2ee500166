import WireForm.Json.Reader

/-!
# Members under their keys

The reader puts each member under its key. A key that is there keeps its place, so no key comes
to stand twice, and a new one is put at the end.
-/

namespace WireForm.Json

/-- A member with a new key is put at the end. -/
theorem putMember_of_not_mem {key : String} {value : Value} {members : Members}
    (h : key ∉ members.map (·.1)) : putMember key value members = members ++ [(key, value)] := by
  induction members with
  | nil => rfl
  | cons member members ih =>
    obtain ⟨k, v⟩ := member
    rw [List.map_cons, List.mem_cons, not_or] at h
    rw [putMember, if_neg (Ne.symm h.1), ih h.2, List.cons_append]

/-- Of distinct keys none stands among those before it. -/
theorem not_mem_of_nodup {key : String} {value : Value} {read members : Members}
    (h : ((read ++ (key, value) :: members).map (·.1)).Nodup) : key ∉ read.map (·.1) := by
  rw [List.map_append, List.nodup_append] at h
  exact fun hk => h.2.2 key hk key List.mem_cons_self rfl

/-- A member that is there after one was put is that one or was there before. -/
theorem mem_of_mem_putMember {key : String} {value : Value} {members : Members}
    {member : String × Value} (h : member ∈ putMember key value members) :
    member = (key, value) ∨ member ∈ members := by
  induction members with
  | nil => exact .inl (List.mem_singleton.mp h)
  | cons first members ih =>
    obtain ⟨k, v⟩ := first
    rw [putMember] at h
    split at h
    · rcases List.mem_cons.mp h with h | h
      · exact .inl h
      · exact .inr (List.mem_cons_of_mem _ h)
    · rcases List.mem_cons.mp h with h | h
      · exact .inr (h ▸ List.mem_cons_self)
      · exact (ih h).imp_right (List.mem_cons_of_mem _)

/-- The keys after a member was put: those before, and a new one at the end. -/
theorem keys_putMember (key : String) (value : Value) (members : Members) :
    (putMember key value members).map (·.1) =
      if key ∈ members.map (·.1) then members.map (·.1) else members.map (·.1) ++ [key] := by
  induction members with
  | nil => rfl
  | cons first members ih =>
    obtain ⟨k, v⟩ := first
    rw [putMember]
    -- The member is put here if its key is here, and after this one if not.
    by_cases hk : k = key
    · subst hk
      simp
    · have hne : key ≠ k := Ne.symm hk
      simp only [if_neg hk, List.map_cons, ih, List.mem_cons, hne, false_or]
      split
      · rfl
      · rfl

/-- Keys stay distinct when a member is put. -/
theorem nodup_putMember (key : String) (value : Value) {members : Members}
    (h : (members.map (·.1)).Nodup) : ((putMember key value members).map (·.1)).Nodup := by
  rw [keys_putMember]
  split
  · exact h
  · next hk =>
    refine List.nodup_append.mpr ⟨h, by simp, fun k hmem k' hk' => ?_⟩
    rw [List.mem_singleton.mp hk']
    rintro rfl
    exact hk hmem

end WireForm.Json
