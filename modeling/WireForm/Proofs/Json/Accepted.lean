import WireForm.Proofs.Json.Members
import WireForm.Proofs.Outcome
import WireForm.Proofs.Value.Parts

/-!
# What the reader accepts

Whatever the text was, a value that is read is nested no deeper than the reader allows, and no
mapping in it has a key twice. The first is counted down by the reader, the second holds because
a member is put in the place of an earlier one with its key.
-/

namespace WireForm.Json

/-! ## Loops -/

/-- That whatever a reader reads has a property. -/
def Yields (item : List UInt8 → Except Stop (After Value)) (p : Value → Prop) : Prop :=
  ∀ {text value rest}, item text = .ok (value, rest) → p value

section Loops

variable {item : List UInt8 → Except Stop (After Value)} {p : Value → Prop} {text rest : List UInt8}

theorem Yields.items (hi : Yields item p) {steps : List UInt8} {read items : List Value}
    (hr : ∀ value ∈ read, p value) (h : readItems item steps read text = .ok (items, rest)) :
    ∀ value ∈ items, p value := by
  induction steps generalizing read text with
  | nil => exact nomatch h
  | cons step steps ih =>
    rw [readItems] at h
    obtain ⟨⟨value, after⟩, hvalue, h⟩ := bind_eq_ok_iff.mp h
    -- The invariant: everything read so far has the property.
    have hread : ∀ other ∈ value :: read, p other :=
      List.forall_mem_cons.mpr ⟨hi hvalue, hr⟩
    dsimp only at h
    split at h
    · exact nomatch h
    · obtain ⟨rfl, -⟩ := Prod.mk.inj (Except.ok.inj h)
      exact fun other ho => hread other (List.mem_reverse.mp ho)
    · split at h
      · exact nomatch h
      · exact nomatch h
      · exact ih hread h
    · exact nomatch h

theorem Yields.list (hi : Yields item p) {value : Value}
    (h : readList item text = .ok (value, rest)) :
    ∃ items, value = .sequence items ∧ ∀ part ∈ items, p part := by
  rw [readList] at h
  split at h
  · exact nomatch h
  · obtain ⟨rfl, -⟩ := Prod.mk.inj (Except.ok.inj h)
    exact ⟨[], rfl, List.forall_mem_nil p⟩
  · obtain ⟨⟨items, after⟩, hitems, h⟩ := bind_eq_ok_iff.mp h
    obtain ⟨rfl, -⟩ := Prod.mk.inj (Except.ok.inj h)
    exact ⟨items, rfl, hi.items (List.forall_mem_nil p) hitems⟩

theorem Yields.memberValue (hi : Yields item p) : Yields (readMemberValue item) p := by
  intro text value rest h
  rw [readMemberValue] at h
  split at h
  · exact nomatch h
  · exact hi h
  · exact nomatch h

theorem Yields.members (hi : Yields item p) {steps : List UInt8} {read members : Members}
    (hr : ∀ member ∈ read, p member.2) (hk : (read.map (·.1)).Nodup)
    (h : readMembers item steps read text = .ok (members, rest)) :
    (∀ member ∈ members, p member.2) ∧ (members.map (·.1)).Nodup := by
  induction steps generalizing read text with
  | nil => exact nomatch h
  | cons step steps ih =>
    rw [readMembers] at h
    obtain ⟨⟨key, afterKey⟩, -, h⟩ := bind_eq_ok_iff.mp h
    obtain ⟨⟨value, after⟩, hvalue, h⟩ := bind_eq_ok_iff.mp h
    -- The same invariant; a value that is put aside by a later one of its key is just dropped.
    have hread : ∀ member ∈ putMember key value read, p member.2 := by
      intro member hm
      obtain rfl | hm := mem_of_mem_putMember hm
      · exact hi.memberValue hvalue
      · exact hr member hm
    have hkeys := nodup_putMember key value hk
    dsimp only at h
    split at h
    · exact nomatch h
    · obtain ⟨rfl, -⟩ := Prod.mk.inj (Except.ok.inj h)
      exact ⟨hread, hkeys⟩
    · split at h
      · exact nomatch h
      · exact ih hread hkeys h
      · exact nomatch h
      · exact nomatch h
    · exact nomatch h

theorem Yields.object (hi : Yields item p) {value : Value}
    (h : readObject item text = .ok (value, rest)) :
    ∃ members, value = .mapping members ∧ (∀ member ∈ members, p member.2) ∧
      (members.map (·.1)).Nodup := by
  rw [readObject] at h
  split at h
  · exact nomatch h
  · obtain ⟨rfl, -⟩ := Prod.mk.inj (Except.ok.inj h)
    exact ⟨[], rfl, List.forall_mem_nil _, List.nodup_nil⟩
  · obtain ⟨⟨members, after⟩, hmembers, h⟩ := bind_eq_ok_iff.mp h
    obtain ⟨rfl, -⟩ := Prod.mk.inj (Except.ok.inj h)
    exact ⟨members, rfl, hi.members (List.forall_mem_nil _) List.nodup_nil hmembers⟩
  · exact nomatch h

end Loops

/-! ## Values -/

/-- What a reader that allows a depth reads: a value within that depth and with distinct keys. -/
def Admitted (depth : Nat) (value : Value) : Prop := value.depth ≤ depth ∧ value.DistinctKeys

/-- A value without parts is within every depth. -/
theorem Admitted.of_parts_eq_nil {value : Value} (hd : value.depth = 0) (hp : value.parts = [])
    (hk : value.keys = []) (depth : Nat) : Admitted depth value := by
  refine ⟨by omega, .intro ?_ ?_⟩
  · rw [hk]
    exact List.nodup_nil
  · rw [hp]
    exact List.forall_mem_nil _

theorem Admitted.sequence {depth : Nat} {items : List Value}
    (h : ∀ item ∈ items, Admitted depth item) : Admitted (depth + 1) (.sequence items) :=
  ⟨Value.depth_sequence_le_iff.mpr fun item hi => (h item hi).1,
    .intro List.nodup_nil fun item hi => (h item hi).2⟩

theorem Admitted.mapping {depth : Nat} {members : Members}
    (h : ∀ member ∈ members, Admitted depth member.2) (hk : (members.map (·.1)).Nodup) :
    Admitted (depth + 1) (.mapping members) := by
  refine ⟨Value.depth_mapping_le_iff.mpr fun member hm => (h member hm).1, .intro hk ?_⟩
  intro part hp
  obtain ⟨member, hm, rfl⟩ := List.mem_map.mp hp
  exact (h member hm).2

theorem readScalar_yields (depth : Nat) : Yields readScalar (Admitted depth) := by
  intro text value rest h
  unfold readScalar at h
  split at h
  · exact nomatch h
  · obtain ⟨_, -, h⟩ := bind_eq_ok_iff.mp h
    obtain ⟨rfl, -⟩ := Prod.mk.inj (Except.ok.inj h)
    exact .of_parts_eq_nil rfl rfl rfl depth
  · obtain ⟨_, -, h⟩ := bind_eq_ok_iff.mp h
    obtain ⟨rfl, -⟩ := Prod.mk.inj (Except.ok.inj h)
    exact .of_parts_eq_nil rfl rfl rfl depth
  · obtain ⟨_, -, h⟩ := bind_eq_ok_iff.mp h
    obtain ⟨rfl, -⟩ := Prod.mk.inj (Except.ok.inj h)
    exact .of_parts_eq_nil rfl rfl rfl depth
  · obtain ⟨_, -, h⟩ := bind_eq_ok_iff.mp h
    obtain ⟨rfl, -⟩ := Prod.mk.inj (Except.ok.inj h)
    exact .of_parts_eq_nil rfl rfl rfl depth
  · split at h
    · obtain ⟨_, -, h⟩ := bind_eq_ok_iff.mp h
      obtain ⟨rfl, -⟩ := Prod.mk.inj (Except.ok.inj h)
      exact .of_parts_eq_nil rfl rfl rfl depth
    · exact nomatch h

/-- A value that is read is within the depth allowed and has distinct keys. -/
theorem readValue_yields (depth : Nat) : Yields (readValue depth) (Admitted depth) := by
  -- Where the reader goes into a list or an object, it does so with one level less.
  induction depth with
  | zero =>
    intro text value rest h
    rw [readValue.eq_def] at h
    dsimp only at h
    split at h
    · exact nomatch h
    · exact nomatch h
    · exact readScalar_yields 0 h
  | succ depth ih =>
    intro text value rest h
    rw [readValue.eq_def] at h
    dsimp only at h
    split at h
    · obtain ⟨items, rfl, hitems⟩ := Yields.list ih h
      exact .sequence hitems
    · obtain ⟨members, rfl, hmembers, hk⟩ := Yields.object ih h
      exact .mapping hmembers hk
    · exact readScalar_yields (depth + 1) h

/-- A text that is read begins with the value and has only blanks behind it. -/
theorem exists_readValue_of_read {text : List UInt8} {value : Value} (h : read text = .ok value) :
    ∃ rest, readValue maxDepth text = .ok (value, rest) ∧ skipBlanks rest = [] := by
  have hdocument : readDocument text = .ok value := by
    rw [read] at h
    cases hd : readDocument text with
    | error stop => rw [hd] at h; exact nomatch h
    | ok root => rw [hd] at h; exact congrArg _ (Except.ok.inj h)
  obtain ⟨⟨root, rest⟩, hroot, h⟩ := bind_eq_ok_iff.mp hdocument
  dsimp only at h
  split at h
  · next hrest =>
    obtain rfl := Except.ok.inj h
    exact ⟨rest, hroot, hrest⟩
  · exact nomatch h

/-- A text that is read holds a value within the limit and with distinct keys. -/
theorem admitted_of_read {text : List UInt8} {value : Value} (h : read text = .ok value) :
    Admitted maxDepth value := by
  obtain ⟨rest, hvalue, -⟩ := exists_readValue_of_read h
  exact readValue_yields maxDepth hvalue

end WireForm.Json
