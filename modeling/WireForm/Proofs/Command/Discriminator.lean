import WireForm.Command.Report
import WireForm.Proofs.Record.Dispatch

/-!
# The discriminator that is shown

A report on a document shows what stands under the tag key of its root. That is what a union is
read by: if it is the text of a tag, the root is read as the variant with that tag in every
respect, and if it is not, the error reports the very discriminator that is shown.
-/

namespace WireForm.Command

/-! ## What a report shows -/

/-- The text of a report has a line that shows the discriminator, if there is one. -/
theorem Info.mem_lines_iff (info : Info) (label : String) :
    "discriminator: " ++ label ∈ info.lines ↔ info.discriminator = some label := by
  have hhead : ("discriminator: " ++ label).toList.head? = some 'd' := by
    rw [String.toList_append]
    rfl
  rw [Info.lines, List.mem_append, List.mem_append]
  constructor
  · rintro ((h | h) | h)
    -- The first letter tells the line from all others.
    · simp only [List.mem_cons, List.not_mem_nil, or_false] at h
      obtain h | h | h | h := h
      all_goals
        rw [h, String.toList_append] at hhead
        exact absurd hhead (by simp)
    · split at h
      · exact nomatch h
      · rw [List.mem_singleton.mp h, String.toList_append] at hhead
        exact absurd hhead (by simp)
    · obtain ⟨other, ho, hline⟩ := Option.map_eq_some_iff.mp (Option.mem_toList.mp h)
      rw [ho, (String.append_right_inj _).mp hline]
  · intro h
    rw [h]
    exact .inr List.mem_cons_self

/-- The JSON form of a report has a member that shows the discriminator, if there is one. -/
theorem Info.lookup_toValue_iff (info : Info) (label : String) :
    (∃ members, info.toValue = .mapping members ∧
        members.lookup "discriminator" = some (.string label)) ↔
      info.discriminator = some label := by
  rw [Info.toValue]
  cases info.discriminator <;> simp [List.lookup_cons]

/-! ## What is shown and what is read -/

section Shown

variable {path : String} {document : Document} {members : Members}

/-- What is shown of a document is what stands under the tag key of its root. -/
theorem Info.discriminator_ofDocument (h : document.root = .mapping members) :
    (ofDocument path document).discriminator =
      (Value.slot members tagKey).map discriminatorText := by
  rw [ofDocument, Document.discriminatorLabel?, Document.discriminator?, h]
  rfl

theorem Info.discriminator_of_not_mapping (h : ∀ members, document.root ≠ .mapping members) :
    (ofDocument path document).discriminator = none := by
  rw [ofDocument, Document.discriminatorLabel?, Document.discriminator?]
  cases hr : document.root with
  | mapping members => exact absurd hr (h members)
  | _ => rfl

end Shown

/-- A report shows the discriminator that a union is read by. Of a root that is no mapping it
    shows none, and no union is read from it because of its shape. If the text of a tag stands
    under the tag key, that text is shown, and the union is read as the variant with that tag is:
    the same variant with the same description and the same canonical form, or the same error.
    From any other mapping, whatever its fields are, no union is read, and the error reports the
    discriminator that is shown, or that there is none; and what is shown of a discriminator that
    is no string is never the text of a tag. -/
theorem shown_discriminator_selects (path : String) (document : Document) :
    (∀ label,
      ("discriminator: " ++ label ∈ (Info.ofDocument path document).lines ↔
        (Info.ofDocument path document).discriminator = some label) ∧
      ((∃ members, (Info.ofDocument path document).toValue = .mapping members ∧
          members.lookup "discriminator" = some (.string label)) ↔
        (Info.ofDocument path document).discriminator = some label)) ∧
    ((∀ members, document.root ≠ .mapping members) →
      (Info.ofDocument path document).discriminator = none ∧
        Record.decode .interface document.root =
          .error (.unexpectedShape .interface .mapping document.root.shape)) ∧
    (∀ members, document.root = .mapping members →
      (∀ tag : Tag, members.lookup "type" = some (.string tag.text) →
        (Info.ofDocument path document).discriminator = some tag.text ∧
          Record.decode .interface document.root =
            (Variant.decode tag document.root).map .interface ∧
          Record.decode (.variant tag) document.root =
            (Variant.decode tag document.root).map .variant ∧
          canonicalize .interface document.root = canonicalize (.variant tag) document.root) ∧
      ((∀ tag : Tag, members.lookup "type" ≠ some (.string tag.text)) →
        Record.decode .interface document.root =
            .error (.unknownTag (Info.ofDocument path document).discriminator) ∧
          canonicalize .interface document.root =
            .error (.unknownTag (Info.ofDocument path document).discriminator))) ∧
    (∀ held : Variant, (Record.interface held).describe = (Record.variant held).describe ∧
      (Record.interface held).encode = (Record.variant held).encode) ∧
    ∀ value, document.discriminator? = some value → (∀ text, value ≠ .string text) →
      ∃ label, (Info.ofDocument path document).discriminator = some label ∧
        ∀ tag : Tag, label ≠ tag.text := by
  refine ⟨fun label => ⟨Info.mem_lines_iff _ label, Info.lookup_toValue_iff _ label⟩, ?_, ?_,
    fun held => ⟨rfl, rfl⟩, ?_⟩
  · intro h
    refine ⟨Info.discriminator_of_not_mapping h, ?_⟩
    rw [Record.decode_interface, Variant.decodeUnion_of_not_mapping h]
    rfl
  · intro members h
    -- The slot under the tag key is all that is shown and the first thing that is read.
    rw [Info.discriminator_ofDocument h, h]
    refine ⟨fun tag ht => ?_, fun hne => ?_⟩
    · have hslot : Value.slot members tagKey = some (.string tag.text) := Value.slot_of_lookup ht
      refine ⟨by rw [hslot]; rfl, ?_, Record.decode_variant tag _,
        canonicalize_interface_of_tag hslot⟩
      rw [Record.decode_interface, Variant.decodeUnion_of_tag hslot]
    · have hunion := Variant.decodeUnion_of_ne fun tag hs => hne tag (Value.lookup_of_slot hs)
      have hdecode := Record.decode_interface (.mapping members)
      rw [hunion] at hdecode
      refine ⟨hdecode, ?_⟩
      rw [canonicalize, hdecode]
      rfl
  · intro value hv hs
    refine ⟨discriminatorText value, ?_, discriminatorText_ne_tagText hs⟩
    rw [Info.ofDocument, Document.discriminatorLabel?, hv]
    rfl

end WireForm.Command
