import WireForm.Proofs.Record.Grammar

/-!
# Chains of canonicalizations

A chain takes a value through a list of kinds; a step that fails leaves the value as it is.
After the first step that succeeds the value is in one of four forms, and `recast?` says
which step leads from which form to which. What a chain ends with hangs on the value it began
with and on the kind of its last success, unless that is the union or a wrapper.
-/

namespace WireForm

/-! ## The forms and the steps between them -/

/-- What canonicalization can make. -/
inductive CanonicalForm where
  | data (name : String)
  | point (timestamp value : Number)
  | variant (tag : Tag) (name inner : String)
  | wrapper (payload : Value) (filled : payload ≠ .null)

namespace CanonicalForm

/-- A form as a value. -/
def toValue : CanonicalForm → Value
  | .data name => dataForm name
  | .point timestamp value => pointForm timestamp value
  | .variant tag name inner => variantForm tag name inner
  | .wrapper payload _ => wrapperForm payload

/-- What a step makes of a form. All but a variant are taken by their own kind alone, which
    leaves them as they are. A variant can be stamped anew, cut down to its name or have its
    data record wrapped. -/
def recast? : CanonicalForm → Kind → Option CanonicalForm
  | .data name, .data => some (.data name)
  | .point timestamp value, .point => some (.point timestamp value)
  | .wrapper payload filled, .wrapper => some (.wrapper payload filled)
  | .variant _ name inner, .variant tag => some (.variant tag name inner)
  | .variant _ name _, .data => some (.data name)
  | .variant _ _ inner, .wrapper => some (.wrapper (dataForm inner) (dataForm_ne_null inner))
  | _, _ => none

end CanonicalForm

/-- The text of a tag is no stamp. -/
theorem Tag.text_ne_stamp (tag other : Tag) : tag.text ≠ other.stamp := by
  intro h
  have hs := Tag.ofText?_stamp other
  rw [← h, Tag.ofText?_text] at hs
  exact nomatch hs

/-- A wrapper that is made holds something. -/
theorem exists_payload_of_canonicalize {wire canonical : Value}
    (h : canonicalize .wrapper wire = .ok canonical) :
    ∃ payload, payload ≠ .null ∧ canonical = wrapperForm payload := by
  obtain ⟨payload, rfl, ⟨text, -, rfl⟩ | ⟨_, -, hs⟩⟩ := canonicalize_wrapper_iff.mp h
  · exact ⟨.string text, Value.string_ne_null text, rfl⟩
  · exact ⟨payload, Value.ne_null_of_slot hs, rfl⟩

/-- Every success gives one of the forms. -/
theorem exists_form_of_canonicalize {kind : Kind} {wire canonical : Value}
    (h : canonicalize kind wire = .ok canonical) :
    ∃ form : CanonicalForm, canonical = form.toValue := by
  cases kind with
  | data =>
    obtain ⟨_, name, -, -, rfl⟩ := canonicalize_data_iff.mp h
    exact ⟨.data name, rfl⟩
  | point =>
    obtain ⟨timestamp, value, -, rfl⟩ := canonicalize_point_iff.mp h
    exact ⟨.point timestamp value, rfl⟩
  | variant tag =>
    obtain ⟨_, _, name, inner, -, -, -, -, rfl⟩ := canonicalize_variant_iff.mp h
    exact ⟨.variant tag name inner, rfl⟩
  | interface =>
    obtain ⟨_, tag, -, -, hv⟩ := canonicalize_interface_iff.mp h
    obtain ⟨_, _, name, inner, -, -, -, -, rfl⟩ := canonicalize_variant_iff.mp hv
    exact ⟨.variant tag name inner, rfl⟩
  | wrapper =>
    obtain ⟨payload, filled, rfl⟩ := exists_payload_of_canonicalize h
    exact ⟨.wrapper payload filled, rfl⟩

/-! ### One form at a time -/

theorem canonicalize_dataForm_iff {name : String} {kind : Kind} {canonical : Value} :
    canonicalize kind (dataForm name) = .ok canonical ↔
      kind = .data ∧ canonical = dataForm name := by
  cases kind with
  | data => simp [canonicalize_data_iff, dataForm]
  | point => simp [canonicalize_point_mapping_iff, dataForm, Value.slot_cons_of_ne]
  | variant tag => simp [canonicalize_variant_iff, dataForm, Value.slot_cons_of_ne]
  | interface => simp [canonicalize_interface_iff, dataForm, Value.slot_cons_of_ne]
  | wrapper => simp [canonicalize_wrapper_iff, dataForm, Value.slot_cons_of_ne]

theorem canonicalize_pointForm_iff {timestamp value : Number} {kind : Kind} {canonical : Value} :
    canonicalize kind (pointForm timestamp value) = .ok canonical ↔
      kind = .point ∧ canonical = pointForm timestamp value := by
  cases kind with
  | data => simp [canonicalize_data_iff, pointForm]
  | point => simp [canonicalize_point_sequence_iff, pointForm, Value.slotAt]
  | variant tag => simp [canonicalize_variant_iff, pointForm]
  | interface => simp [canonicalize_interface_iff, pointForm]
  | wrapper => simp [canonicalize_wrapper_iff, pointForm]

/-- Whatever the payload is, a wrapper is taken by its own kind alone. -/
theorem canonicalize_wrapperForm_iff {payload : Value} (filled : payload ≠ .null) {kind : Kind}
    {canonical : Value} :
    canonicalize kind (wrapperForm payload) = .ok canonical ↔
      kind = .wrapper ∧ canonical = wrapperForm payload := by
  cases kind with
  | data => simp [canonicalize_data_iff, wrapperForm, Value.slot_cons_of_ne]
  | point => simp [canonicalize_point_mapping_iff, wrapperForm, Value.slot_cons_of_ne]
  | variant tag => simp [canonicalize_variant_iff, wrapperForm, Value.slot_cons_of_ne]
  | interface => simp [canonicalize_interface_iff, wrapperForm, Value.slot_cons_of_ne]
  | wrapper => simp [canonicalize_wrapper_iff, wrapperForm, Value.present_of_ne_null filled]

theorem canonicalize_variantForm_iff {tag : Tag} {name inner : String} {kind : Kind}
    {canonical : Value} :
    canonicalize kind (variantForm tag name inner) = .ok canonical ↔
      (∃ other, kind = .variant other ∧ canonical = variantForm other name inner) ∨
        (kind = .data ∧ canonical = dataForm name) ∨
        (kind = .wrapper ∧ canonical = wrapperForm (dataForm inner)) := by
  cases kind with
  | data => simp [canonicalize_data_iff, variantForm, Value.slot_cons_of_ne]
  | point => simp [canonicalize_point_mapping_iff, variantForm, Value.slot_cons_of_ne]
  | variant other =>
    simp [canonicalize_variant_iff, variantForm, dataForm, Value.slot_cons_of_ne]
  | interface => simp [canonicalize_interface_iff, variantForm, (Tag.text_ne_stamp _ tag).symm]
  | wrapper => simp [canonicalize_wrapper_iff, variantForm, dataForm, Value.slot_cons_of_ne]

/-- `recast?` is what canonicalization does to the forms, for every payload. -/
theorem canonicalize_toValue_iff {form : CanonicalForm} {kind : Kind} {canonical : Value} :
    canonicalize kind form.toValue = .ok canonical ↔
      ∃ next, form.recast? kind = some next ∧ canonical = next.toValue := by
  cases form with
  | data name =>
    rw [CanonicalForm.toValue, canonicalize_dataForm_iff]
    cases kind <;> simp [CanonicalForm.recast?, CanonicalForm.toValue]
  | point timestamp value =>
    rw [CanonicalForm.toValue, canonicalize_pointForm_iff]
    cases kind <;> simp [CanonicalForm.recast?, CanonicalForm.toValue]
  | variant tag name inner =>
    rw [CanonicalForm.toValue, canonicalize_variantForm_iff]
    cases kind <;> simp [CanonicalForm.recast?, CanonicalForm.toValue]
  | wrapper payload filled =>
    rw [CanonicalForm.toValue, canonicalize_wrapperForm_iff filled]
    cases kind <;> simp [CanonicalForm.recast?, CanonicalForm.toValue]

/-- A canonical form is its own canonical form, except for the union. -/
theorem canonicalize_idempotent {kind : Kind} (hk : kind ≠ .interface) {wire canonical : Value}
    (h : canonicalize kind wire = .ok canonical) : canonicalize kind canonical = .ok canonical := by
  cases kind with
  | data =>
    obtain ⟨_, name, -, -, rfl⟩ := canonicalize_data_iff.mp h
    exact canonicalize_dataForm_iff.mpr ⟨rfl, rfl⟩
  | point =>
    obtain ⟨timestamp, value, -, rfl⟩ := canonicalize_point_iff.mp h
    exact canonicalize_pointForm_iff.mpr ⟨rfl, rfl⟩
  | variant tag =>
    obtain ⟨_, _, name, inner, -, -, -, -, rfl⟩ := canonicalize_variant_iff.mp h
    exact canonicalize_variantForm_iff.mpr (.inl ⟨tag, rfl, rfl⟩)
  | interface => exact absurd rfl hk
  | wrapper =>
    obtain ⟨payload, filled, rfl⟩ := exists_payload_of_canonicalize h
    exact (canonicalize_wrapperForm_iff filled).mpr ⟨rfl, rfl⟩

/-! ## Chains -/

/-- The kinds of the steps of a chain that succeed, in order. -/
def chainSuccesses (wire : Value) : List Kind → List Kind
  | [] => []
  | kind :: kinds =>
    match canonicalize kind wire with
    | .ok next => kind :: chainSuccesses next kinds
    | .error _ => chainSuccesses wire kinds

section Steps

variable {wire next : Value} {kind : Kind} {error : Error}

theorem canonicalChain_cons_of_ok (h : canonicalize kind wire = .ok next) (kinds : List Kind) :
    canonicalChain wire (kind :: kinds) = canonicalChain next kinds := by
  simp [canonicalChain, canonicalStep, h]

theorem canonicalChain_cons_of_error (h : canonicalize kind wire = .error error)
    (kinds : List Kind) : canonicalChain wire (kind :: kinds) = canonicalChain wire kinds := by
  simp [canonicalChain, canonicalStep, h]

theorem chainSuccesses_cons_of_ok (h : canonicalize kind wire = .ok next) (kinds : List Kind) :
    chainSuccesses wire (kind :: kinds) = kind :: chainSuccesses next kinds := by
  simp [chainSuccesses, h]

theorem chainSuccesses_cons_of_error (h : canonicalize kind wire = .error error)
    (kinds : List Kind) : chainSuccesses wire (kind :: kinds) = chainSuccesses wire kinds := by
  simp [chainSuccesses, h]

end Steps

/-- A chain from a form stays among the forms, and the union is not among its successes. -/
theorem canonicalChain_of_form (kinds : List Kind) (form : CanonicalForm) :
    (∃ last : CanonicalForm, canonicalChain form.toValue kinds = last.toValue) ∧
      .interface ∉ chainSuccesses form.toValue kinds := by
  induction kinds generalizing form with
  | nil => exact ⟨⟨form, rfl⟩, List.not_mem_nil⟩
  | cons kind kinds ih =>
    -- A failed step changes nothing, a successful one leads to the form that `recast?` gives.
    cases h : canonicalize kind form.toValue with
    | error error =>
      rw [canonicalChain_cons_of_error h, chainSuccesses_cons_of_error h]
      exact ih form
    | ok canonical =>
      obtain ⟨next, hn, rfl⟩ := canonicalize_toValue_iff.mp h
      have hk : kind ≠ .interface := by
        rintro rfl
        cases form <;> exact nomatch hn
      rw [canonicalChain_cons_of_ok h, chainSuccesses_cons_of_ok h, List.mem_cons, not_or]
      exact ⟨(ih next).1, hk.symm, (ih next).2⟩

/-- A chain has no success and leaves its value, or it goes on from its first success. -/
theorem chain_cases (wire : Value) (kinds : List Kind) :
    (chainSuccesses wire kinds = [] ∧ canonicalChain wire kinds = wire) ∨
      ∃ kind canonical rest, canonicalize kind wire = .ok canonical ∧
        chainSuccesses wire kinds = kind :: chainSuccesses canonical rest ∧
        canonicalChain wire kinds = canonicalChain canonical rest := by
  induction kinds with
  | nil => exact .inl ⟨rfl, rfl⟩
  | cons kind kinds ih =>
    cases h : canonicalize kind wire with
    | error error =>
      rw [canonicalChain_cons_of_error h, chainSuccesses_cons_of_error h]
      exact ih
    | ok canonical =>
      exact .inr ⟨kind, canonical, kinds, h, chainSuccesses_cons_of_ok h kinds,
        canonicalChain_cons_of_ok h kinds⟩

/-- Until the first success of a chain the value is the one it began with, and from then on it
    is in one of the four forms, among which every step does what `recast?` says. The union
    succeeds first or not at all, and every other kind is idempotent. -/
theorem canonicalChain_in_form (wire : Value) (kinds : List Kind) :
    (chainSuccesses wire kinds = [] → canonicalChain wire kinds = wire) ∧
    (chainSuccesses wire kinds ≠ [] →
      ∃ form : CanonicalForm, canonicalChain wire kinds = form.toValue) ∧
    .interface ∉ (chainSuccesses wire kinds).tail ∧
    (∀ (form : CanonicalForm) (kind : Kind) (canonical : Value),
      canonicalize kind form.toValue = .ok canonical ↔
        ∃ next, form.recast? kind = some next ∧ canonical = next.toValue) ∧
    ∀ kind ≠ .interface, ∀ canonical, canonicalize kind wire = .ok canonical →
      canonicalize kind canonical = .ok canonical := by
  refine ⟨?_, ?_, ?_, fun form kind canonical => canonicalize_toValue_iff,
    fun kind hk canonical h => canonicalize_idempotent hk h⟩
  all_goals
    obtain ⟨hs, hc⟩ | ⟨kind, canonical, rest, h, hs, hc⟩ := chain_cases wire kinds
  · exact fun _ => hc
  · exact fun hnil => absurd (hs.symm.trans hnil) (List.cons_ne_nil _ _)
  · exact fun hne => absurd hs hne
  · obtain ⟨form, rfl⟩ := exists_form_of_canonicalize h
    rw [hc]
    exact fun _ => (canonicalChain_of_form rest form).1
  · simp [hs]
  · obtain ⟨form, rfl⟩ := exists_form_of_canonicalize h
    rw [hs, List.tail_cons]
    exact (canonicalChain_of_form rest form).2

/-! ## What a chain ends with -/

/-- What the last success of a chain says about the value it began with: the value reached is
    the canonical form of that one under the same kind. After a union it is so under the kind of
    some variant; after a wrapper nothing is said but that the value is a wrapper. -/
def Settled (wire : Value) : Kind → Value → Prop
  | .interface, reached => ∃ tag, canonicalize (.variant tag) wire = .ok reached
  | .wrapper, reached => ∃ payload, payload ≠ .null ∧ reached = wrapperForm payload
  | kind, reached => canonicalize kind wire = .ok reached

/-- The first success settles the chain. -/
theorem Settled.of_canonicalize {wire canonical : Value} {kind : Kind}
    (h : canonicalize kind wire = .ok canonical) : Settled wire kind canonical := by
  cases kind with
  | interface =>
    obtain ⟨_, tag, -, -, hv⟩ := canonicalize_interface_iff.mp h
    exact ⟨tag, hv⟩
  | wrapper => exact exists_payload_of_canonicalize h
  | _ => exact h

/-- Whatever is made of a variant's canonical form could have been made of the value itself. -/
theorem Settled.step_of_variant {wire reached canonical : Value} {tag : Tag} {kind : Kind}
    (hv : canonicalize (.variant tag) wire = .ok reached)
    (h : canonicalize kind reached = .ok canonical) : Settled wire kind canonical := by
  obtain ⟨members, nested, name, inner, hw, hn, hd, hi, rfl⟩ := canonicalize_variant_iff.mp hv
  obtain ⟨other, rfl, rfl⟩ | ⟨rfl, rfl⟩ | ⟨rfl, rfl⟩ := canonicalize_variantForm_iff.mp h
  · exact canonicalize_variant_iff.mpr ⟨members, nested, name, inner, hw, hn, hd, hi, rfl⟩
  · exact canonicalize_data_iff.mpr ⟨members, name, hw, hn, rfl⟩
  · exact ⟨dataForm inner, dataForm_ne_null inner, rfl⟩

/-- A further success keeps the chain settled. -/
theorem Settled.step {wire reached canonical : Value} {last kind : Kind}
    (hs : Settled wire last reached) (h : canonicalize kind reached = .ok canonical) :
    Settled wire kind canonical := by
  cases last with
  | data =>
    obtain ⟨_, name, -, -, rfl⟩ := canonicalize_data_iff.mp hs
    obtain ⟨rfl, rfl⟩ := canonicalize_dataForm_iff.mp h
    exact hs
  | point =>
    obtain ⟨timestamp, value, -, rfl⟩ := canonicalize_point_iff.mp hs
    obtain ⟨rfl, rfl⟩ := canonicalize_pointForm_iff.mp h
    exact hs
  | variant tag => exact Settled.step_of_variant hs h
  | interface =>
    obtain ⟨tag, hv⟩ := hs
    exact Settled.step_of_variant hv h
  | wrapper =>
    obtain ⟨payload, filled, rfl⟩ := hs
    obtain ⟨rfl, rfl⟩ := (canonicalize_wrapperForm_iff filled).mp h
    exact ⟨payload, filled, rfl⟩

/-- A settled chain stays settled to its end. -/
theorem Settled.run {wire : Value} (kinds : List Kind) {last : Kind} {reached : Value}
    (hs : Settled wire last reached) :
    Settled wire ((chainSuccesses reached kinds).getLast?.getD last)
      (canonicalChain reached kinds) := by
  induction kinds generalizing last reached with
  | nil => exact hs
  | cons kind kinds ih =>
    -- What the last success was is remembered along the chain; `getD` is what it was before.
    cases h : canonicalize kind reached with
    | error error =>
      rw [canonicalChain_cons_of_error h, chainSuccesses_cons_of_error h]
      exact ih hs
    | ok canonical =>
      rw [canonicalChain_cons_of_ok h, chainSuccesses_cons_of_ok h, List.getLast?_cons,
        Option.getD_some]
      exact ih (hs.step h)

theorem Settled.of_chain {wire : Value} {kinds : List Kind} {last : Kind}
    (hl : (chainSuccesses wire kinds).getLast? = some last) :
    Settled wire last (canonicalChain wire kinds) := by
  obtain ⟨hs, -⟩ | ⟨kind, canonical, rest, h, hs, hc⟩ := chain_cases wire kinds
  · rw [hs] at hl
    exact nomatch hl
  · rw [hs, List.getLast?_cons] at hl
    rw [hc, ← Option.some.inj hl]
    exact (Settled.of_canonicalize h).run rest

/-- If the last success of a chain is of one of these kinds, the chain ends with the canonical
    form that the value it began with has under that kind. So two chains from one value that
    have the same last success of such a kind end with the same value. -/
theorem canonicalChain_path_independent (wire : Value) (kinds : List Kind) (last : Kind)
    (hk : last ∈ [.data, .point, .variant .one, .variant .two])
    (hl : (chainSuccesses wire kinds).getLast? = some last) :
    canonicalize last wire = .ok (canonicalChain wire kinds) ∧
      ∀ others : List Kind, (chainSuccesses wire others).getLast? = some last →
        canonicalChain wire others = canonicalChain wire kinds := by
  -- Both parts come from the same fact about any one chain.
  have direct : ∀ others : List Kind, (chainSuccesses wire others).getLast? = some last →
      canonicalize last wire = .ok (canonicalChain wire others) := by
    intro others ho
    have hs := Settled.of_chain ho
    simp only [List.mem_cons, List.not_mem_nil, or_false] at hk
    obtain rfl | rfl | rfl | rfl := hk
    all_goals exact hs
  refine ⟨direct kinds hl, fun others ho => ?_⟩
  exact Except.ok.inj ((direct others ho).symm.trans (direct kinds hl))

/-- A tagged mapping with a key that no kind reads. -/
def taggedNote : Value :=
  .mapping [("note", .sequence [.null]), ("data", .mapping [("name", .string "n")]),
    ("type", .string "one"), ("name", .string "x")]

theorem canonicalChain_path_independent_taggedNote :
    (chainSuccesses taggedNote [.point, .interface, .variant .two, .data]).getLast? = some .data ∧
      (chainSuccesses taggedNote [.data]).getLast? = some .data ∧
      canonicalize .data taggedNote =
        .ok (canonicalChain taggedNote [.point, .interface, .variant .two, .data]) ∧
      canonicalChain taggedNote [.data] =
        canonicalChain taggedNote [.point, .interface, .variant .two, .data] := by
  have hl : (chainSuccesses taggedNote [.point, .interface, .variant .two, .data]).getLast? =
      some .data := by decide
  have ho : (chainSuccesses taggedNote [.data]).getLast? = some .data := by decide
  obtain ⟨hdirect, hothers⟩ := canonicalChain_path_independent taggedNote
    [.point, .interface, .variant .two, .data] .data (by decide) hl
  exact ⟨hl, ho, hdirect, hothers [.data] ho⟩

end WireForm
