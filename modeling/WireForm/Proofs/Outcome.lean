/-!
# Steps that may fail

When a sequence of steps succeeds. Readers, decoders and encoders are all sequences of steps,
and their lemmas take them apart with the rules given here.
-/

namespace WireForm

variable {ε α β γ δ : Type}

@[simp] theorem ok_bind (a : α) (f : α → Except ε β) : (Except.ok a >>= f) = f a := rfl

@[simp] theorem error_bind (e : ε) (f : α → Except ε β) : (Except.error e >>= f) = .error e := rfl

@[simp] theorem pure_eq_ok (a : α) : (pure a : Except ε α) = .ok a := rfl

/-- A sequence succeeds when each of its steps does. -/
theorem bind_eq_ok_iff {x : Except ε α} {f : α → Except ε β} {b : β} :
    (x >>= f) = .ok b ↔ ∃ a, x = .ok a ∧ f a = .ok b := by
  cases x with
  | error e => simp
  | ok a => simp

/-- What a failure reports. -/
def fault? : Except ε α → Option ε
  | .ok _ => none
  | .error e => some e

theorem fault?_eq_some_iff {x : Except ε α} {e : ε} : fault? x = some e ↔ x = .error e := by
  cases x <;> simp [fault?]

/-- That two outcomes are successes with related results, or one and the same failure. -/
inductive Agree (r : α → β → Prop) : Except ε α → Except ε β → Prop where
  | ok {a : α} {b : β} (h : r a b) : Agree r (.ok a) (.ok b)
  | error (e : ε) : Agree r (.error e) (.error e)

/-- Sequences agree whose steps do. -/
theorem Agree.bind {r : α → β → Prop} {s : γ → δ → Prop} {x : Except ε α} {y : Except ε β}
    {f : α → Except ε γ} {g : β → Except ε δ} (h : Agree r x y)
    (hfg : ∀ a b, r a b → Agree s (f a) (g b)) : Agree s (x >>= f) (y >>= g) := by
  cases h with
  | ok h => exact hfg _ _ h
  | error e => exact .error e

/-- An outcome agrees with itself, whatever result is related to itself. -/
theorem Agree.self {r : α → α → Prop} {x : Except ε α} (h : ∀ a, x = .ok a → r a a) :
    Agree r x x := by
  cases x with
  | ok a => exact .ok (h a rfl)
  | error e => exact .error e

end WireForm
