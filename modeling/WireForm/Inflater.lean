import WireForm.Error
import WireForm.Zstd.Delivery

/-!
# Inflaters

An inflater is known by what its reads hand out. It is read piece by piece, and the size of what
was read so far is compared with a limit before a piece is kept.
-/

namespace WireForm

/-- What inflates compressed bytes. It may refuse to begin; if it does not, its reads hand out
    pieces that fit a read, up to the end of the stream or to a defect. -/
structure Inflater where
  start : List UInt8 → Except Zstd.Defect Zstd.Delivery
  fits : ∀ {raw delivery}, start raw = .ok delivery →
    ∀ piece ∈ delivery.pieces, Zstd.FitsRead piece

namespace Inflater

/-- The inflater of zstd streams. It never refuses to begin. -/
def zstd : Inflater where
  start raw := .ok (Zstd.deliver raw)
  fits h piece hp := by
    obtain rfl := Except.ok.inj h
    exact Zstd.fitsRead_of_mem_deliver hp

/-- Reads on under a limit after so many bytes. A read that hands out nothing is the end. -/
def readOn (limit : Nat) (defect : Option Zstd.Defect) (size : Nat) :
    List (List UInt8) → Except Error (List UInt8)
  | [] =>
    match defect with
    | none => .ok []
    | some defect => .error (.inflate defect)
  | piece :: pieces =>
    if piece = [] then .ok []
    else if limit < size + piece.length then .error (.inflatedTooLarge limit)
    else do return piece ++ (← readOn limit defect (size + piece.length) pieces)

/-- Inflates a stream under a limit. -/
def inflate (inflater : Inflater) (limit : Nat) (raw : List UInt8) : Except Error (List UInt8) :=
  match inflater.start raw with
  | .error defect => .error (.inflate defect)
  | .ok delivery => readOn limit delivery.defect 0 delivery.pieces

/-- The reads after so many bytes come to what all of them hand out together, for the total never
    exceeds the limit before it is seen to. -/
theorem readOn_eq_ite {limit size : Nat} {defect : Option Zstd.Defect}
    {pieces : List (List UInt8)} (hp : ∀ piece ∈ pieces, Zstd.FitsRead piece)
    (hs : size ≤ limit) :
    readOn limit defect size pieces =
      if limit < size + pieces.flatten.length then .error (.inflatedTooLarge limit)
      else
        match defect with
        | none => .ok pieces.flatten
        | some defect => .error (.inflate defect) := by
  -- The invariant is that what was read is within the limit.
  induction pieces generalizing size with
  | nil =>
    rw [List.flatten_nil, if_neg (by simpa using hs)]
    rfl
  | cons piece pieces ih =>
    obtain ⟨hpiece, hrest⟩ := List.forall_mem_cons.mp hp
    rw [readOn, if_neg hpiece.ne_nil, List.flatten_cons, List.length_append, ← Nat.add_assoc]
    by_cases hover : limit < size + piece.length
    · -- The total only grows, so it exceeds the limit as well.
      have htotal : limit < size + piece.length + pieces.flatten.length := by omega
      rw [if_pos hover, if_pos htotal]
    · rw [if_neg hover, ih hrest (Nat.not_lt.mp hover)]
      split
      · rfl
      · cases defect <;> rfl

/-- Inflating is reading the delivery through: its size is compared with the limit, and then its
    end is looked at. -/
theorem inflate_of_start {inflater : Inflater} {raw : List UInt8} {delivery : Zstd.Delivery}
    (h : inflater.start raw = .ok delivery) (limit : Nat) :
    inflater.inflate limit raw =
      if limit < delivery.pieces.flatten.length then .error (.inflatedTooLarge limit)
      else
        match delivery.defect with
        | none => .ok delivery.pieces.flatten
        | some defect => .error (.inflate defect) := by
  rw [inflate, h]
  dsimp only
  rw [readOn_eq_ite (inflater.fits h) (Nat.zero_le limit), Nat.zero_add]

/-- What is inflated keeps to the limit. -/
theorem length_le_of_inflate {inflater : Inflater} {limit : Nat} {raw text : List UInt8}
    (h : inflater.inflate limit raw = .ok text) : text.length ≤ limit := by
  cases hs : inflater.start raw with
  | error defect => simp [inflate, hs] at h
  | ok delivery =>
    rw [inflate_of_start hs] at h
    split at h
    · cases h
    next hlimit =>
    cases hd : delivery.defect with
    | some defect => simp [hd] at h
    | none =>
      simp only [hd, Except.ok.injEq] at h
      rw [← h]
      exact Nat.not_lt.mp hlimit

end Inflater

end WireForm
