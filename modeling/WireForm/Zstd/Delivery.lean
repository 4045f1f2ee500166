import WireForm.Zstd.Frame

/-!
# Delivery

A stream is read through a buffer of fixed size, and a reader acts on each full or partial
buffer before it asks for the next. `deliver` says what the reads hand out and how they end.
-/

namespace WireForm.Zstd

/-- What the reads of a stream hand out, none of them empty, and why they end early, if they
    do. -/
structure Delivery where
  pieces : List (List UInt8)
  defect : Option Defect
deriving DecidableEq

/-- Cuts bytes into pieces that fill a read each, except the last. -/
def cut (bytes : List UInt8) : List (List UInt8) :=
  if bytes = [] then []
  else bytes.take readSize :: cut (bytes.drop readSize)
  termination_by bytes.length
  decreasing_by
    rename_i h
    have := List.length_pos_iff.mpr h
    simp only [List.length_drop, readSize]
    omega

/-- The pieces of the reads that are over, and what the read under way has gathered, after
    further content. A read is over when there is more content than it can hold; then the rest
    of that content is handed out before more of the stream is inflated. -/
def gather (gathered bytes : List UInt8) : List (List UInt8) × List UInt8 :=
  let all := gathered ++ bytes
  if readSize < all.length then (cut all, []) else ([], all)

/-- The pieces of the reads that are over, and what the read under way has gathered. The end of
    a frame ends a read. -/
def pieces : List UInt8 → List Event → List (List UInt8) × List UInt8
  | gathered, [] => ([], gathered)
  | gathered, .frameEnd :: events =>
    let (later, last) := pieces [] events
    (cut gathered ++ later, last)
  | gathered, .content bytes :: events =>
    let (now, gathered) := gather gathered bytes
    let (later, last) := pieces gathered events
    (now ++ later, last)

/-- What the reads of a stream hand out. A defect discards what its read has gathered, except
    that a stream which is cut off hands it out first. -/
def deliver (bytes : List UInt8) : Delivery :=
  let yield := unfold bytes
  let (first, last) := pieces [] yield.events
  match yield.result with
  | .ok () => ⟨first ++ cut last, none⟩
  | .error .incomplete => ⟨first ++ cut last, some .incomplete⟩
  | .error defect => ⟨first, some defect⟩

/-! ## What a read holds -/

/-- That a piece is not empty and fits a read. -/
def FitsRead (piece : List UInt8) : Prop := 0 < piece.length ∧ piece.length ≤ readSize

theorem FitsRead.ne_nil {piece : List UInt8} (h : FitsRead piece) : piece ≠ [] :=
  List.length_pos_iff.mp h.1

theorem fitsRead_of_mem_cut {bytes piece : List UInt8} (h : piece ∈ cut bytes) :
    FitsRead piece := by
  fun_induction cut bytes with
  | case1 => exact nomatch h
  | case2 bytes hne ih =>
    rcases List.mem_cons.mp h with rfl | h
    · have hpos : 0 < bytes.length := List.length_pos_iff.mpr hne
      rw [FitsRead, List.length_take]
      simp only [readSize]
      omega
    · exact ih h

theorem fitsRead_of_mem_gather {gathered bytes piece : List UInt8}
    (h : piece ∈ (gather gathered bytes).1) : FitsRead piece := by
  unfold gather at h
  dsimp only at h
  split at h
  · exact fitsRead_of_mem_cut h
  · exact nomatch h

/-- The reads that are over before the last one all fit. -/
theorem fitsRead_of_mem_pieces {events : List Event} {gathered piece : List UInt8}
    (h : piece ∈ (pieces gathered events).1) : FitsRead piece := by
  induction events generalizing gathered with
  | nil => exact nomatch h
  | cons event events ih =>
    cases event with
    | frameEnd =>
      rcases List.mem_append.mp h with h | h
      · exact fitsRead_of_mem_cut h
      · exact ih h
    | content bytes =>
      rcases List.mem_append.mp h with h | h
      · exact fitsRead_of_mem_gather h
      · exact ih h

/-- Every read of a stream hands out something, and no more than it can hold. -/
theorem fitsRead_of_mem_deliver {bytes piece : List UInt8} (h : piece ∈ (deliver bytes).pieces) :
    FitsRead piece := by
  unfold deliver at h
  dsimp only at h
  -- What the last read has gathered is handed out unless a defect of the stream discards it.
  split at h
  · rcases List.mem_append.mp h with h | h
    · exact fitsRead_of_mem_pieces h
    · exact fitsRead_of_mem_cut h
  · rcases List.mem_append.mp h with h | h
    · exact fitsRead_of_mem_pieces h
    · exact fitsRead_of_mem_cut h
  · exact fitsRead_of_mem_pieces h

end WireForm.Zstd
