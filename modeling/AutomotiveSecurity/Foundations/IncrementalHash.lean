import Mathlib

/-!
# Incremental hashing

A hash that is fed in pieces depends on their concatenation only.  Its state is
arbitrary; the two laws say that nothing is lost between the pieces.

Main results:

- Theorem {lit}`final_foldl_update`: the result after any number of pieces is the digest of
  their concatenation.
-/

namespace AutomotiveSecurity

/-- A hash with an internal state that consumes strings piece by piece. -/
structure IncrementalHash (σ δ : Type*) where
  init : σ
  update : σ → List UInt8 → σ
  final : σ → δ
  update_nil : ∀ s, update s [] = s
  update_append : ∀ s xs ys, update (update s xs) ys = update s (xs ++ ys)

namespace IncrementalHash

variable {σ δ : Type*} (hash : IncrementalHash σ δ)

/-- The digest of a string consumed at once. -/
def digest (data : List UInt8) : δ :=
  hash.final (hash.update hash.init data)

/-- Feeding pieces is feeding their concatenation. -/
theorem foldl_update (s : σ) (pieces : List (List UInt8)) :
    pieces.foldl hash.update s = hash.update s pieces.flatten := by
  induction pieces generalizing s with
  | nil => rw [List.foldl_nil, List.flatten_nil, hash.update_nil]
  | cons piece pieces ih =>
      rw [List.foldl_cons, ih, hash.update_append, List.flatten_cons]

/-- However a string is split, its pieces give its digest. -/
theorem final_foldl_update (pieces : List (List UInt8)) :
    hash.final (pieces.foldl hash.update hash.init) = hash.digest pieces.flatten := by
  rw [foldl_update, digest]

end IncrementalHash

/-- The incremental form of a function on strings: the pieces are collected. -/
def collecting {δ : Type*} (digest : List UInt8 → δ) : IncrementalHash (List UInt8) δ where
  init := []
  update s piece := s ++ piece
  final := digest
  update_nil := List.append_nil
  update_append := List.append_assoc

end AutomotiveSecurity
