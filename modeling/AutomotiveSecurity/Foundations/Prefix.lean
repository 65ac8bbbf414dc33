import Mathlib

/-!
# Front parts of lists

Logs that grow, streams that are read piece by piece and files that are cut short all
compare a list with the front part of another one.  These are the facts about
{lit}`<+:` that such comparisons need beyond the library's.

Main results:

- Theorems {lit}`prefix_concat_next` and {lit}`eq_take_iff`: where a front part ends, and
  how it is extended by the next element.
- Theorems {lit}`take_add_prefix` and {lit}`take_drop_eq_iff`: a list read in two pieces.
- Theorem {lit}`getElem?_takeWhile_iff`: which elements precede the first failure.
- Theorem {lit}`prefix_replicate_append_iff`: which lists start their own right shift.

Current gaps:

- None.
-/

namespace AutomotiveSecurity.Prefix

variable {α : Type*}

/-! ## Extending a front part -/

/-- The front part of a list together with the next element is again a front part. -/
theorem prefix_concat_next {delivered sent : List α} {m : α} (horder : delivered <+: sent)
    (hnext : sent[delivered.length]? = some m) : delivered ++ [m] <+: sent := by
  rcases horder with ⟨rest, rfl⟩
  rw [List.getElem?_append_right (Nat.le_refl _), Nat.sub_self] at hnext
  cases rest with
  | nil => simp at hnext
  | cons m' rest =>
      simp only [List.getElem?_cons_zero, Option.some.injEq] at hnext
      subst hnext
      exact ⟨rest, by simp⟩

/-- An entry of a list with one more element is an old entry or the new one. -/
theorem getElem?_concat_cases {xs : List α} {x y : α} {i : Nat}
    (h : (xs ++ [x])[i]? = some y) : xs[i]? = some y ∨ i = xs.length ∧ y = x := by
  rcases Nat.lt_or_ge i xs.length with hlt | hge
  · rw [List.getElem?_append_left hlt] at h
    exact Or.inl h
  · rw [List.getElem?_append_right hge, List.getElem?_singleton] at h
    split at h
    · rename_i hzero
      exact Or.inr ⟨by omega, (Option.some.inj h).symm⟩
    · contradiction

/-- A front part is the list cut at a position inside it exactly if it ends there. -/
theorem eq_take_iff {xs ys : List α} {i : Nat} (horder : xs <+: ys) (hi : i < ys.length) :
    xs = ys.take i ↔ i = xs.length := by
  constructor
  · intro htake
    rw [htake, List.length_take, Nat.min_eq_left (Nat.le_of_lt hi)]
  · intro hlength
    rw [hlength]
    exact List.prefix_iff_eq_take.mp horder

/-! ## Reading in two pieces -/

/-- If each of two adjacent objects starts with its piece of the stream, both together
start with the joint piece. -/
theorem take_add_prefix {stream xs ys : List α} {n m : Nat} (hlen : xs.length = n)
    (hxs : stream.take n <+: xs) (hys : (stream.drop n).take m <+: ys) :
    stream.take (n + m) <+: xs ++ ys := by
  rw [List.take_add]
  rcases Nat.le_total n stream.length with hlong | hshort
  · have hfull : stream.take n = xs := by
      apply hxs.eq_of_length
      rw [List.length_take, Nat.min_eq_left hlong, hlen]
    rw [hfull]
    exact (List.prefix_append_right_inj xs).mpr hys
  · rw [List.drop_eq_nil_of_le hshort, List.take_nil, List.append_nil]
    exact hxs.trans (List.prefix_append xs ys)

/-- What follows the front part of a stream is at the front of the rest. -/
theorem prefix_drop_of_append {stream xs ys : List α} {n : Nat} (hlen : xs.length = n)
    (hstream : xs ++ ys <+: stream) : ys <+: stream.drop n := by
  have hdrop := hstream.drop n
  rwa [List.drop_append_of_le_length (Nat.le_of_eq hlen.symm),
    List.drop_eq_nil_of_le (Nat.le_of_eq hlen), List.nil_append] at hdrop

/-- Two adjacent parts are read from a string exactly if it starts with them. -/
theorem take_drop_eq_iff {xs ys stream : List α} :
    stream.take xs.length = xs ∧ (stream.drop xs.length).take ys.length = ys ↔
      xs ++ ys <+: stream := by
  rw [List.prefix_iff_eq_take, List.length_append, List.take_add]
  constructor
  · intro h
    rw [h.1, h.2]
  · intro h
    have hlen : (stream.take xs.length).length = xs.length := by
      have htotal := congrArg List.length h
      simp only [List.length_append, List.length_take, List.length_drop] at htotal ⊢
      omega
    have hparts := List.append_inj h hlen.symm
    exact ⟨hparts.1.symm, hparts.2.symm⟩

/-! ## Leading elements -/

/-- An element survives {lit}`takeWhile` exactly if no element up to it fails the test. -/
theorem getElem?_takeWhile_iff {test : α → Bool} {xs : List α} {k : Nat} {x : α}
    (hx : xs[k]? = some x) :
    (xs.takeWhile test)[k]? = some x ↔ ∀ j ≤ k, ∀ y, xs[j]? = some y → test y = true := by
  induction xs generalizing k with
  | nil => simp at hx
  | cons x' xs ih =>
      by_cases htest : test x' = true
      · rw [List.takeWhile_cons_of_pos htest]
        cases k with
        | zero =>
            simp only [List.getElem?_cons_zero] at hx ⊢
            refine iff_of_true hx ?_
            intro j hj y hy
            have hzero : j = 0 := Nat.le_zero.mp hj
            subst hzero
            simp only [List.getElem?_cons_zero, Option.some.injEq] at hy
            exact hy ▸ htest
        | succ k =>
            rw [List.getElem?_cons_succ] at hx ⊢
            rw [ih hx]
            constructor
            · intro hall j hj y hy
              cases j with
              | zero =>
                  simp only [List.getElem?_cons_zero, Option.some.injEq] at hy
                  exact hy ▸ htest
              | succ j => exact hall j (by omega) y hy
            · intro hall j hj y hy
              exact hall (j + 1) (by omega) y hy
      · rw [List.takeWhile_cons_of_neg htest]
        refine iff_of_false (by simp) fun hall => htest ?_
        exact hall 0 (Nat.zero_le k) x' rfl

/-! ## Shifted lists -/

/-- A string is a front part of its own right shift by a constant only if it is
constant. -/
theorem prefix_replicate_append_iff {a : α} {xs : List α} {k : Nat} (hk : 0 < k) :
    xs <+: List.replicate k a ++ xs ↔ ∀ b ∈ xs, b = a := by
  constructor
  · intro hshift
    have hall : ∀ i (hi : i < xs.length), xs[i] = a := by
      intro i
      -- Every position repeats the one `k` places before it, or the filling.
      induction i using Nat.strongRecOn with
      | ind i ih =>
          intro hi
          rw [hshift.getElem hi]
          by_cases hfilling : i < k
          · rw [List.getElem_append_left (by simpa using hfilling), List.getElem_replicate]
          · rw [List.getElem_append_right (by simpa using hfilling)]
            exact ih _ (by simp; omega) _
    intro b hb
    rcases List.getElem_of_mem hb with ⟨i, hi, rfl⟩
    exact hall i hi
  · intro hconst
    rw [List.eq_replicate_of_mem hconst, List.replicate_append_replicate, Nat.add_comm,
      ← List.replicate_append_replicate]
    exact List.prefix_append _ _

end AutomotiveSecurity.Prefix
