import AutomotiveSecurity.Foundations.Memory

/-!
# C strings, their printing and their case-insensitive comparison

A C string is the part of an object in front of its first NUL.  Printing one shows the bytes
up to there; {lit}`strcasecmp` compares two of them letter by letter, with the ASCII letters
folded.

Main results:

- Theorem {lit}`printTerminated_of_lt`: what is printed of an object with a NUL written into it.
- Theorem {lit}`strcasecmp_of_terminated`: on terminated strings the comparison stays inside
  both objects, and it gives 0 exactly on strings that fold to the same string.

Current gaps:

- Only the C locale is modelled, in which no other bytes are letters.
-/

namespace AutomotiveSecurity.Memory

/-- The characters of a C string, none of which is a NUL. -/
structure CString where
  chars : List UInt8
  zero_not_mem : 0 ∉ chars
deriving DecidableEq, Repr

/-- A string in front of a NUL ends at its own first NUL. -/
theorem takeWhile_append_nul (xs ys : List UInt8) :
    (xs ++ 0 :: ys).takeWhile (· ≠ 0) = xs.takeWhile (· ≠ 0) := by
  induction xs with
  | nil => simp
  | cons x xs ih =>
      by_cases hx : x = 0
      · simp [hx]
      · simp only [List.cons_append, List.takeWhile_cons, hx, ne_eq, not_false_eq_true,
          decide_true, ↓reduceIte]
        rw [← ih]

/-- {lit}`object[len] = '\0'` followed by {lit}`printf("%s", object)`: the object, and what is
printed. -/
def printTerminated {n : Nat} (object : Buffer n) (len : Nat) :
    Except Fault (Buffer n × List UInt8) := do
  let object ← object.store len [0]
  let text ← printfString (-1) object.bytes
  return (object, text)

/-- A NUL inside the object ends what is printed. -/
theorem printTerminated_of_lt {n : Nat} (object : Buffer n) {len : Nat} (hlen : len < n) :
    ∃ after : Buffer n,
      printTerminated object len = .ok (after, (object.bytes.take len).takeWhile (· ≠ 0)) ∧
        after.bytes = object.bytes.take len ++ 0 :: object.bytes.drop (len + 1) := by
  have hnul : len + ([0] : List UInt8).length ≤ n := hlen
  have hbytes : (object.overwrite len [0] hnul).bytes =
      object.bytes.take len ++ 0 :: object.bytes.drop (len + 1) := by
    show object.bytes.take len ++ [0] ++ _ = _
    rw [List.append_assoc]
    rfl
  have hprint : printfString (-1) (object.overwrite len [0] hnul).bytes =
      .ok ((object.bytes.take len).takeWhile (· ≠ 0)) := by
    rw [printfString, if_neg (by omega), if_pos (by simp [hbytes]), hbytes,
      takeWhile_append_nul]
  refine ⟨object.overwrite len [0] hnul, ?_, hbytes⟩
  rw [printTerminated, store_of_le object hnul]
  show (printfString (-1) (object.overwrite len [0] hnul).bytes >>= _) = _
  rw [hprint]
  rfl

/-- An ASCII upper-case letter as its lower-case form, every other byte as it is. -/
def foldCase (c : UInt8) : UInt8 :=
  if 0x41 ≤ c ∧ c ≤ 0x5A then c + 0x20 else c

theorem toNat_foldCase (c : UInt8) :
    (foldCase c).toNat = if 0x41 ≤ c.toNat ∧ c.toNat ≤ 0x5A then c.toNat + 0x20 else c.toNat := by
  have hrange : (0x41 ≤ c ∧ c ≤ 0x5A) ↔ 0x41 ≤ c.toNat ∧ c.toNat ≤ 0x5A := by
    rw [UInt8.le_iff_toNat_le, UInt8.le_iff_toNat_le]
    rfl
  unfold foldCase
  by_cases hupper : 0x41 ≤ c ∧ c ≤ 0x5A
  · have hle : c.toNat ≤ 0x5A := (hrange.mp hupper).2
    rw [if_pos hupper, if_pos (hrange.mp hupper), UInt8.toNat_add]
    exact Nat.mod_eq_of_lt (show c.toNat + 0x20 < 2 ^ 8 by omega)
  · rw [if_neg hupper, if_neg fun h => hupper (hrange.mpr h)]

/-- Only a NUL folds to a NUL. -/
theorem foldCase_eq_zero_iff {c : UInt8} : foldCase c = 0 ↔ c = 0 := by
  rw [← UInt8.toNat_inj, ← UInt8.toNat_inj, toNat_foldCase, UInt8.toNat_zero]
  split <;> omega

/-- The difference of two folded bytes, as {lit}`int`. -/
def foldedDifference (a b : UInt8) : Int :=
  (foldCase a).toNat - (foldCase b).toNat

theorem foldedDifference_eq_zero_iff {a b : UInt8} :
    foldedDifference a b = 0 ↔ foldCase a = foldCase b := by
  rw [foldedDifference, ← UInt8.toNat_inj]
  omega

/-- C {lit}`strcasecmp(left, right)` from an index on, which both strings have reached without
a difference. -/
def strcasecmpFrom : Nat → List UInt8 → List UInt8 → Except Fault Int
  | index, a :: as, b :: bs =>
      if foldedDifference a b = 0 ∧ a ≠ 0 then strcasecmpFrom (index + 1) as bs
      else .ok (foldedDifference a b)
  | index, _, _ => .error (.read index)

/-- C {lit}`strcasecmp(left, right)`. -/
def strcasecmp (left right : List UInt8) : Except Fault Int :=
  strcasecmpFrom 0 left right

theorem strcasecmpFrom_of_terminated (index : Nat) {xs ys : List UInt8} (hxs : 0 ∉ xs)
    (hys : 0 ∉ ys) (xrest yrest : List UInt8) :
    ∃ d, strcasecmpFrom index (xs ++ 0 :: xrest) (ys ++ 0 :: yrest) = .ok d ∧
      (d = 0 ↔ xs.map foldCase = ys.map foldCase) := by
  induction xs generalizing index ys with
  | nil =>
      cases ys with
      | nil => exact ⟨0, rfl, by simp⟩
      | cons y ys =>
          have hy : y ≠ 0 := fun hzero => hys (hzero ▸ List.mem_cons_self)
          refine ⟨foldedDifference 0 y, if_neg (by simp), iff_of_false ?_ (by simp)⟩
          rw [foldedDifference_eq_zero_iff]
          intro hsame
          exact hy (foldCase_eq_zero_iff.mp hsame.symm)
  | cons x xs ih =>
      have hx : x ≠ 0 := fun hzero => hxs (hzero ▸ List.mem_cons_self)
      cases ys with
      | nil =>
          have hdiffer : foldedDifference x 0 ≠ 0 := by
            rw [Ne, foldedDifference_eq_zero_iff]
            intro hsame
            exact hx (foldCase_eq_zero_iff.mp hsame)
          exact ⟨foldedDifference x 0, if_neg fun h => hdiffer h.1,
            iff_of_false hdiffer (by simp)⟩
      | cons y ys =>
          by_cases hsame : foldCase x = foldCase y
          · have hzero := foldedDifference_eq_zero_iff.mpr hsame
            rcases ih (index + 1)
                (fun h => hxs (List.mem_cons_of_mem _ h))
                (fun h => hys (List.mem_cons_of_mem _ h)) with
              ⟨d, hrun, hd⟩
            refine ⟨d, (if_pos ⟨hzero, hx⟩).trans hrun, ?_⟩
            rw [hd, List.map_cons, List.map_cons, List.cons.injEq, and_iff_right hsame]
          · have hdiffer : foldedDifference x y ≠ 0 := by
              rwa [Ne, foldedDifference_eq_zero_iff]
            refine ⟨foldedDifference x y, if_neg fun h => hdiffer h.1,
              iff_of_false hdiffer ?_⟩
            rw [List.map_cons, List.map_cons, List.cons.injEq]
            exact fun h => hsame h.1

/-- Whatever follows their NULs, two strings compare as 0 exactly if they agree up to
case. -/
theorem strcasecmp_of_terminated (s t : CString) (srest trest : List UInt8) :
    ∃ d, strcasecmp (s.chars ++ 0 :: srest) (t.chars ++ 0 :: trest) = .ok d ∧
      (d = 0 ↔ s.chars.map foldCase = t.chars.map foldCase) :=
  strcasecmpFrom_of_terminated 0 s.zero_not_mem t.zero_not_mem srest trest

end AutomotiveSecurity.Memory
