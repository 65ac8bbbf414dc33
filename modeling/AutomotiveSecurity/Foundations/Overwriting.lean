import AutomotiveSecurity.Foundations.Memory

/-!
# Objects that are written several times

A program that ignores whether its calls succeed goes on with what an object held before.
After any number of writes that may fail, an object holds what the last successful one has
left, or its first content.  Programs that try out a changed text copy it and change the
first byte of the copy.

Main results:

- Theorem {lit}`contents_add`: the writes of a program can be split at any place.
- Theorem {lit}`copyChanged_of_le`: the changed copy, when it stays inside its object.
-/

namespace AutomotiveSecurity.Memory

/-! ## Writes that may fail -/

section Contents

variable {α : Type*}

/-- What an object holds after the first {lit}`count` writes, some of which may fail. -/
def contents (initial : α) (writes : Nat → Option α) : Nat → α
  | 0 => initial
  | count + 1 => (writes count).getD (contents initial writes count)

variable {initial : α} {writes : Nat → Option α}

@[simp]
theorem contents_zero : contents initial writes 0 = initial :=
  rfl

theorem contents_succ (count : Nat) :
    contents initial writes (count + 1) =
      (writes count).getD (contents initial writes count) :=
  rfl

/-- A write that succeeds decides alone. -/
theorem contents_succ_of_some {count : Nat} {x : α} (hwrite : writes count = some x) :
    contents initial writes (count + 1) = x := by
  rw [contents_succ, hwrite, Option.getD_some]

/-- The later writes start from what the earlier ones have left. -/
theorem contents_add (m count : Nat) :
    contents initial writes (m + count) =
      contents (contents initial writes m) (fun i => writes (m + i)) count := by
  induction count with
  | zero => rfl
  | succ count ih => rw [← Nat.add_assoc, contents_succ, contents_succ, ih]

/-- The first of several writes, numbered from {lit}`m` on, comes before the others. -/
theorem contents_from (initial : α) (writes : Nat → Option α) (m count : Nat) :
    contents initial (fun i => writes (m + i)) (count + 1) =
      contents ((writes m).getD initial) (fun i => writes (m + 1 + i)) count := by
  rw [Nat.add_comm count 1, contents_add]
  simp only [contents_succ, contents_zero, Nat.add_zero, Nat.add_assoc]

end Contents

/-! ## Changed copies -/

/-- {lit}`memcpy(dst, src, len)` followed by {lit}`dst[0] ^= mask`. -/
def copyChanged {n : Nat} (dst : Buffer n) (src : List UInt8) (len : Nat) (mask : UInt8) :
    Except Fault (Buffer n) := do
  let dst ← memcpy dst 0 src len
  let first ← dst.get 0
  dst.store 0 [first ^^^ mask]

/-- Inside both objects the copy is the source with its first byte changed. -/
theorem copyChanged_of_le {n : Nat} (dst : Buffer n) {src : List UInt8} {len : Nat}
    (mask : UInt8) (hpos : 0 < n) (hsrc : len ≤ src.length) (hdst : len ≤ n) :
    ∃ changed : Buffer n,
      copyChanged dst src len mask = .ok changed ∧
        changed.bytes.take len = (src.take len).modify 0 (· ^^^ mask) := by
  rcases memcpy_of_le dst 0 src len hsrc (by omega) with ⟨copy, hcopy, hbytes⟩
  rcases copy.get_of_lt hpos with ⟨first, hget, hsplit⟩
  have hroom : 0 + [first ^^^ mask].length ≤ n := by
    rw [List.length_singleton]
    omega
  refine ⟨copy.overwrite 0 [first ^^^ mask] hroom, ?_, ?_⟩
  · simp only [copyChanged, hcopy, bind, Except.bind, hget]
    exact store_of_le copy hroom
  · have hchanged : (copy.overwrite 0 [first ^^^ mask] hroom).bytes =
        copy.bytes.modify 0 (· ^^^ mask) := by
      rw [List.drop_zero] at hsplit
      rw [hsplit]
      rfl
    have hkept : copy.bytes.take len = src.take len := by
      rw [hbytes, List.take_zero, List.nil_append]
      apply List.take_left'
      rw [List.length_take]
      omega
    rw [hchanged, List.take_modify, hkept]

end AutomotiveSecurity.Memory
