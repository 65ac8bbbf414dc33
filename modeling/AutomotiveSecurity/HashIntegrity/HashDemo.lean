import AutomotiveSecurity.Foundations.CString
import AutomotiveSecurity.OpenSSL.Digest

/-!
# The demonstration of {lit}`hash_demo.c`

{lit}`main` hashes several texts into one array and looks at each result, then hashes one more
text several times into the same array without looking, to show that the hash is always the
same.

Main results:

- Theorem {lit}`repeatLoop_eq`: a repetition that fails shows what the array held before.
- Theorem {lit}`hash_demo_lines`: the lines that {lit}`main` prints, for every pattern of failing
  calls, and when the repetitions agree.
-/

namespace AutomotiveSecurity.HashDemo

open Memory OpenSSL

variable {σ : Type} (hash256 : IncrementalHash σ (Buffer 32))

/-! ## The hash function -/

/-- {lit}`calculate_sha256`: a call that fails ends it, and nothing is written. -/
def calculateSha256 (calls : DigestCalls) (data : List UInt8) (len : Nat) (hash : Buffer 32) :
    Except Fault (Int32 × Buffer 32) := do
  let some ctx := mdCtxNew calls.ctxNew | return (-1, hash)
  let some ctx := digestInit calls.init hash256 ctx | return (-1, hash)
  let some ctx ← digestUpdate (calls.update 0) hash256 ctx data len | return (-1, hash)
  let some hash := digestFinal calls.final hash256 ctx | return (-1, hash)
  return (0, hash)

/-- No call of a computation fails. -/
def works (calls : DigestCalls) : Bool :=
  calls.ctxNew && calls.init && calls.update 0 && calls.final

/-- The hash of the text if no call fails, and nothing otherwise. -/
theorem calculateSha256_eq (calls : DigestCalls) {data : List UInt8} {len : Nat}
    (hash : Buffer 32) (hlen : len ≤ data.length) :
    calculateSha256 hash256 calls data len hash =
      .ok (if works calls then (0, hash256.digest (data.take len)) else (-1, hash)) := by
  rcases calls with ⟨ctxNew, init, update, final⟩
  cases ctxNew with
  | false => rfl
  | true =>
      cases init with
      | false => rfl
      | true =>
          simp only [calculateSha256, mdCtxNew, digestInit, if_true, bind, Except.bind,
            digestUpdate_of_le _ hash256 hash256.init hlen]
          by_cases hupdate : update 0 = true
          · cases final <;>
              simp [works, hupdate, digestFinal, IncrementalHash.digest, pure, Except.pure]
          · cases final <;> simp [works, hupdate, pure, Except.pure]

/-! ## The program -/

/-- A text to hash, and which calls fail then. -/
structure HashTest where
  calls : DigestCalls
  text : CString

/-- The call of {lit}`calculate_sha256` for a C string. -/
def hashOfString (calls : DigestCalls) (text : CString) (hash : Buffer 32) :
    Except Fault (Int32 × Buffer 32) :=
  calculateSha256 hash256 calls (text.chars ++ [0]) text.chars.length hash

/-- The loop over the texts: the hash in each line, or the report of a failure. -/
def testLoop : List HashTest → Buffer 32 → Except Fault (List (Option (Buffer 32)) × Buffer 32)
  | [], hash => return ([], hash)
  | test :: tests, hash => do
      let (result, hash) ← hashOfString hash256 test.calls test.text hash
      let line := if result = 0 then some hash else none
      let (lines, hash) ← testLoop tests hash
      return (line :: lines, hash)

/-- The loop over the repetitions: the hash in each line. -/
def repeatLoop (sameInput : CString) : List DigestCalls → Buffer 32 →
    Except Fault (List (Buffer 32))
  | [], _ => return []
  | calls :: rest, hash => do
      let (_, hash) ← hashOfString hash256 calls sameInput hash
      let lines ← repeatLoop sameInput rest hash
      return hash :: lines

/-- {lit}`main` of {lit}`hash_demo.c`, for any texts and any number of repetitions. -/
def hashDemoMain (tests : List HashTest) (sameInput : CString) (repeats : List DigestCalls)
    (hash : Buffer 32) : Except Fault (List (Option (Buffer 32)) × List (Buffer 32)) := do
  let (lines, hash) ← testLoop hash256 tests hash
  let shown ← repeatLoop hash256 sameInput repeats hash
  return (lines, shown)

/-! ## Its loops -/

theorem hashOfString_eq (calls : DigestCalls) (text : CString) (hash : Buffer 32) :
    hashOfString hash256 calls text hash =
      .ok (if works calls then (0, hash256.digest text.chars) else (-1, hash)) := by
  rw [hashOfString, calculateSha256_eq hash256 calls hash (by simp), List.take_left]

/-- The line of a text. -/
def lineOf (test : HashTest) : Option (Buffer 32) :=
  if works test.calls then some (hash256.digest test.text.chars) else none

/-- What the array holds after the texts: the last hash that was computed. -/
def lastHash (tests : List HashTest) (hash : Buffer 32) : Buffer 32 :=
  ((tests.filterMap (lineOf hash256)).getLast?).getD hash

theorem lastHash_cons (test : HashTest) (tests : List HashTest) (hash : Buffer 32) :
    lastHash hash256 (test :: tests) hash =
      lastHash hash256 tests ((lineOf hash256 test).getD hash) := by
  unfold lastHash
  cases hline : lineOf hash256 test with
  | none => rw [List.filterMap_cons_none hline, Option.getD_none]
  | some digest =>
      rw [List.filterMap_cons_some hline, List.getLast?_cons, Option.getD_some, Option.getD_some]

/-- Every text has its own line. -/
theorem testLoop_eq (tests : List HashTest) (hash : Buffer 32) :
    testLoop hash256 tests hash =
      .ok (tests.map (lineOf hash256), lastHash hash256 tests hash) := by
  induction tests generalizing hash with
  | nil => rfl
  | cons test tests ih =>
      rw [testLoop, hashOfString_eq, lastHash_cons, List.map_cons]
      cases hworks : works test.calls with
      | false =>
          have hline : lineOf hash256 test = none := by simp [lineOf, hworks]
          simp only [Bool.false_eq_true, if_false, bind, Except.bind, ih, hline]
          rfl
      | true =>
          have hline : lineOf hash256 test = some (hash256.digest test.text.chars) := by
            simp [lineOf, hworks]
          simp only [if_true, bind, Except.bind, ih, hline]
          rfl

/-- The number of repetitions before the first one that succeeds. -/
def failedFirst (repeats : List DigestCalls) : Nat :=
  (repeats.takeWhile fun calls => !works calls).length

theorem failedFirst_le (repeats : List DigestCalls) : failedFirst repeats ≤ repeats.length :=
  (List.takeWhile_prefix _).length_le

/-- Until a repetition succeeds the lines show what the array held before, and from then on
the hash. -/
theorem repeatLoop_eq (sameInput : CString) (repeats : List DigestCalls) (hash : Buffer 32) :
    repeatLoop hash256 sameInput repeats hash =
      .ok (List.replicate (failedFirst repeats) hash ++
        List.replicate (repeats.length - failedFirst repeats)
          (hash256.digest sameInput.chars)) := by
  induction repeats generalizing hash with
  | nil => rfl
  | cons calls rest ih =>
      rw [repeatLoop, hashOfString_eq]
      cases hworks : works calls with
      | false =>
          have hfailed : failedFirst (calls :: rest) = failedFirst rest + 1 := by
            simp [failedFirst, hworks]
          rw [hfailed, List.length_cons, Nat.add_sub_add_right, List.replicate_succ]
          simp only [Bool.false_eq_true, if_false, bind, Except.bind, ih]
          rfl
      | true =>
          have hfailed : failedFirst (calls :: rest) = 0 := by
            simp [failedFirst, hworks]
          have hrest : List.replicate (failedFirst rest) (hash256.digest sameInput.chars) ++
              List.replicate (rest.length - failedFirst rest) (hash256.digest sameInput.chars) =
                List.replicate rest.length (hash256.digest sameInput.chars) := by
            rw [← List.replicate_add, Nat.add_sub_cancel' (failedFirst_le rest)]
          rw [hfailed, List.length_cons, List.replicate_zero, List.nil_append, Nat.sub_zero,
            List.replicate_succ]
          simp only [if_true, bind, Except.bind, ih, hrest]
          rfl

/-- Two runs of one value each hold a single value exactly if one of them is empty or the
values are the same. -/
theorem single_value_iff {α : Type*} (i j : Nat) (x y : α) :
    (∀ a ∈ List.replicate i x ++ List.replicate j y,
        ∀ b ∈ List.replicate i x ++ List.replicate j y, a = b) ↔
      i = 0 ∨ j = 0 ∨ x = y := by
  constructor
  · intro hsingle
    by_contra hdifferent
    simp only [not_or] at hdifferent
    rcases hdifferent with ⟨hi, hj, hxy⟩
    refine hxy (hsingle x ?_ y ?_)
    · exact List.mem_append_left _ (List.mem_replicate.mpr ⟨hi, rfl⟩)
    · exact List.mem_append_right _ (List.mem_replicate.mpr ⟨hj, rfl⟩)
  · rintro (rfl | rfl | rfl) a ha b hb
    · rw [List.replicate_zero, List.nil_append] at ha hb
      exact (List.eq_of_mem_replicate ha).trans (List.eq_of_mem_replicate hb).symm
    · rw [List.replicate_zero, List.append_nil] at ha hb
      exact (List.eq_of_mem_replicate ha).trans (List.eq_of_mem_replicate hb).symm
    · rw [← List.replicate_add] at ha hb
      exact (List.eq_of_mem_replicate ha).trans (List.eq_of_mem_replicate hb).symm

/-- For every hash function, all texts, any number of repetitions, every pattern of failing calls
and every content of the stack: each text has the line of its own computation.  The lines of
the repetitions show the last hash that was computed for another text, or the old content of
the array, until a repetition succeeds, and the hash of their text from then on; so they are
all the same exactly if the first repetition succeeds, or none does, or that last hash happens
to be the same. -/
theorem hash_demo_lines (tests : List HashTest) (sameInput : CString)
    (repeats : List DigestCalls) (hash : Buffer 32) :
    ∃ shown, hashDemoMain hash256 tests sameInput repeats hash =
        .ok (tests.map (lineOf hash256), shown) ∧
      shown = List.replicate (failedFirst repeats) (lastHash hash256 tests hash) ++
        List.replicate (repeats.length - failedFirst repeats)
          (hash256.digest sameInput.chars) ∧
      ((∀ a ∈ shown, ∀ b ∈ shown, a = b) ↔
        failedFirst repeats = 0 ∨ failedFirst repeats = repeats.length ∨
          lastHash hash256 tests hash = hash256.digest sameInput.chars) := by
  refine ⟨_, ?_, rfl, ?_⟩
  · simp only [hashDemoMain, testLoop_eq, repeatLoop_eq, bind, Except.bind]
    rfl
  · have hle := failedFirst_le repeats
    have hnone : repeats.length - failedFirst repeats = 0 ↔
        failedFirst repeats = repeats.length := by
      omega
    rw [single_value_iff, hnone]

end AutomotiveSecurity.HashDemo
