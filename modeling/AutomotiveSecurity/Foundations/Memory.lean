import Mathlib

/-!
# C objects, block copies and stream reads

A C object is a fixed number of bytes.  Reading or writing outside it is
undefined behaviour, which this module makes visible as a {lit}`Fault`: a
computation over objects returns {lit}`Except Fault`, and a faulting run has no
result.

Main results:

- Theorem {lit}`truthful_iff_of_returns_zero`: what a return value that is always 0 tells.
- Theorem {lit}`memcpy_of_le`: a copy inside both objects overwrites exactly its range.
- Theorem {lit}`Buffer.overwrite_overwrite`: adjacent writes join.
- Theorem {lit}`memcmp_eq_zero_iff`: {lit}`memcmp` returns 0 exactly on equal
  prefixes.
- Theorems {lit}`take_prefix_fread` and {lit}`fread_eq_self`: what a read that comes up
  short leaves of an object's old content.
- Theorem {lit}`printfString_of_uint32`: when a {lit}`%.*s` conversion whose precision
  is an unsigned length stays inside its argument.

Current gaps:

- Objects have no addresses, so overlap and aliasing are not modelled.
-/

namespace AutomotiveSecurity.Memory

/-- The first byte a C access touches outside its object. -/
inductive Fault
  | read (index : Nat)
  | write (index : Nat)
deriving DecidableEq, Repr

/-- A computation that returns has returned at its first step. -/
theorem bind_eq_ok {α β : Type} {x : Except Fault α} {f : α → Except Fault β} {b : β} :
    (x >>= f) = .ok b ↔ ∃ a, x = .ok a ∧ f a = .ok b := by
  cases x with
  | error fault => simp [bind, Except.bind]
  | ok a => simp [bind, Except.bind]

/-- A function that has returned -1 has not returned 0. -/
theorem error_ne_zero {α : Type} {x y : α} :
    (.ok (-1, x) : Except Fault (Int32 × α)) ≠ .ok (0, y) := by
  intro hsame
  have hcode : (-1 : Int32) = 0 := congrArg Prod.fst (Except.ok.inj hsame)
  exact absurd hcode (by decide)

/-- A function that returns nothing but 0 reports its failures exactly if it has none. -/
theorem truthful_iff_of_returns_zero {α : Type} {run : Except Fault (Int32 × α)}
    {good : α → Prop} {fails : Prop} (hzero : ∀ {r x}, run = .ok (r, x) → r = 0)
    (hgood : ¬fails → ∃ x, run = .ok (0, x) ∧ good x) :
    ((∀ x, run = .ok (0, x) → good x) ∧ (fails → ∃ r x, run = .ok (r, x) ∧ r ≠ 0)) ↔
      ¬fails := by
  constructor
  · rintro ⟨_, hreport⟩ hfails
    rcases hreport hfails with ⟨r, x, hrun, hnonzero⟩
    exact hnonzero (hzero hrun)
  · intro hworks
    refine ⟨?_, fun hfails => absurd hfails hworks⟩
    intro x hx
    rcases hgood hworks with ⟨y, hrun, hy⟩
    rw [hrun] at hx
    cases hx
    exact hy

/-- A C object of {lit}`n` bytes. -/
@[ext]
structure Buffer (n : Nat) where
  bytes : List UInt8
  size_eq : bytes.length = n
deriving DecidableEq, Repr

attribute [simp] Buffer.size_eq

/-- An object all of whose bytes are zero. -/
def Buffer.zero (n : Nat) : Buffer n where
  bytes := List.replicate n 0
  size_eq := by simp

/-- An array initialised with the given bytes, as far as it holds them, and zeros. -/
def Buffer.initialised (n : Nat) (bs : List UInt8) : Buffer n where
  bytes := (bs ++ List.replicate n 0).take n
  size_eq := by simp

/-- The {lit}`width` bytes of an object from {lit}`offset` on. -/
def Buffer.slice {n : Nat} (b : Buffer n) (offset width : Nat)
    (hfits : offset + width ≤ n) : Buffer width where
  bytes := (b.bytes.drop offset).take width
  size_eq := by
    rw [List.length_take, List.length_drop, b.size_eq]
    omega

/-- Adjacent slices join. -/
theorem Buffer.take_append_slice {n offset width : Nat} (b : Buffer n)
    (hfits : offset + width ≤ n) :
    b.bytes.take offset ++ (b.slice offset width hfits).bytes =
      b.bytes.take (offset + width) :=
  List.take_add.symm

theorem Buffer.length_take {n count : Nat} (b : Buffer n) (hcount : count ≤ n) :
    (b.bytes.take count).length = count :=
  List.length_take_of_le (b.size_eq.symm ▸ hcount)

/-! ## Reads and writes -/

/-- Read the first {lit}`count` bytes of an object. -/
def load (object : List UInt8) (count : Nat) : Except Fault (List UInt8) :=
  if count ≤ object.length then .ok (object.take count)
  else .error (.read object.length)

/-- The object with the given bytes in place of its own from {lit}`offset` on. -/
def Buffer.overwrite {n : Nat} (b : Buffer n) (offset : Nat) (bs : List UInt8)
    (hfits : offset + bs.length ≤ n) : Buffer n where
  bytes := b.bytes.take offset ++ bs ++ b.bytes.drop (offset + bs.length)
  size_eq := by
    simp only [List.length_append, List.length_take, List.length_drop, b.size_eq]
    omega

/-- Write the given bytes into an object from {lit}`offset` on. -/
def Buffer.store {n : Nat} (b : Buffer n) (offset : Nat) (bs : List UInt8) :
    Except Fault (Buffer n) :=
  if hfits : offset + bs.length ≤ n then .ok (b.overwrite offset bs hfits)
  else .error (.write n)

/-- C {lit}`memcpy(dst + offset, src, count)`. -/
def memcpy {n : Nat} (dst : Buffer n) (offset : Nat) (src : List UInt8) (count : Nat) :
    Except Fault (Buffer n) := do
  let bs ← load src count
  dst.store offset bs

/-- Read the byte of an object at an index. -/
def Buffer.get {n : Nat} (b : Buffer n) (index : Nat) : Except Fault UInt8 :=
  if hlt : index < n then .ok (b.bytes.get ⟨index, by rw [b.size_eq]; exact hlt⟩)
  else .error (.read n)

/-- Inside an object the byte at an index is the first of what is left from there on. -/
theorem Buffer.get_of_lt {n : Nat} (b : Buffer n) {index : Nat} (hlt : index < n) :
    ∃ byte, b.get index = .ok byte ∧
      b.bytes.drop index = byte :: b.bytes.drop (index + 1) := by
  refine ⟨_, dif_pos hlt, ?_⟩
  rw [List.get_eq_getElem, ← List.drop_eq_getElem_cons]

theorem load_of_le {object : List UInt8} {count : Nat} (hle : count ≤ object.length) :
    load object count = .ok (object.take count) := by
  rw [load, if_pos hle]

theorem load_eq_ok {object : List UInt8} {count : Nat} {bs : List UInt8} :
    load object count = .ok bs ↔ count ≤ object.length ∧ object.take count = bs := by
  unfold load
  by_cases hle : count ≤ object.length <;> simp [hle]

theorem store_eq_ok {n : Nat} {b b' : Buffer n} {offset : Nat} {bs : List UInt8} :
    b.store offset bs = .ok b' ↔
      ∃ hfits : offset + bs.length ≤ n, b.overwrite offset bs hfits = b' := by
  unfold Buffer.store
  by_cases hfits : offset + bs.length ≤ n <;> simp [hfits]

theorem store_of_le {n : Nat} (b : Buffer n) {offset : Nat} {bs : List UInt8}
    (hfits : offset + bs.length ≤ n) : b.store offset bs = .ok (b.overwrite offset bs hfits) :=
  dif_pos hfits

@[simp]
theorem Buffer.overwrite_nil {n : Nat} (b : Buffer n) {offset : Nat}
    (hfits : offset + ([] : List UInt8).length ≤ n) : b.overwrite offset [] hfits = b := by
  apply Buffer.ext
  simp [Buffer.overwrite]

/-- Up to the end of a write an object holds its old bytes and the written ones. -/
theorem Buffer.take_overwrite_end {n : Nat} (b : Buffer n) {offset : Nat} {bs : List UInt8}
    (hfits : offset + bs.length ≤ n) :
    (b.overwrite offset bs hfits).bytes.take (offset + bs.length) =
      b.bytes.take offset ++ bs := by
  apply List.take_left'
  rw [List.length_append, b.length_take (by omega)]

/-- Behind the end of a write an object is unchanged. -/
theorem Buffer.drop_overwrite_end {n : Nat} (b : Buffer n) {offset : Nat} {bs : List UInt8}
    (hfits : offset + bs.length ≤ n) :
    (b.overwrite offset bs hfits).bytes.drop (offset + bs.length) =
      b.bytes.drop (offset + bs.length) := by
  apply List.drop_left'
  rw [List.length_append, b.length_take (by omega)]

/-- Before the start of a write an object is unchanged. -/
theorem Buffer.take_overwrite_start {n : Nat} (b : Buffer n) {offset : Nat} {bs : List UInt8}
    (hfits : offset + bs.length ≤ n) :
    (b.overwrite offset bs hfits).bytes.take offset = b.bytes.take offset := by
  show (b.bytes.take offset ++ bs ++ b.bytes.drop (offset + bs.length)).take offset = _
  rw [List.append_assoc]
  exact List.take_left' (b.length_take (by omega))

/-- Two adjacent writes are one write of both strings. -/
theorem Buffer.overwrite_overwrite {n : Nat} (b : Buffer n) {offset : Nat}
    (xs ys : List UInt8) (hxs : offset + xs.length ≤ n)
    (hys : offset + xs.length + ys.length ≤ n) (hfits : offset + (xs ++ ys).length ≤ n) :
    (b.overwrite offset xs hxs).overwrite (offset + xs.length) ys hys =
      b.overwrite offset (xs ++ ys) hfits := by
  apply Buffer.ext
  have hdrop : (b.overwrite offset xs hxs).bytes.drop (offset + xs.length + ys.length) =
      b.bytes.drop (offset + xs.length + ys.length) := by
    rw [← List.drop_drop, b.drop_overwrite_end hxs, List.drop_drop]
  show (b.overwrite offset xs hxs).bytes.take (offset + xs.length) ++ ys ++
      (b.overwrite offset xs hxs).bytes.drop (offset + xs.length + ys.length) = _
  rw [b.take_overwrite_end hxs, hdrop]
  simp [Buffer.overwrite, List.append_assoc, Nat.add_assoc]

/-- Bytes written to the start of an object are read back. -/
theorem Buffer.take_overwrite {n : Nat} (b : Buffer n) {bs : List UInt8}
    (hfits : 0 + bs.length ≤ n) : (b.overwrite 0 bs hfits).bytes.take bs.length = bs := by
  simp [Buffer.overwrite]

theorem load_whole {object : List UInt8} {count : Nat} (hcount : object.length = count) :
    load object count = .ok object := by
  rw [load_of_le (Nat.le_of_eq hcount.symm), ← hcount, List.take_length]

/-- A copy that stays inside both objects succeeds and replaces exactly the
addressed range. -/
theorem memcpy_of_le {n : Nat} (dst : Buffer n) (offset : Nat) (src : List UInt8)
    (count : Nat) (hsrc : count ≤ src.length) (hdst : offset + count ≤ n) :
    ∃ b : Buffer n, memcpy dst offset src count = .ok b ∧
      b.bytes = dst.bytes.take offset ++ src.take count ++ dst.bytes.drop (offset + count) := by
  have hcount : (src.take count).length = count := by
    rw [List.length_take]
    omega
  have hfits : offset + (src.take count).length ≤ n := by
    omega
  refine ⟨dst.overwrite offset (src.take count) hfits, ?_, ?_⟩
  · rw [memcpy, load_of_le hsrc]
    exact dif_pos hfits
  · simp only [Buffer.overwrite, hcount]

/-! ## Comparison -/

/-- The sign of the first difference between two byte strings, read as unsigned. -/
def compareBytes : List UInt8 → List UInt8 → Int
  | a :: as, b :: bs => if a = b then compareBytes as bs else if a < b then -1 else 1
  | _, _ => 0

/-- C {lit}`memcmp(left, right, count)`. -/
def memcmp (left right : List UInt8) (count : Nat) : Except Fault Int := do
  let xs ← load left count
  let ys ← load right count
  return compareBytes xs ys

/-- Two strings of one length compare as 0 exactly when they are equal. -/
theorem compareBytes_eq_zero_iff {xs ys : List UInt8} (hlen : xs.length = ys.length) :
    compareBytes xs ys = 0 ↔ xs = ys := by
  induction xs generalizing ys with
  | nil =>
      have hys : ys = [] := List.length_eq_zero_iff.mp hlen.symm
      subst ys
      simp [compareBytes]
  | cons x xs ih =>
      cases ys with
      | nil => simp at hlen
      | cons y ys =>
          have htail : xs.length = ys.length := by simpa using hlen
          by_cases hxy : x = y
          · simp [compareBytes, hxy, ih htail]
          · by_cases hlt : x < y <;> simp [compareBytes, hxy, hlt]

/-- Inside both objects {lit}`memcmp` returns, and it returns 0 exactly when the
compared prefixes agree. -/
theorem memcmp_eq_zero_iff (left right : List UInt8) (count : Nat)
    (hleft : count ≤ left.length) (hright : count ≤ right.length) :
    ∃ r, memcmp left right count = .ok r ∧ (r = 0 ↔ left.take count = right.take count) := by
  refine ⟨compareBytes (left.take count) (right.take count), ?_, ?_⟩
  · rw [memcmp, load_of_le hleft, load_of_le hright]
    rfl
  · apply compareBytes_eq_zero_iff
    rw [List.length_take, List.length_take]
    omega

/-! ## Stream reads -/

/-- C {lit}`fread(object, 1, n, stream)` for an object of {lit}`n` bytes and a stream
without read errors: the object's new content and the rest of the stream.  At the
end of the stream the remaining bytes of the object keep their old content. -/
def fread {n : Nat} (object : Buffer n) (stream : List UInt8) : Buffer n × List UInt8 :=
  ({ bytes := stream.take n ++ object.bytes.drop stream.length
     size_eq := by
       simp only [List.length_append, List.length_take, List.length_drop, object.size_eq]
       omega },
   stream.drop n)

/-- The bytes the stream still had are at the front of the object. -/
theorem take_prefix_fread {n : Nat} (object : Buffer n) (stream : List UInt8) :
    stream.take n <+: (fread object stream).1.bytes :=
  List.prefix_append _ _

/-- Reading bytes that are already there changes nothing. -/
theorem fread_eq_self {n : Nat} {object : Buffer n} {stream : List UInt8}
    (hsame : stream.take n <+: object.bytes) : (fread object stream).1 = object := by
  apply Buffer.ext
  rcases hsame with ⟨old, hold⟩
  show stream.take n ++ object.bytes.drop stream.length = object.bytes
  rcases Nat.le_total n stream.length with hlong | hshort
  · have hall : (stream.take n).length = object.bytes.length := by
      rw [List.length_take, object.size_eq]
      omega
    have hnone : object.bytes.drop stream.length = [] := by
      apply List.drop_eq_nil_of_le
      rw [object.size_eq]
      exact hlong
    rw [hnone, List.append_nil]
    exact (List.IsPrefix.eq_of_length ⟨old, hold⟩ hall)
  · rw [List.take_of_length_le hshort] at hold ⊢
    rw [← hold, List.drop_left]

/-- A stream that starts with the content of some object fills any object with it. -/
theorem fread_of_prefix {n : Nat} (object : Buffer n) {source : Buffer n}
    {stream : List UInt8} (hstart : source.bytes <+: stream) :
    (fread object stream).1 = source := by
  apply Buffer.ext
  have hlen : n ≤ stream.length := by
    have hle := hstart.length_le
    rwa [source.size_eq] at hle
  have hread : stream.take n <+: (fread object stream).1.bytes :=
    take_prefix_fread object stream
  have hsource : source.bytes = stream.take n := by
    have htake := List.prefix_iff_eq_take.mp hstart
    rwa [source.size_eq] at htake
  rw [hsource]
  refine (hread.eq_of_length ?_).symm
  rw [List.length_take, Buffer.size_eq]
  omega

/-! ## Formatted output -/

/-- The bytes C {lit}`printf("%.*s", precision, object)` writes for the conversion: at
most {lit}`precision` bytes, and none from the first NUL on.  A negative precision
counts as none given.  The object is read up to where the output stops. -/
def printfString (precision : Int) (object : List UInt8) : Except Fault (List UInt8) :=
  if 0 ≤ precision ∧ precision ≤ object.length then
    .ok ((object.take precision.toNat).takeWhile (· ≠ 0))
  else if 0 ∈ object then
    .ok (object.takeWhile (· ≠ 0))
  else
    .error (.read object.length)

/-- The length of an object, passed as a 32-bit unsigned precision, works up to
{lit}`2 ^ 31 - 1`; beyond that it arrives negative and only a NUL ends the output. -/
theorem printfString_of_uint32 {object : List UInt8} {size : UInt32}
    (hsize : object.length = size.toNat) :
    (∃ shown, printfString size.toInt32.toInt object = .ok shown) ↔
      object.length < 2 ^ 31 ∨ 0 ∈ object := by
  have hvalue : size.toInt32.toInt =
      if 2 * size.toNat < 2 ^ 32 then (size.toNat : Int) else (size.toNat : Int) - 2 ^ 32 :=
    BitVec.toInt_eq_toNat_cond size.toBitVec
  unfold printfString
  by_cases hsmall : object.length < 2 ^ 31
  · have hprecision : size.toInt32.toInt = object.length := by
      rw [hvalue, if_pos (by omega), hsize]
    refine iff_of_true ?_ (Or.inl hsmall)
    simp [hprecision]
  · have hnegative : ¬0 ≤ size.toInt32.toInt := by
      have hlt : size.toNat < 2 ^ 32 := size.toNat_lt
      rw [hvalue, if_neg (by omega)]
      omega
    by_cases hnul : 0 ∈ object
    · simp [hnegative, hnul]
    · refine iff_of_false ?_ fun h => h.elim hsmall hnul
      simp [hnegative, hnul]

end AutomotiveSecurity.Memory
