import AutomotiveSecurity.OpenSSL.Digest

/-!
# The file hash of {lit}`file_integrity.c`

{lit}`calculate_file_hash` reads a file in pieces of at most {lit}`BUFFER_SIZE` bytes and feeds
each to a digest.  A read that gives no bytes ends the loop, whether the file has ended
or the read has failed, and after an error that still gives some bytes the loop just goes on;
{lit}`ferror` is not asked.

Main results:

- Theorem {lit}`calculateFileHash_eq`: what the function returns and leaves, for every way
  the reads go and every pattern of failures.
- Theorem {lit}`complete_or_fails_iff`: it hashes the complete file or fails exactly if no
  read fails or another call does.

Current gaps:

- The message that {lit}`perror` prints is not modelled.
-/

namespace AutomotiveSecurity.FileIntegrity

open Memory OpenSSL

variable {σ : Type} {content : List UInt8}

/-! ## Reading a file -/

/-- The size of the buffer that is read into. -/
def bufferSize : Nat := 4096

/-- What makes a read give no bytes. -/
inductive ReadEnd
  | endOfFile
  | readError
deriving DecidableEq, Repr

/-- A call to {lit}`fread` that gives some bytes, all that it has got before an error if it
meets one. -/
structure FileRead where
  piece : List UInt8
  failed : Bool
deriving DecidableEq, Repr

/-- What the reads give up to the first error. -/
def untilError : List FileRead → List UInt8
  | [] => []
  | read :: reads => read.piece ++ if read.failed then [] else untilError reads

/-- One way the reads of a file may go: the calls to {lit}`fread` before the first one that
gives nothing, and why that one does.  From where a read goes on after an error is left open. -/
structure FileReads (content : List UInt8) where
  reads : List FileRead
  ending : ReadEnd
  piece_ne_nil : ∀ read ∈ reads, read.piece ≠ []
  piece_le : ∀ read ∈ reads, read.piece.length ≤ bufferSize
  untilError_isPrefix : untilError reads <+: content
  complete : (∀ read ∈ reads, read.failed = false) → ending = .endOfFile →
    untilError reads = content

namespace FileReads

/-- The pieces that are read. -/
def pieces (file : FileReads content) : List (List UInt8) :=
  file.reads.map FileRead.piece

/-- No read of the file fails. -/
def NoneFails (file : FileReads content) : Prop :=
  (∀ read ∈ file.reads, read.failed = false) ∧ file.ending = .endOfFile

/-- Without an error the pieces are all the reads give. -/
theorem flatten_of_noneFails {reads : List FileRead}
    (hnone : ∀ read ∈ reads, read.failed = false) :
    (reads.map FileRead.piece).flatten = untilError reads := by
  induction reads with
  | nil => rfl
  | cons read reads ih =>
      have hrest := ih fun r hr => hnone r (List.mem_cons_of_mem _ hr)
      rw [List.map_cons, List.flatten_cons, hrest, untilError,
        hnone read List.mem_cons_self, if_neg Bool.false_ne_true]

/-- The whole content then. -/
theorem NoneFails.flatten_pieces {file : FileReads content} (hnone : file.NoneFails) :
    file.pieces.flatten = content :=
  (flatten_of_noneFails hnone.1).trans (file.complete hnone.1 hnone.2)

theorem pieces_le (file : FileReads content) {piece : List UInt8} (hpiece : piece ∈ file.pieces) :
    piece.length ≤ bufferSize := by
  rcases List.mem_map.mp hpiece with ⟨read, hread, rfl⟩
  exact file.piece_le read hread

end FileReads

/-- Whether each call succeeds, the reads apart. -/
structure FileHashCalls extends DigestCalls where
  fopen : Bool

/-- The pattern in which no call fails. -/
def FileHashCalls.success : FileHashCalls where
  toDigestCalls := .success
  fopen := true

/-! ## The function -/

/-- The remaining rounds of the loop: each read overwrites the start of the buffer, and as
many bytes as were read are fed to the digest.  The list is exhausted when
{lit}`fread` gives nothing. -/
def hashLoop (hash : IncrementalHash σ (Buffer 32)) (update : Nat → Bool) :
    Nat → List (List UInt8) → Buffer bufferSize → DigestCtx σ →
      Except Fault (Option (DigestCtx σ))
  | _, [], _, ctx => return some ctx
  | round, piece :: pieces, buffer, ctx => do
      let buffer ← buffer.store 0 piece
      let some ctx ← digestUpdate (update round) hash ctx buffer.bytes piece.length
        | return none
      hashLoop hash update (round + 1) pieces buffer ctx

/-- {lit}`calculate_file_hash`: the return value and {lit}`hash`.  The local buffer is
uninitialised; its content is part of the call.  Why the reads ended is not looked at. -/
def calculateFileHash (sha256 : IncrementalHash σ (Buffer 32)) (calls : FileHashCalls)
    (file : FileReads content) (buffer : Buffer bufferSize) (hash : Buffer 32) :
    Except Fault (Int32 × Buffer 32) := do
  if !calls.fopen then return (-1, hash)
  let some ctx := mdCtxNew calls.ctxNew | return (-1, hash)
  let some ctx := digestInit calls.init sha256 ctx | return (-1, hash)
  let some ctx ← hashLoop sha256 calls.update 0 file.pieces buffer ctx | return (-1, hash)
  let some digest := digestFinal calls.final sha256 ctx | return (-1, hash)
  return (0, digest)

/-! ## What it returns -/

/-- The loop feeds all pieces, unless an update call fails. -/
theorem hashLoop_eq (hash : IncrementalHash σ (Buffer 32)) (update : Nat → Bool)
    (round : Nat) {pieces : List (List UInt8)}
    (hpieces : ∀ piece ∈ pieces, piece.length ≤ bufferSize) (buffer : Buffer bufferSize)
    (s : σ) :
    hashLoop hash update round pieces buffer { state := some s } =
      .ok (if ∀ i < pieces.length, update (round + i) = true then
          some { state := some (pieces.foldl hash.update s) }
        else none) := by
  induction pieces generalizing round buffer s with
  | nil => simp [hashLoop, pure, Except.pure]
  | cons piece pieces ih =>
      have hfits : 0 + piece.length ≤ bufferSize := by
        rw [Nat.zero_add]
        exact hpieces piece List.mem_cons_self
      have hread : (buffer.overwrite 0 piece hfits).bytes.take piece.length = piece :=
        buffer.take_overwrite hfits
      have hcall := digestUpdate_of_le (update round) hash s
        (by rw [Buffer.size_eq]; omega :
          piece.length ≤ (buffer.overwrite 0 piece hfits).bytes.length)
      rw [hread] at hcall
      have hrest := ih (round + 1) (fun p hp => hpieces p (List.mem_cons_of_mem _ hp))
        (buffer.overwrite 0 piece hfits) (hash.update s piece)
      have hcond : (∀ i < (piece :: pieces).length, update (round + i) = true) ↔
          update round = true ∧ ∀ i < pieces.length, update (round + 1 + i) = true := by
        rw [List.length_cons, Nat.forall_lt_succ_left]
        simp only [Nat.add_zero, Nat.add_assoc, Nat.add_comm 1]
      rw [hashLoop, store_of_le buffer hfits]
      cases hupdate : update round with
      | false =>
          rw [if_neg (by rw [hcond, hupdate]; simp)]
          rw [hupdate] at hcall
          simp only [bind, Except.bind, hcall]
          rfl
      | true =>
          rw [hupdate] at hcall
          simp only [bind, Except.bind, hcall, if_true, hrest, List.foldl_cons, hcond, hupdate,
            true_and]

/-- No call fails on its own: neither {lit}`fopen` nor a digest call of the run. -/
def Accepted (calls : FileHashCalls) (file : FileReads content) : Prop :=
  calls.fopen = true ∧ calls.ctxNew = true ∧ calls.init = true ∧
    (∀ i < file.pieces.length, calls.update i = true) ∧ calls.final = true

instance (calls : FileHashCalls) (file : FileReads content) :
    Decidable (Accepted calls file) :=
  inferInstanceAs (Decidable (_ ∧ _ ∧ _ ∧ _ ∧ _))

/-- The function never leaves its buffers.  Unless a call fails it returns 0 with the
digest of what has been read. -/
theorem calculateFileHash_eq (sha256 : IncrementalHash σ (Buffer 32)) (calls : FileHashCalls)
    (file : FileReads content) (buffer : Buffer bufferSize) (hash : Buffer 32) :
    calculateFileHash sha256 calls file buffer hash =
      .ok (if Accepted calls file then (0, sha256.digest file.pieces.flatten)
        else (-1, hash)) := by
  have hloop := hashLoop_eq sha256 calls.update 0 (fun _ => file.pieces_le) buffer sha256.init
  simp only [Nat.zero_add] at hloop
  rw [← sha256.final_foldl_update]
  cases hopen : calls.fopen with
  | false => simp [calculateFileHash, Accepted, hopen, pure, Except.pure]
  | true =>
    cases hnew : calls.ctxNew with
    | false => simp [calculateFileHash, Accepted, mdCtxNew, hopen, hnew, pure, Except.pure]
    | true =>
      cases hinit : calls.init with
      | false =>
          simp [calculateFileHash, Accepted, mdCtxNew, digestInit, hopen, hnew, hinit, pure,
            Except.pure]
      | true =>
        simp only [calculateFileHash, Accepted, mdCtxNew, digestInit, hopen, hnew, hinit,
          Bool.not_true, Bool.false_eq_true, if_false, if_true, hloop, bind, Except.bind]
        by_cases hupdates : ∀ i < file.pieces.length, calls.update i = true
        · rw [if_pos hupdates]
          cases hfinal : calls.final with
          | false => simp [digestFinal, pure, Except.pure]
          | true => simpa [digestFinal, pure, Except.pure] using hupdates
        · rw [if_neg hupdates]
          simp [hupdates, pure, Except.pure]

/-! ## Complete or failed -/

/-- A result of 0 comes with the digest of the complete file, and a failing read makes the
function return -1. -/
def CompleteOrFails (sha256 : IncrementalHash σ (Buffer 32)) (file : FileReads content)
    (run : Except Fault (Int32 × Buffer 32)) : Prop :=
  (∀ written, run = .ok (0, written) → written = sha256.digest content) ∧
    (¬file.NoneFails → ∃ written, run = .ok (-1, written))

/-- For every file content, every way the reads go, every pattern of failures and every
content of the two buffers: {lit}`calculate_file_hash` hashes the complete file or fails
exactly if no read fails or another call does. -/
theorem complete_or_fails_iff (sha256 : IncrementalHash σ (Buffer 32))
    (calls : FileHashCalls) (file : FileReads content) (buffer : Buffer bufferSize)
    (hash : Buffer 32) :
    CompleteOrFails sha256 file (calculateFileHash sha256 calls file buffer hash) ↔
      file.NoneFails ∨ ¬Accepted calls file := by
  rw [calculateFileHash_eq]
  constructor
  · rintro ⟨_, hfailed⟩
    by_contra hother
    rw [not_or, not_not] at hother
    rcases hother with ⟨herror, haccepted⟩
    rcases hfailed herror with ⟨written, hrun⟩
    rw [if_pos haccepted] at hrun
    exact error_ne_zero hrun.symm
  · intro hcondition
    by_cases haccepted : Accepted calls file
    · have hnone : file.NoneFails := hcondition.resolve_right (not_not.mpr haccepted)
      rw [if_pos haccepted]
      refine ⟨?_, fun herror => absurd hnone herror⟩
      rintro written ⟨⟩
      rw [hnone.flatten_pieces]
    · rw [if_neg haccepted]
      refine ⟨?_, fun _ => ⟨hash, rfl⟩⟩
      intro written hrun
      exact absurd hrun error_ne_zero

/-- The content {lit}`abc`. -/
def sampleContent : List UInt8 := [0x61, 0x62, 0x63]

/-- The SHA-256 digest of {lit}`a`. -/
def digestOfFirst : Buffer 32 where
  bytes := [0xCA, 0x97, 0x81, 0x12, 0xCA, 0x1B, 0xBD, 0xCA,
    0xFA, 0xC2, 0x31, 0xB3, 0x9A, 0x23, 0xDC, 0x4D,
    0xA7, 0x86, 0xEF, 0xF8, 0x14, 0x7C, 0x4E, 0x72,
    0xB9, 0x80, 0x77, 0x85, 0xAF, 0xEE, 0x48, 0xBB]
  size_eq := rfl

/-- The SHA-256 digest of {lit}`abc`. -/
def digestOfSample : Buffer 32 where
  bytes := [0xBA, 0x78, 0x16, 0xBF, 0x8F, 0x01, 0xCF, 0xEA,
    0x41, 0x41, 0x40, 0xDE, 0x5D, 0xAE, 0x22, 0x23,
    0xB0, 0x03, 0x61, 0xA3, 0x96, 0x17, 0x7A, 0x9C,
    0xB4, 0x10, 0xFF, 0x61, 0xF2, 0x00, 0x15, 0xAD]
  size_eq := rfl

/-- SHA-256 on the samples; all other digests are left zero. -/
def sampleSha256 : IncrementalHash (List UInt8) (Buffer 32) :=
  collecting fun data =>
    if data = [0x61] then digestOfFirst
    else if data = sampleContent then digestOfSample
    else Buffer.zero 32

/-- The first byte of the sample is read, then a read fails. -/
def interruptedReads : FileReads sampleContent where
  reads := [{ piece := [0x61], failed := false }]
  ending := .readError
  piece_ne_nil := by decide
  piece_le := by decide
  untilError_isPrefix := by decide
  complete := by decide

/-- The digest of the first byte is reported as that of the file. -/
theorem interrupted_file_hashed :
    calculateFileHash sampleSha256 .success interruptedReads (Buffer.zero bufferSize)
        (Buffer.zero 32) = .ok (0, digestOfFirst) ∧
      digestOfFirst ≠ sampleSha256.digest sampleContent := by
  constructor
  · rw [calculateFileHash_eq, if_pos (by decide)]
    rfl
  · decide

end AutomotiveSecurity.FileIntegrity
