import AutomotiveSecurity.HashIntegrity.FileHash
import AutomotiveSecurity.HashIntegrity.HexDigest

/-!
# The two modes of {lit}`file_integrity`

Without an option the program prints the digest of a file; with {lit}`-c` it compares the
digest with its argument.  Between complete reads the two agree: what one mode prints the
other accepts for every file with the same digest.

Main results:

- Theorem {lit}`main_hash`: what the first mode prints.
- Theorem {lit}`main_check`: which arguments the second mode accepts.
- Theorem {lit}`check_accepts_printed`: for which files the second mode accepts what the first
  one printed.

Current gaps:

- Of the output only the digest is modelled.
-/

namespace AutomotiveSecurity.FileIntegrity

open Hex Memory

variable {σ : Type}

/-- A file as the program meets it: its content, how its reads go and which calls fail. -/
structure OpenedFile where
  content : List UInt8
  reads : FileReads content
  calls : FileHashCalls

/-- The option {lit}`-c`. -/
def checkOption : List UInt8 := [0x2D, 0x63]

/-- The digest of a file as text, if it can be computed. -/
def fileHex (sha256 : IncrementalHash σ (Buffer 32)) (file : OpenedFile)
    (buffer : Buffer bufferSize) (hash : Buffer 32) (hexHash : Buffer 65) :
    Except Fault (Option (Buffer 65)) := do
  let (result, hash) ← calculateFileHash sha256 file.calls file.reads buffer hash
  if result ≠ 0 then return none
  let hexHash ← hashToHex hash 32 hexHash
  return some hexHash

/-- {lit}`main`: the exit status and the digest printed.  The uninitialised locals are part of
the call. -/
def fileIntegrityMain (sha256 : IncrementalHash σ (Buffer 32)) (argv : List CString)
    (openFile : CString → OpenedFile) (buffer : Buffer bufferSize) (hash : Buffer 32)
    (hexHash : Buffer 65) : Except Fault (Int32 × Option (List UInt8)) :=
  match argv with
  | _ :: arg :: args =>
      if arg.chars = checkOption then
        match args with
        | [filepath, expectedHash] => do
            let some hexHash ← fileHex sha256 (openFile filepath) buffer hash hexHash
              | return (1, none)
            let shown ← printfString (-1) hexHash.bytes
            let difference ← strcasecmp hexHash.bytes (expectedHash.chars ++ [0])
            return (if difference = 0 then 0 else 1, some shown)
        | _ => return (1, none)
      else do
        let some hexHash ← fileHex sha256 (openFile arg) buffer hash hexHash
          | return (1, none)
        let shown ← printfString (-1) hexHash.bytes
        return (0, some shown)
  | _ => return (1, none)

section Results

variable (sha256 : IncrementalHash σ (Buffer 32)) (openFile : CString → OpenedFile)
  (buffer : Buffer bufferSize) (hash : Buffer 32) (hexHash : Buffer 65)

/-- The text is that of the digest of what has been read. -/
theorem fileHex_eq (file : OpenedFile) :
    ∃ written : Buffer 65,
      written.bytes = lowerHex (sha256.digest file.reads.pieces.flatten).bytes ++ [0] ∧
        fileHex sha256 file buffer hash hexHash =
          .ok (if Accepted file.calls file.reads then some written else none) := by
  rcases hashToHex_writes (sha256.digest file.reads.pieces.flatten) hexHash le_rfl (by decide) with
    ⟨written, hrun, hwritten⟩
  rw [List.take_of_length_le (Buffer.size_eq _).le,
    List.drop_eq_nil_of_le hexHash.size_eq.le] at hwritten
  refine ⟨written, hwritten, ?_⟩
  rw [fileHex, calculateFileHash_eq]
  by_cases haccepted : Accepted file.calls file.reads
  · simp only [if_pos haccepted, bind, Except.bind, ne_eq, not_true_eq_false, if_false, hrun]
    rfl
  · simp only [if_neg haccepted, bind, Except.bind]
    rfl

/-- A text is printed up to its NUL. -/
theorem printfString_lowerHex (bytes : List UInt8) :
    printfString (-1) (lowerHex bytes ++ [0]) = .ok (lowerHex bytes) := by
  have hdigits : ∀ c ∈ lowerHex bytes, decide (c ≠ 0) = true := by
    intro c hc
    rw [decide_eq_true_iff]
    rintro rfl
    exact zero_not_mem_lowerHex bytes hc
  have hshown : (lowerHex bytes ++ [0]).takeWhile (· ≠ 0) = lowerHex bytes := by
    rw [List.takeWhile_append_of_pos hdigits]
    simp
  rw [printfString, if_neg fun h => absurd h.1 (by decide), if_pos (by simp), hshown]

/-- Without the option the program prints the digest of what it has read, unless a call
fails. -/
theorem main_hash (program path : CString) (more : List CString)
    (hpath : path.chars ≠ checkOption) :
    fileIntegrityMain sha256 (program :: path :: more) openFile buffer hash hexHash =
      .ok (if Accepted (openFile path).calls (openFile path).reads then
          (0, some (lowerHex (sha256.digest (openFile path).reads.pieces.flatten).bytes))
        else (1, none)) := by
  rcases fileHex_eq sha256 buffer hash hexHash (openFile path) with ⟨written, hwritten, hrun⟩
  simp only [fileIntegrityMain, if_neg hpath, hrun, bind, Except.bind]
  by_cases haccepted : Accepted (openFile path).calls (openFile path).reads
  · simp only [if_pos haccepted, hwritten, printfString_lowerHex]
    rfl
  · simp only [if_neg haccepted]
    rfl

/-- With the option the program exits with 0 exactly if no call fails and the argument
reads as the digest of what it has read. -/
theorem main_check (program option path expected : CString)
    (hoption : option.chars = checkOption) :
    ∃ status shown,
      fileIntegrityMain sha256 [program, option, path, expected] openFile buffer hash hexHash =
        .ok (status, shown) ∧
      (status = 0 ↔ Accepted (openFile path).calls (openFile path).reads ∧
        decodeHex expected.chars =
          some (sha256.digest (openFile path).reads.pieces.flatten).bytes) := by
  rcases fileHex_eq sha256 buffer hash hexHash (openFile path) with ⟨written, hwritten, hrun⟩
  simp only [fileIntegrityMain, if_pos hoption, hrun, bind, Except.bind]
  by_cases haccepted : Accepted (openFile path).calls (openFile path).reads
  · rcases strcasecmp_lowerHex (sha256.digest (openFile path).reads.pieces.flatten).bytes expected
        [] [] with
      ⟨d, hcompare, hzero⟩
    simp only [if_pos haccepted, hwritten, printfString_lowerHex, hcompare]
    refine ⟨_, _, rfl, ?_⟩
    rw [← hzero, and_iff_right haccepted]
    by_cases hd : d = 0
    · simp [hd]
    · simp [hd]
  · simp only [if_neg haccepted]
    exact ⟨1, none, rfl, iff_of_false (by decide) fun h => haccepted h.1⟩

end Results

/-- What is printed for one file is accepted for another exactly if their contents have the
same digest, however the reads of the two are split, as long as no read and no other call
fails. -/
theorem check_accepts_printed (sha256 : IncrementalHash σ (Buffer 32))
    (openFile openFile' : CString → OpenedFile) (program option path path' printed : CString)
    (more : List CString) (buffer buffer' : Buffer bufferSize) (hash hash' : Buffer 32)
    (hexHash hexHash' : Buffer 65)
    (hpath : path.chars ≠ checkOption) (hoption : option.chars = checkOption)
    (hnone : (openFile path).reads.NoneFails) (hnone' : (openFile' path').reads.NoneFails)
    (haccepted' : Accepted (openFile' path').calls (openFile' path').reads)
    (hprint : fileIntegrityMain sha256 (program :: path :: more) openFile buffer hash hexHash =
      .ok (0, some printed.chars)) :
    ∃ status shown,
      fileIntegrityMain sha256 [program, option, path', printed] openFile' buffer' hash'
          hexHash' = .ok (status, shown) ∧
        (status = 0 ↔ sha256.digest (openFile path).content =
          sha256.digest (openFile' path').content) := by
  rw [main_hash sha256 openFile buffer hash hexHash program path more hpath] at hprint
  have hprinted : printed.chars = lowerHex (sha256.digest (openFile path).content).bytes := by
    by_cases haccepted : Accepted (openFile path).calls (openFile path).reads
    · rw [if_pos haccepted, hnone.flatten_pieces] at hprint
      have hshown := congrArg Prod.snd (Except.ok.inj hprint)
      exact (Option.some.inj hshown).symm
    · rw [if_neg haccepted] at hprint
      have hshown := congrArg Prod.snd (Except.ok.inj hprint)
      cases hshown
  rcases main_check sha256 openFile' buffer' hash' hexHash' program option path' printed hoption
      with ⟨status, shown, hrun, hzero⟩
  refine ⟨status, shown, hrun, ?_⟩
  rw [hzero, and_iff_right haccepted', hprinted, decodeHex_lowerHex,
    hnone'.flatten_pieces, Option.some.injEq]
  exact ⟨Buffer.ext, congrArg Buffer.bytes⟩

end AutomotiveSecurity.FileIntegrity
