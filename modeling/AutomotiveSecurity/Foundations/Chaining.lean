import AutomotiveSecurity.Foundations.BlockMode

/-!
# What a mode of operation shows of a message

Whoever sees ciphertext blocks can compare them with each other and with those of other
messages, and can exchange them before they are decrypted.  This module says what such
comparisons tell about the plaintext blocks, and what such exchanges do to them.

Main results:

- Theorem {lit}`BlockMode.encryptBlocks_decryptBlocks`: every ciphertext is the encryption of
  what it decrypts to.
- Theorem {lit}`take_encryptBlocks_eq_iff`: in every mode, two messages agree as far as their
  ciphertexts do.
- Theorem {lit}`ecb_getElem?_eq_iff`: in ECB mode equal blocks are exactly the equal ones.
- Theorem {lit}`cbc_getElem?_eq_iff`: in CBC mode equality of ciphertext blocks depends on the
  blocks before them.
- Theorem {lit}`cbc_getElem?_eq_iff_iv`: under two IVs no ciphertext block is the same.
- Theorem {lit}`cbc_decrypt_flip`: what a changed ciphertext block does to the decrypted blocks.

Current gaps:

- Nothing is said about how likely two ciphertext blocks are to be equal.
-/

namespace AutomotiveSecurity

open Memory

/-! ## Any mode -/

section AnyMode

variable {σ β : Type*}

/-- The front of a message is processed without the rest. -/
theorem runBlocks_take (step : σ → β → β × σ) (s : σ) (bs : List β) (k : Nat) :
    (runBlocks step s bs).1.take k = (runBlocks step s (bs.take k)).1 := by
  induction bs generalizing s k with
  | nil => simp [runBlocks]
  | cons b bs ih =>
      cases k with
      | zero => rfl
      | succ k => simp [runBlocks, ih]

namespace BlockMode

variable (mode : BlockMode σ β)

/-- From one state, different messages have different ciphertexts. -/
theorem encryptBlocks_inj {s : σ} {xs ys : List β} :
    (mode.encryptBlocks s xs).1 = (mode.encryptBlocks s ys).1 ↔ xs = ys := by
  constructor
  · intro hsame
    have hx := mode.decryptBlocks_encryptBlocks s xs
    rw [hsame, mode.decryptBlocks_encryptBlocks] at hx
    exact (congrArg Prod.fst hx).symm
  · rintro rfl
    rfl

/-- Under one key and IV the ciphertexts of two messages agree in a front exactly if the
messages do. -/
theorem take_encryptBlocks_eq_iff (s : σ) (xs ys : List β) (k : Nat) :
    (mode.encryptBlocks s xs).1.take k = (mode.encryptBlocks s ys).1.take k ↔
      xs.take k = ys.take k := by
  have htake : ∀ bs, (mode.encryptBlocks s bs).1.take k =
      (mode.encryptBlocks s (bs.take k)).1 :=
    fun bs => runBlocks_take mode.encrypt s bs k
  rw [htake, htake, encryptBlocks_inj]

/-- Over finitely many blocks every block is the encryption of its decryption. -/
theorem encrypt_decrypt [Finite β] (s : σ) (c : β) :
    mode.encrypt s (mode.decrypt s c).1 = (c, (mode.decrypt s c).2) := by
  have hinj : Function.Injective fun b => (mode.encrypt s b).1 := by
    intro a b hsame
    have ha := mode.decrypt_encrypt s a
    rw [show (mode.encrypt s a).1 = (mode.encrypt s b).1 from hsame, mode.decrypt_encrypt] at ha
    exact (congrArg Prod.fst ha).symm
  rcases Finite.surjective_of_injective hinj c with ⟨b, rfl⟩
  simp only [mode.decrypt_encrypt]

/-- Over finitely many blocks encryption also inverts decryption. -/
theorem encryptBlocks_decryptBlocks [Finite β] (s : σ) (cs : List β) :
    mode.encryptBlocks s (mode.decryptBlocks s cs).1 = (cs, (mode.decryptBlocks s cs).2) :=
  runBlocks_runBlocks mode.encrypt_decrypt s cs

end BlockMode

end AnyMode

/-! ## Electronic codebook -/

section Codebook

variable {κ β : Type*} (cipher : BlockCipher κ β) (key : κ)

/-- A block cipher maps different blocks to different blocks. -/
theorem BlockCipher.encrypt_inj {a b : β} :
    cipher.encrypt key a = cipher.encrypt key b ↔ a = b := by
  constructor
  · intro hsame
    rw [← cipher.decrypt_encrypt key a, hsame, cipher.decrypt_encrypt]
  · rintro rfl
    rfl

/-- In ECB mode each block is encrypted on its own. -/
theorem ecb_encryptBlocks (bs : List β) :
    ((BlockMode.ecb cipher key).encryptBlocks () bs).1 = bs.map (cipher.encrypt key) := by
  induction bs with
  | nil => rfl
  | cons b bs ih => exact congrArg (cipher.encrypt key b :: ·) ih

/-- Ciphertext blocks are equal exactly where plaintext blocks are. -/
theorem ecb_getElem?_eq_iff (bs : List β) (i j : Nat) :
    ((BlockMode.ecb cipher key).encryptBlocks () bs).1[i]? =
        ((BlockMode.ecb cipher key).encryptBlocks () bs).1[j]? ↔
      bs[i]? = bs[j]? := by
  rw [ecb_encryptBlocks, List.getElem?_map, List.getElem?_map]
  refine ⟨fun hsame => ?_, congrArg _⟩
  exact Option.map_injective (fun _ _ => (cipher.encrypt_inj key).mp) hsame

end Codebook

/-! ## Cipher block chaining -/

section Xor

variable {n : Nat}

/-- There are finitely many objects of a size. -/
instance : Finite (Buffer n) := by
  have hinj : Function.Injective fun b : Buffer n =>
      (fun j => b.bytes.get (Fin.cast b.size_eq.symm j) : Fin n → UInt8) := by
    intro a b hsame
    apply Buffer.ext
    apply List.ext_get (a.size_eq.trans b.size_eq.symm)
    intro j hja hjb
    exact congrFun hsame ⟨j, by rwa [a.size_eq] at hja⟩
  have hbytes : Finite UInt8 :=
    Finite.of_injective UInt8.toFin fun _ _ => UInt8.toFin_inj.mp
  exact Finite.of_injective _ hinj

theorem xorBlock_comm (a b : Buffer n) : xorBlock a b = xorBlock b a := by
  apply Buffer.ext
  exact List.zipWith_comm_of_comm UInt8.xor_comm

theorem xorBlock_assoc (a b c : Buffer n) :
    xorBlock (xorBlock a b) c = xorBlock a (xorBlock b c) := by
  apply Buffer.ext
  show List.zipWith (· ^^^ ·) (List.zipWith (· ^^^ ·) a.bytes b.bytes) c.bytes =
    List.zipWith (· ^^^ ·) a.bytes (List.zipWith (· ^^^ ·) b.bytes c.bytes)
  generalize a.bytes = xs
  generalize b.bytes = ys
  generalize c.bytes = zs
  induction xs generalizing ys zs with
  | nil => rfl
  | cons x xs ih =>
      cases ys with
      | nil => rfl
      | cons y ys =>
          cases zs with
          | nil => rfl
          | cons z zs => simp [ih, UInt8.xor_assoc]

theorem xorBlock_left_inj {a b c : Buffer n} : xorBlock c a = xorBlock c b ↔ a = b := by
  constructor
  · intro hsame
    rw [xorBlock_comm c a, xorBlock_comm c b] at hsame
    rw [← xorBlock_xorBlock a c, hsame, xorBlock_xorBlock]
  · rintro rfl
    rfl

end Xor

section Chaining

variable {κ : Type*} {n : Nat} (cipher : BlockCipher κ (Buffer n)) (key : κ)

/-- Cipher block chaining of byte blocks. -/
def cbcBlocks : BlockMode (Buffer n) (Buffer n) :=
  BlockMode.cbc xorBlock xorBlock_xorBlock cipher key

/-- The block a plaintext block is combined with: the ciphertext block before it, or the
IV. -/
def chainAt (iv : Buffer n) (cs : List (Buffer n)) (i : Nat) : Option (Buffer n) :=
  (iv :: cs)[i]?

/-- In CBC mode each block is combined with what stands before it. -/
theorem cbc_getElem? (iv : Buffer n) (bs : List (Buffer n)) (i : Nat) :
    ((cbcBlocks cipher key).encryptBlocks iv bs).1[i]? =
      bs[i]?.bind fun b =>
        (chainAt iv ((cbcBlocks cipher key).encryptBlocks iv bs).1 i).map fun chain =>
          cipher.encrypt key (xorBlock b chain) := by
  induction bs generalizing iv i with
  | nil => simp [BlockMode.encryptBlocks, runBlocks]
  | cons b bs ih =>
      cases i with
      | zero => simp [BlockMode.encryptBlocks, runBlocks, chainAt, cbcBlocks, BlockMode.cbc]
      | succ i =>
          have hrest := ih (cipher.encrypt key (xorBlock b iv)) i
          simpa [BlockMode.encryptBlocks, runBlocks, chainAt, cbcBlocks, BlockMode.cbc] using hrest

/-- Inside the message there is a block to combine with. -/
theorem chainAt_of_le {iv : Buffer n} {cs : List (Buffer n)} {i : Nat} (hi : i ≤ cs.length) :
    ∃ chain, chainAt iv cs i = some chain := by
  have hlt : i < (iv :: cs).length := Nat.lt_succ_of_le hi
  exact ⟨_, List.getElem?_eq_getElem hlt⟩

/-- Two ciphertext blocks are equal exactly if the combined blocks are. -/
theorem cbc_getElem?_eq_iff {iv : Buffer n} {bs : List (Buffer n)} {i j : Nat}
    {b b' chain chain' : Buffer n} (hi : bs[i]? = some b) (hj : bs[j]? = some b')
    (hchain : chainAt iv ((cbcBlocks cipher key).encryptBlocks iv bs).1 i = some chain)
    (hchain' : chainAt iv ((cbcBlocks cipher key).encryptBlocks iv bs).1 j = some chain') :
    ((cbcBlocks cipher key).encryptBlocks iv bs).1[i]? =
        ((cbcBlocks cipher key).encryptBlocks iv bs).1[j]? ↔
      xorBlock b chain = xorBlock b' chain' := by
  rw [cbc_getElem?, cbc_getElem?, hi, hj, hchain, hchain']
  exact (Option.some_inj).trans (cipher.encrypt_inj key)

/-- The same message under two IVs: a ciphertext block is the same only if the IVs are. -/
theorem cbc_getElem?_eq_iff_iv (iv iv' : Buffer n) {bs : List (Buffer n)} {i : Nat}
    (hi : i < bs.length) :
    ((cbcBlocks cipher key).encryptBlocks iv bs).1[i]? =
        ((cbcBlocks cipher key).encryptBlocks iv' bs).1[i]? ↔
      iv = iv' := by
  induction bs generalizing iv iv' i with
  | nil => simp at hi
  | cons b bs ih =>
      have hfirst : cipher.encrypt key (xorBlock b iv) = cipher.encrypt key (xorBlock b iv') ↔
          iv = iv' :=
        (cipher.encrypt_inj key).trans xorBlock_left_inj
      cases i with
      | zero => exact Option.some_inj.trans hfirst
      | succ i => exact (ih _ _ (Nat.lt_of_succ_lt_succ hi)).trans hfirst

/-! ## Exchanged blocks -/

/-- A decrypted block depends on its own ciphertext block and the one before it. -/
theorem cbc_decrypt_getElem? (iv : Buffer n) (cs : List (Buffer n)) (i : Nat) :
    ((cbcBlocks cipher key).decryptBlocks iv cs).1[i]? =
      cs[i]?.bind fun c =>
        (chainAt iv cs i).map fun chain => xorBlock (cipher.decrypt key c) chain := by
  induction cs generalizing iv i with
  | nil => simp [BlockMode.decryptBlocks, runBlocks]
  | cons c cs ih =>
      cases i with
      | zero => simp [BlockMode.decryptBlocks, runBlocks, chainAt, cbcBlocks, BlockMode.cbc]
      | succ i =>
          have hrest := ih c i
          simpa [BlockMode.decryptBlocks, runBlocks, chainAt, cbcBlocks, BlockMode.cbc] using hrest

/-- Bits flipped in the IV are flipped in the first decrypted block, and nowhere else. -/
theorem cbc_decrypt_flip_iv (iv delta : Buffer n) (cs : List (Buffer n)) :
    ((cbcBlocks cipher key).decryptBlocks (xorBlock iv delta) cs).1[0]? =
        (((cbcBlocks cipher key).decryptBlocks iv cs).1[0]?).map (xorBlock · delta) ∧
      ∀ i ≠ 0, ((cbcBlocks cipher key).decryptBlocks (xorBlock iv delta) cs).1[i]? =
        ((cbcBlocks cipher key).decryptBlocks iv cs).1[i]? := by
  constructor
  · rw [cbc_decrypt_getElem?, cbc_decrypt_getElem?]
    cases cs with
    | nil => rfl
    | cons c cs => simp [chainAt, xorBlock_assoc]
  · intro i hi
    rw [cbc_decrypt_getElem?, cbc_decrypt_getElem?]
    cases i with
    | zero => exact absurd rfl hi
    | succ i => simp [chainAt]

/-- Bits flipped in a ciphertext block are flipped in the decrypted block behind it; its own
decrypted block changes in some way, and all others stay as they are. -/
theorem cbc_decrypt_flip (iv delta : Buffer n) {cs : List (Buffer n)} {i : Nat} {c : Buffer n}
    (hc : cs[i]? = some c) :
    ((cbcBlocks cipher key).decryptBlocks iv (cs.set i (xorBlock c delta))).1[i + 1]? =
        (((cbcBlocks cipher key).decryptBlocks iv cs).1[i + 1]?).map (xorBlock · delta) ∧
      ∀ j, j ≠ i → j ≠ i + 1 →
        ((cbcBlocks cipher key).decryptBlocks iv (cs.set i (xorBlock c delta))).1[j]? =
          ((cbcBlocks cipher key).decryptBlocks iv cs).1[j]? := by
  rcases List.getElem?_eq_some_iff.mp hc with ⟨hi, hget⟩
  constructor
  · rw [cbc_decrypt_getElem?, cbc_decrypt_getElem?]
    cases hnext : cs[i + 1]? with
    | none => simp [hnext]
    | some next => simp [chainAt, hnext, hi, hget, xorBlock_assoc]
  · intro j hj hj'
    have hchain : chainAt iv (cs.set i (xorBlock c delta)) j = chainAt iv cs j := by
      cases j with
      | zero => rfl
      | succ j =>
          have hother : i ≠ j := fun h => hj' (by omega)
          simp [chainAt, List.getElem?_set_ne hother]
    rw [cbc_decrypt_getElem?, cbc_decrypt_getElem?, hchain,
      List.getElem?_set_ne (Ne.symm hj)]

end Chaining

/-! ## Blocks of byte strings -/

section BlockAt

variable {n : Nat}

/-- The bytes of a string that make up its block at a position. -/
def blockAt (n : Nat) (bs : List UInt8) (i : Nat) : List UInt8 :=
  (bs.drop (n * i)).take n

/-- The bytes of a block stand at its position, whatever follows. -/
theorem blockAt_blockBytes (blocks : List (Buffer n)) (rest : List UInt8) {i : Nat}
    {b : Buffer n} (hb : blocks[i]? = some b) :
    blockAt n (blockBytes blocks ++ rest) i = b.bytes := by
  induction blocks generalizing i with
  | nil => simp at hb
  | cons a blocks ih =>
      have hcons : blockBytes (a :: blocks) ++ rest = a.bytes ++ (blockBytes blocks ++ rest) := by
        rw [blockBytes, List.flatMap_cons, List.append_assoc]
        rfl
      cases i with
      | zero =>
          simp only [List.getElem?_cons_zero, Option.some.injEq] at hb
          subst hb
          rw [blockAt, hcons, Nat.mul_zero, List.drop_zero, List.take_left' a.size_eq]
      | succ i =>
          rw [List.getElem?_cons_succ] at hb
          rw [blockAt, hcons, Nat.mul_succ, Nat.add_comm, ← List.drop_drop,
            List.drop_left' a.size_eq]
          exact ih hb

/-- The block of a string at a position inside its complete blocks. -/
theorem getElem?_blocksOf {count : Nat} {bs : List UInt8} (hlen : n * count ≤ bs.length) {i : Nat}
    (hi : i < count) : ∃ b, (blocksOf n count bs)[i]? = some b ∧ b.bytes = blockAt n bs i := by
  have hlt : i < (blocksOf n count bs).length := by rwa [length_blocksOf]
  refine ⟨_, List.getElem?_eq_getElem hlt, ?_⟩
  rw [← blockAt_blockBytes (blocksOf n count bs) (bs.drop (n * count))
    (List.getElem?_eq_getElem hlt), blockBytes_blocksOf hlen, List.take_append_drop]

/-- Equal blocks of a string are equal byte strings. -/
theorem getElem?_blocksOf_eq_iff {count : Nat} {bs : List UInt8} (hlen : n * count ≤ bs.length)
    {i j : Nat} (hi : i < count) (hj : j < count) :
    (blocksOf n count bs)[i]? = (blocksOf n count bs)[j]? ↔
      blockAt n bs i = blockAt n bs j := by
  rcases getElem?_blocksOf hlen hi with ⟨b, hb, hbytes⟩
  rcases getElem?_blocksOf hlen hj with ⟨b', hb', hbytes'⟩
  rw [hb, hb', Option.some_inj, ← hbytes, ← hbytes', Buffer.ext_iff]

/-- The blocks in front are those of the whole string. -/
theorem blocksOf_take {count len : Nat} {bs : List UInt8} (hcount : n * count ≤ len)
    (hlen : len ≤ bs.length) : blocksOf n count (bs.take len) = blocksOf n count bs := by
  induction count generalizing bs len with
  | zero => rfl
  | succ count ih =>
      rw [Nat.mul_succ] at hcount
      have hfirst : Buffer.initialised n (bs.take len) = Buffer.initialised n bs := by
        apply Buffer.ext
        rw [initialised_bytes (by rw [List.length_take]; omega), initialised_bytes (by omega),
          List.take_take, Nat.min_eq_left (by omega)]
      rw [blocksOf, blocksOf, hfirst, List.drop_take,
        ih (by omega) (by rw [List.length_drop]; omega)]

/-- A block is read from the start of a string whose first bytes are those of whole blocks. -/
theorem blockAt_append_right {front rest : List UInt8} {count i : Nat}
    (hfront : front.length = n * count) (hi : count ≤ i) :
    blockAt n (front ++ rest) i = blockAt n rest (i - count) := by
  obtain ⟨k, rfl⟩ : ∃ k, i = count + k := ⟨i - count, by omega⟩
  rw [blockAt, blockAt, Nat.mul_add, ← List.drop_drop, List.drop_left' hfront,
    Nat.add_sub_cancel_left]

/-- The block of a string at a position, read as an object. -/
theorem getElem?_blocksOf_initialised {count i : Nat} (bs : List UInt8) (hi : i < count) :
    (blocksOf n count bs)[i]? = some (Buffer.initialised n (bs.drop (n * i))) := by
  induction count generalizing bs i with
  | zero => omega
  | succ count ih =>
      cases i with
      | zero => rfl
      | succ i =>
          rw [blocksOf, List.getElem?_cons_succ, ih _ (by omega), List.drop_drop, Nat.mul_succ,
            Nat.add_comm n]

/-- Strings of blocks with the same block at a position have the same bytes there. -/
theorem blockAt_congr {front front' : List (Buffer n)} (rest : List UInt8) {j : Nat}
    (hlen : front'.length = front.length) (hsame : front'[j]? = front[j]?) :
    blockAt n (blockBytes front' ++ rest) j = blockAt n (blockBytes front ++ rest) j := by
  cases hblock : front[j]? with
  | some b =>
      rw [blockAt_blockBytes front rest hblock,
        blockAt_blockBytes front' rest (hsame.trans hblock)]
  | none =>
      have hj : front.length ≤ j := List.getElem?_eq_none_iff.mp hblock
      rw [blockAt_append_right (length_blockBytes front) hj,
        blockAt_append_right (length_blockBytes front') (hlen.le.trans hj), hlen]

/-- The bytes at two positions are equal exactly if the blocks are. -/
theorem blockAt_eq_iff {front front' : List (Buffer n)} (rest rest' : List UInt8) {i j : Nat}
    (hi : i < front.length) (hj : j < front'.length) :
    blockAt n (blockBytes front ++ rest) i = blockAt n (blockBytes front' ++ rest') j ↔
      front[i]? = front'[j]? := by
  have hb := List.getElem?_eq_getElem hi
  have hb' := List.getElem?_eq_getElem hj
  rw [blockAt_blockBytes front rest hb, blockAt_blockBytes front' rest' hb', hb, hb',
    Option.some_inj, Buffer.ext_iff]

/-- The first bytes of a string of blocks are those of its first blocks. -/
theorem take_blockBytes (blocks : List (Buffer n)) (rest : List UInt8) {k : Nat}
    (hk : k ≤ blocks.length) :
    (blockBytes blocks ++ rest).take (n * k) = blockBytes (blocks.take k) := by
  have hsplit : blockBytes blocks ++ rest =
      blockBytes (blocks.take k) ++ (blockBytes (blocks.drop k) ++ rest) := by
    rw [← List.append_assoc, ← blockBytes_append, List.take_append_drop]
  rw [hsplit]
  apply List.take_left'
  rw [length_blockBytes, List.length_take_of_le hk]

/-- As many blocks with the same bytes are the same. -/
theorem blockBytes_inj {xs ys : List (Buffer n)} (hlen : xs.length = ys.length) :
    blockBytes xs = blockBytes ys ↔ xs = ys := by
  constructor
  · intro hsame
    have hx := blocksOf_blockBytes xs []
    rwa [hsame, hlen, blocksOf_blockBytes, eq_comm] at hx
  · rintro rfl
    rfl

/-- The string with the bytes of one block exchanged. -/
def setBlock (bs : List UInt8) (i : Nat) (b : Buffer n) : List UInt8 :=
  bs.take (n * i) ++ b.bytes ++ bs.drop (n * (i + 1))

theorem length_setBlock {bs : List UInt8} {i : Nat} (b : Buffer n)
    (hi : n * (i + 1) ≤ bs.length) : (setBlock bs i b).length = bs.length := by
  rw [Nat.mul_succ] at hi
  simp only [setBlock, List.length_append, List.length_take, List.length_drop, b.size_eq,
    Nat.mul_succ]
  omega

/-- The blocks of a string with one block exchanged. -/
theorem blocksOf_setBlock {count i : Nat} {bs : List UInt8} (b : Buffer n)
    (hlen : n * (i + 1) ≤ bs.length) (hi : i < count) :
    blocksOf n count (setBlock bs i b) = (blocksOf n count bs).set i b := by
  induction i generalizing count bs with
  | zero =>
      rcases count with _ | count
      · omega
      · have hfirst : Buffer.initialised n (setBlock bs 0 b) = b := by
          apply Buffer.ext
          rw [initialised_bytes (by rw [length_setBlock b hlen]; omega)]
          simp [setBlock]
        have hrest : (setBlock bs 0 b).drop n = bs.drop n := by
          rw [setBlock, Nat.mul_zero, List.take_zero, List.nil_append, Nat.zero_add, Nat.mul_one,
            List.drop_left' b.size_eq]
        rw [blocksOf, hfirst, hrest]
        rfl
  | succ i ih =>
      rcases count with _ | count
      · omega
      · have hlong : n ≤ bs.length := by
          rw [Nat.mul_succ] at hlen
          omega
        have hcons : setBlock bs (i + 1) b = bs.take n ++ setBlock (bs.drop n) i b := by
          have hstart : n * (i + 1) = n + n * i := by ring
          have hend : n * (i + 1 + 1) = n + n * (i + 1) := by ring
          rw [setBlock, setBlock, hend, hstart, List.take_add, ← List.drop_drop]
          simp
        have htake : (bs.take n).length = n := List.length_take_of_le hlong
        have hfirst : Buffer.initialised n (setBlock bs (i + 1) b) =
            Buffer.initialised n bs := by
          apply Buffer.ext
          rw [initialised_bytes (by rw [hcons, List.length_append, htake]; omega),
            initialised_bytes hlong, hcons, List.take_left' htake]
        have hrest : (setBlock bs (i + 1) b).drop n = setBlock (bs.drop n) i b := by
          rw [hcons, List.drop_left' htake]
        rw [blocksOf, hfirst, hrest, ih (by
          rw [List.length_drop]
          rw [Nat.mul_succ] at hlen
          omega) (by omega)]
        rfl

end BlockAt

end AutomotiveSecurity
