import Mathlib.Algebra.Group.Nat.Defs
import SaslExchange.Keying
import SaslExchange.Scram.Hash
import SaslExchange.Text.Utf8

/-!
# Derived keys, byte by byte

What a derived key is by its formula. The chain of a block starts with the keyed digest of the
salt and the block's number as four bytes, and goes on with the keyed digest of the digest before;
the block is the exclusive or of as many digests as there are iterations, and of one for none.

    each turn of the loop takes one more digest of the chain              (isXor_accumulate)
    a number below 2 ^ 32 has one block                    (isBlock_block, IsBlock.unique)
    byte k of a key is byte k % h of block k / h + 1                    (getElem?_deriveKey)
    keys are made of such blocks, and a shorter one starts a longer one  (derives_blockwise)
-/

namespace SaslExchange.KeyDerivation

open Digest

/-! ## Formula -/

/-- The number that bytes stand for, the highest first. -/
def bigEndian (bytes : Bytes) : Nat := bytes.foldl (fun value b => 256 * value + b.toNat) 0

/-- Digest number `j` of the chain of a block, counted from one; `seed` stands before them. -/
def chained (algorithm : Algorithm) (password seed : Bytes) : Nat → Bytes
  | 0 => seed
  | j + 1 => hmac algorithm password (chained algorithm password seed j)

/-- The exclusive or of the bytes at `position` in the first `count` digests of a chain. -/
def xorAt (chain : Nat → Bytes) (count position : Nat) : UInt8 :=
  (List.range' 1 count).foldl (fun total j => total ^^^ (chain j).getD position 0) 0

/-- The bytewise exclusive or of the first `count` digests of a chain. -/
structure IsXor (chain : Nat → Bytes) (width count : Nat) (total : Bytes) : Prop where
  length_eq : total.length = width
  byte_eq : ∀ position < width, total[position]? = some (xorAt chain count position)

/-- `block` is block number `index`, counted from one. The number is told by four bytes, and no
iterations give the same as one. -/
def IsBlock (algorithm : Algorithm) (password salt : Bytes) (iterations index : Nat)
    (block : Bytes) : Prop :=
  ∃ counter : Bytes, counter.length = 4 ∧ bigEndian counter = index ∧
    IsXor (chained algorithm password (salt ++ counter)) algorithm.outputLength
      (max iterations 1) block

/-! ## Counters -/

theorem bigEndian_wordBytes {index : Nat} (h : index < 2 ^ 32) :
    bigEndian (wordBytes .bigEndian (UInt32.ofNat index)) = index := by
  have hword : (UInt32.ofNat index).toNat = index := UInt32.toNat_ofNat_of_lt h
  simp only [bigEndian, wordBytes, ByteOrder.arrange, List.foldl_cons, List.foldl_nil,
    UInt32.toNat_toUInt8, UInt32.toNat_shiftRight, hword]
  simp only [UInt32.reduceToNat, Nat.reduceMod, Nat.shiftRight_eq_div_pow, Nat.reducePow]
  omega

theorem foldl_bigEndian_inj {a b : Bytes} (hlength : a.length = b.length) {v w : Nat}
    (h : a.foldl (fun value b => 256 * value + b.toNat) v =
      b.foldl (fun value b => 256 * value + b.toNat) w) : v = w ∧ a = b := by
  induction a generalizing b v w with
  | nil =>
    obtain rfl := List.length_eq_zero_iff.1 hlength.symm
    exact ⟨h, rfl⟩
  | cons x a ih =>
    cases b with
    | nil => simp at hlength
    | cons y b =>
      obtain ⟨hvalue, rfl⟩ := ih (Nat.succ.inj hlength) h
      replace hvalue : 256 * v + x.toNat = 256 * w + y.toNat := hvalue
      have hx : x.toNat < 256 := x.toNat_lt
      have hy : y.toNat < 256 := y.toNat_lt
      have hbyte : x = y := UInt8.toNat_inj.1 (by omega)
      exact ⟨by omega, by rw [hbyte]⟩

/-- Four bytes can tell one number only. -/
theorem bigEndian_inj {a b : Bytes} (hlength : a.length = b.length)
    (h : bigEndian a = bigEndian b) : a = b := (foldl_bigEndian_inj hlength h).2

/-! ## Blocks -/

theorem IsXor.unique {chain : Nat → Bytes} {width count : Nat} {a b : Bytes}
    (ha : IsXor chain width count a) (hb : IsXor chain width count b) : a = b := by
  apply List.ext_getElem?
  intro position
  by_cases hposition : position < width
  · rw [ha.byte_eq position hposition, hb.byte_eq position hposition]
  · have hlength := ha.length_eq
    have hlength' := hb.length_eq
    rw [List.getElem?_eq_none (by omega), List.getElem?_eq_none (by omega)]

theorem IsBlock.unique {algorithm : Algorithm} {password salt : Bytes} {iterations index : Nat}
    {a b : Bytes} (ha : IsBlock algorithm password salt iterations index a)
    (hb : IsBlock algorithm password salt iterations index b) : a = b := by
  obtain ⟨counter, hlength, hvalue, ha⟩ := ha
  obtain ⟨counter', hlength', hvalue', hb⟩ := hb
  obtain rfl : counter = counter' :=
    bigEndian_inj (hlength.trans hlength'.symm) (hvalue.trans hvalue'.symm)
  exact ha.unique hb

theorem xorAt_succ (chain : Nat → Bytes) (count position : Nat) :
    xorAt chain (count + 1) position =
      xorAt chain count position ^^^ (chain (count + 1)).getD position 0 := by
  unfold xorAt
  rw [List.range'_1_concat, List.foldl_append, Nat.add_comm 1 count]
  rfl

theorem isXor_one {chain : Nat → Bytes} {width : Nat} (h : (chain 1).length = width) :
    IsXor chain width 1 (chain 1) := by
  refine ⟨h, ?_⟩
  intro position hposition
  rw [xorAt_succ]
  simp [xorAt, h, hposition]

theorem IsXor.next {chain : Nat → Bytes} {width count : Nat} {total : Bytes}
    (htotal : IsXor chain width count total) (h : (chain (count + 1)).length = width) :
    IsXor chain width (count + 1) (List.zipWith (· ^^^ ·) total (chain (count + 1))) := by
  refine ⟨by simp [htotal.length_eq, h], ?_⟩
  intro position hposition
  have hbyte := htotal.byte_eq position hposition
  have hnext : position < (chain (count + 1)).length := by omega
  rw [List.getElem?_zipWith, hbyte, List.getElem?_eq_getElem hnext, xorAt_succ]
  simp [hnext]

section

variable (algorithm : Algorithm) (password : Bytes)

theorem length_chained_succ (seed : Bytes) (j : Nat) :
    (chained algorithm password seed (j + 1)).length = algorithm.outputLength :=
  length_hmac _ _ _

/-- The last digest and the exclusive or of all so far are what a turn of the loop needs. -/
theorem isXor_accumulate (seed : Bytes) (count : Nat) {j : Nat} {total : Bytes}
    (h : IsXor (chained algorithm password seed) algorithm.outputLength j total) :
    IsXor (chained algorithm password seed) algorithm.outputLength (j + count)
      (accumulate algorithm password count (chained algorithm password seed j) total) := by
  induction count generalizing j total with
  | zero => exact h
  | succ count ih =>
    have hnext := ih (h.next (length_chained_succ algorithm password seed j))
    rw [Nat.add_right_comm, Nat.add_assoc] at hnext
    exact hnext

variable (salt : Bytes) (iterations : Nat)

theorem isBlock_block {index : Nat} (h : index < 2 ^ 32) :
    IsBlock algorithm password salt iterations index
      (block algorithm password salt iterations index) := by
  refine ⟨_, length_wordBytes _ _, bigEndian_wordBytes h, ?_⟩
  have hfirst := isXor_one (length_chained_succ algorithm password
    (salt ++ wordBytes .bigEndian (UInt32.ofNat index)) 0)
  have hcount : 1 + (iterations - 1) = max iterations 1 := by omega
  rw [← hcount]
  exact isXor_accumulate algorithm password _ (iterations - 1) hfirst

/-! ## Keys -/

/-- Blocks of one width, one after the other. -/
theorem getElem?_flatMap_range {blocks : Nat → Bytes} {width : Nat}
    (hwidth : ∀ i, (blocks i).length = width) {count k : Nat} (hk : k < count * width) :
    ((List.range count).flatMap blocks)[k]? = (blocks (k / width))[k % width]? := by
  induction count with
  | zero => omega
  | succ count ih =>
    have hlength : ((List.range count).flatMap blocks).length = count * width := by
      simp only [List.length_flatMap, hwidth, List.map_const', List.sum_replicate_nat,
        List.length_range]
    rw [List.range_succ, List.flatMap_append, List.flatMap_singleton]
    by_cases hbefore : k < count * width
    · rw [List.getElem?_append_left (by omega), ih hbefore]
    · rw [Nat.succ_mul] at hk
      have hdiv : k / width = count := by
        rw [Nat.div_eq_iff (by omega)]
        omega
      have hmod : k % width = k - count * width := by
        rw [Nat.mod_eq_sub, hdiv, Nat.mul_comm]
      rw [List.getElem?_append_right (by omega), hlength, hdiv, hmod]

/-- Cutting the last block takes no byte from the key. -/
theorem getElem?_deriveKey {length k : Nat} (hk : k < length) :
    (deriveKey algorithm password salt iterations length)[k]? =
      (block algorithm password salt iterations (k / algorithm.outputLength + 1))[
        k % algorithm.outputLength]? := by
  have hpos := algorithm.outputLength_pos
  have hdiv := Nat.div_add_mod (length + algorithm.outputLength - 1) algorithm.outputLength
  have hmod := Nat.mod_lt (length + algorithm.outputLength - 1) hpos
  unfold deriveKey
  rw [List.getElem?_take_of_lt hk, getElem?_flatMap_range (fun _ => length_block _ _ _ _ _)]
  rw [Nat.mul_comm]
  omega

theorem exists_isBlock_of_lt {length k : Nat}
    (hlength : length ≤ (2 ^ 32 - 1) * algorithm.outputLength) (hk : k < length) :
    ∃ block, IsBlock algorithm password salt iterations (k / algorithm.outputLength + 1) block ∧
      (deriveKey algorithm password salt iterations length)[k]? =
        block[k % algorithm.outputLength]? := by
  have hindex : k / algorithm.outputLength < 2 ^ 32 - 1 := by
    rw [Nat.div_lt_iff_lt_mul algorithm.outputLength_pos]
    omega
  exact ⟨_, isBlock_block algorithm password salt iterations (by omega),
    getElem?_deriveKey algorithm password salt iterations hk⟩

theorem deriveKey_isPrefix_of_le {shorter longer : Nat} (h : shorter ≤ longer)
    (hlength : longer ≤ (2 ^ 32 - 1) * algorithm.outputLength) :
    deriveKey algorithm password salt iterations shorter <+:
      deriveKey algorithm password salt iterations longer := by
  rw [List.prefix_iff_getElem?]
  intro k hk
  rw [length_deriveKey] at hk
  rw [← List.getElem?_eq_getElem]
  -- a byte is told by the block that it stands in, which doesn't know where the key ends
  obtain ⟨block, hblock, hshort⟩ := exists_isBlock_of_lt algorithm password salt iterations
    (Nat.le_trans h hlength) hk
  obtain ⟨block', hblock', hlong⟩ := exists_isBlock_of_lt algorithm password salt iterations
    hlength (Nat.lt_of_lt_of_le hk h)
  rw [hshort, hlong, hblock.unique hblock']

end

/-- A key as long as a digest ends with its first block. -/
theorem derive_eq_block (h : Scram.Hash) (password salt : Bytes) (iterations : Nat) :
    h.derive password salt iterations = block h.algorithm password salt iterations 1 := by
  apply List.ext_getElem?
  intro k
  by_cases hk : k < h.algorithm.outputLength
  · have hbyte := getElem?_deriveKey h.algorithm password salt iterations hk
    rw [Nat.div_eq_of_lt hk, Nat.mod_eq_of_lt hk] at hbyte
    exact hbyte
  · have hle : h.algorithm.outputLength ≤ k := by omega
    rw [List.getElem?_eq_none (by simpa using hle), List.getElem?_eq_none (by simpa using hle)]

/-! ## Top theorem -/

/-- A key of at most `2 ^ 32 - 1` blocks can be had, and is made of the bytes of its blocks in
order. So a shorter key starts a longer one, and the key that a SCRAM mechanism derives is its
first block. -/
theorem derives_blockwise :
    (∀ (algorithm : Algorithm) (password salt : Bytes) (iterations length : Nat),
      length ≤ (2 ^ 32 - 1) * algorithm.outputLength →
        let key := deriveKey algorithm password salt iterations length
        deriveKey? algorithm password salt iterations length = .ok key ∧ key.length = length ∧
          ∀ k < length, ∃ block,
            IsBlock algorithm password salt iterations (k / algorithm.outputLength + 1) block ∧
              key[k]? = block[k % algorithm.outputLength]?) ∧
    (∀ (algorithm : Algorithm) (password salt : Bytes) (iterations shorter longer : Nat),
      shorter ≤ longer → longer ≤ (2 ^ 32 - 1) * algorithm.outputLength →
        deriveKey algorithm password salt iterations shorter <+:
          deriveKey algorithm password salt iterations longer) ∧
    ∀ (h : Scram.Hash) (password salt : Bytes) (iterations : Nat),
      deriveKey? h.algorithm password salt iterations h.algorithm.outputLength =
          .ok (h.derive password salt iterations) ∧
        ∀ block, IsBlock h.algorithm password salt iterations 1 block ↔
          block = h.derive password salt iterations := by
  refine ⟨?_, ?_, ?_⟩
  · intro algorithm password salt iterations length hlength key
    refine ⟨deriveKey?_eq _ _ _ _ _, length_deriveKey _ _ _ _ _, ?_⟩
    intro k hk
    exact exists_isBlock_of_lt algorithm password salt iterations hlength hk
  · intro algorithm password salt iterations shorter longer h hlength
    exact deriveKey_isPrefix_of_le algorithm password salt iterations h hlength
  · intro h password salt iterations
    refine ⟨deriveKey?_eq _ _ _ _ _, ?_⟩
    intro block
    have hfirst := isBlock_block h.algorithm password salt iterations (show 1 < 2 ^ 32 by decide)
    rw [derive_eq_block]
    constructor
    · intro hblock
      exact hblock.unique hfirst
    · rintro rfl
      exact hfirst

/-- No iterations, and a key that ends five bytes after its first block. -/
theorem derives_blockwise_cut :
    25 ≤ (2 ^ 32 - 1) * Algorithm.sha1.outputLength ∧ 20 ≤ 25 ∧
      let key := deriveKey .sha1 (Utf8.encode "pencil") (Utf8.encode "salt") 0 25
      deriveKey? .sha1 (Utf8.encode "pencil") (Utf8.encode "salt") 0 25 = .ok key ∧
        key.length = 25 ∧
        (∀ k < 25, ∃ block,
          IsBlock .sha1 (Utf8.encode "pencil") (Utf8.encode "salt") 0 (k / 20 + 1) block ∧
            key[k]? = block[k % 20]?) ∧
        deriveKey .sha1 (Utf8.encode "pencil") (Utf8.encode "salt") 0 20 <+: key := by
  obtain ⟨hblocks, hstarts, -⟩ := derives_blockwise
  have hlength : 25 ≤ (2 ^ 32 - 1) * Algorithm.sha1.outputLength := by decide
  have hshorter : 20 ≤ 25 := by decide
  obtain ⟨hkey, hlong, hbytes⟩ :=
    hblocks .sha1 (Utf8.encode "pencil") (Utf8.encode "salt") 0 25 hlength
  exact ⟨hlength, hshorter, hkey, hlong, hbytes, hstarts .sha1 _ _ 0 20 25 hshorter hlength⟩

end SaslExchange.KeyDerivation
