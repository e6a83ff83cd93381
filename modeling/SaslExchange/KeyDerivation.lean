import SaslExchange.Hmac

/-!
# Keys derived from passwords

PBKDF2 with HMAC: block `i` of a derived key is the exclusive or of a chain of keyed digests
that starts at the salt followed by `i`, and the key is as many blocks as it needs, cut to
length.

    (deriveKey algorithm password salt iterations length).length = length      (length_deriveKey)
-/

namespace SaslExchange

open Digest

namespace KeyDerivation

/-- The exclusive or of `total` and the `count` digests that follow `last` in the chain. -/
def accumulate (algorithm : Algorithm) (password : Bytes) : Nat → Bytes → Bytes → Bytes
  | 0, _, total => total
  | count + 1, last, total =>
    let next := hmac algorithm password last
    accumulate algorithm password count next (List.zipWith (· ^^^ ·) total next)

/-- Block number `index`, counted from one. No iterations give the same as one. -/
def block (algorithm : Algorithm) (password salt : Bytes) (iterations index : Nat) : Bytes :=
  let first := hmac algorithm password (salt ++ wordBytes .bigEndian (UInt32.ofNat index))
  accumulate algorithm password (iterations - 1) first first

@[simp] theorem length_accumulate (algorithm : Algorithm) (password last total : Bytes)
    (count : Nat) (h : total.length = algorithm.outputLength) :
    (accumulate algorithm password count last total).length = algorithm.outputLength := by
  induction count generalizing last total with
  | zero => exact h
  | succ count ih => exact ih _ _ (by simp [h])

@[simp] theorem length_block (algorithm : Algorithm) (password salt : Bytes)
    (iterations index : Nat) :
    (block algorithm password salt iterations index).length = algorithm.outputLength := by
  simp [block]

end KeyDerivation

/-- `length` bytes derived from a password and a salt. -/
def deriveKey (algorithm : Algorithm) (password salt : Bytes) (iterations length : Nat) : Bytes :=
  let count := (length + algorithm.outputLength - 1) / algorithm.outputLength
  ((List.range count).flatMap fun i =>
    KeyDerivation.block algorithm password salt iterations (i + 1)).take length

theorem length_deriveKey (algorithm : Algorithm) (password salt : Bytes)
    (iterations length : Nat) :
    (deriveKey algorithm password salt iterations length).length = length := by
  have hpos := algorithm.outputLength_pos
  have hdiv := Nat.div_add_mod (length + algorithm.outputLength - 1) algorithm.outputLength
  have hmod := Nat.mod_lt (length + algorithm.outputLength - 1) hpos
  simp only [deriveKey, List.length_take, List.length_flatMap, KeyDerivation.length_block,
    List.map_const', List.sum_replicate_nat, List.length_range]
  rw [Nat.mul_comm]
  omega

end SaslExchange
