import SaslExchange.KeyDerivation
import SaslExchange.Nonce

/-!
# Keyed digests in the form that can fail

A keyed digest sets up its key as a block before it reads the message. By its form the setup can
fail, with an invalid length, and what is derived with keyed digests would fail with the first of
them. No key is refused: a short one is filled up to a block and a long one is digested first, so
every derivation has its result.

    hmac? algorithm key message = .ok (hmac algorithm key message)                     (hmac?_eq)
    deriveKey? algorithm password … = .ok (deriveKey algorithm password …)        (deriveKey?_eq)
-/

namespace SaslExchange

open Digest

namespace Hmac

/-- Sets up a key. The test stands for the failure that the setup has by its form; every key passes
it (`keyed?_eq`). -/
def keyed? (algorithm : Algorithm) (key : Bytes) : Except CryptoError Bytes :=
  let block := blockKey algorithm key
  if block.length = blockLength then .ok block else .error .invalidKeyLength

theorem length_blockKey (algorithm : Algorithm) (key : Bytes) :
    (blockKey algorithm key).length = blockLength := by
  have houtput : algorithm.outputLength ≤ blockLength := by cases algorithm <;> decide
  unfold blockKey
  by_cases hlong : blockLength < key.length
  · simp only [if_pos hlong, List.length_append, length_hash, List.length_replicate]
    omega
  · simp only [if_neg hlong, List.length_append, List.length_replicate]
    omega

theorem keyed?_eq (algorithm : Algorithm) (key : Bytes) :
    keyed? algorithm key = .ok (blockKey algorithm key) := if_pos (length_blockKey algorithm key)

end Hmac

/-- The HMAC of a message, if its key can be set up. -/
def hmac? (algorithm : Algorithm) (key message : Bytes) : Except CryptoError Bytes := do
  let block ← Hmac.keyed? algorithm key
  let inner := hash algorithm (block.map (· ^^^ 0x36) ++ message)
  return hash algorithm (block.map (· ^^^ 0x5C) ++ inner)

theorem hmac?_eq (algorithm : Algorithm) (key message : Bytes) :
    hmac? algorithm key message = .ok (hmac algorithm key message) := by
  unfold hmac?
  rw [Hmac.keyed?_eq]
  rfl

namespace KeyDerivation

/-- The chain of a block, each digest of which may fail. -/
def accumulate? (algorithm : Algorithm) (password : Bytes) :
    Nat → Bytes → Bytes → Except CryptoError Bytes
  | 0, _, total => .ok total
  | count + 1, last, total => do
    let next ← hmac? algorithm password last
    accumulate? algorithm password count next (List.zipWith (· ^^^ ·) total next)

/-- Block number `index`, if all its digests can be had. -/
def block? (algorithm : Algorithm) (password salt : Bytes) (iterations index : Nat) :
    Except CryptoError Bytes := do
  let first ← hmac? algorithm password (salt ++ wordBytes .bigEndian (UInt32.ofNat index))
  accumulate? algorithm password (iterations - 1) first first

theorem accumulate?_eq (algorithm : Algorithm) (password : Bytes) (count : Nat)
    (last total : Bytes) :
    accumulate? algorithm password count last total =
      .ok (accumulate algorithm password count last total) := by
  induction count generalizing last total with
  | zero => rfl
  | succ count ih =>
    rw [accumulate?, hmac?_eq]
    exact ih _ _

theorem block?_eq (algorithm : Algorithm) (password salt : Bytes) (iterations index : Nat) :
    block? algorithm password salt iterations index =
      .ok (block algorithm password salt iterations index) := by
  unfold block?
  rw [hmac?_eq]
  exact accumulate?_eq _ _ _ _ _

end KeyDerivation

/-- `length` bytes derived from a password and a salt, if all blocks can be had. -/
def deriveKey? (algorithm : Algorithm) (password salt : Bytes) (iterations length : Nat) :
    Except CryptoError Bytes := do
  let count := (length + algorithm.outputLength - 1) / algorithm.outputLength
  let blocks ← (List.range count).mapM fun i =>
    KeyDerivation.block? algorithm password salt iterations (i + 1)
  return blocks.flatten.take length

theorem deriveKey?_eq (algorithm : Algorithm) (password salt : Bytes) (iterations length : Nat) :
    deriveKey? algorithm password salt iterations length =
      .ok (deriveKey algorithm password salt iterations length) := by
  unfold deriveKey?
  simp only [KeyDerivation.block?_eq]
  change ((List.range _).mapM (fun i => pure _) >>= _) = _
  rw [List.mapM_pure]
  rfl

end SaslExchange
