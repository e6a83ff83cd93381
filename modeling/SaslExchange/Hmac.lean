import SaslExchange.Digest

/-!
# Keyed digests

    (hmac algorithm key message).length = algorithm.outputLength      (length_hmac)
-/

namespace SaslExchange

open Digest

namespace Hmac

/-- The length of a block of each of the digests. -/
def blockLength : Nat := 64

/-- The key as a whole block: a longer one is hashed first, and zeros fill it up. -/
def blockKey (algorithm : Algorithm) (key : Bytes) : Bytes :=
  let key := if blockLength < key.length then hash algorithm key else key
  key ++ List.replicate (blockLength - key.length) 0

/-- The key block with each byte combined with `mask`. -/
def maskedKey (algorithm : Algorithm) (key : Bytes) (mask : UInt8) : Bytes :=
  (blockKey algorithm key).map (· ^^^ mask)

end Hmac

/-- The HMAC of a message under a key of any length. -/
def hmac (algorithm : Algorithm) (key message : Bytes) : Bytes :=
  hash algorithm (Hmac.maskedKey algorithm key 0x5C ++
    hash algorithm (Hmac.maskedKey algorithm key 0x36 ++ message))

@[simp] theorem length_hmac (algorithm : Algorithm) (key message : Bytes) :
    (hmac algorithm key message).length = algorithm.outputLength :=
  length_hash algorithm _

end SaslExchange
