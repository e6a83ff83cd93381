import SaslExchange.Digest.Md5
import SaslExchange.Digest.Sha1
import SaslExchange.Digest.Sha256

/-!
# Digests

The algorithms that the mechanisms hash with.

    (hash algorithm message).length = algorithm.outputLength      (length_hash)
-/

namespace SaslExchange

namespace Digest

inductive Algorithm
  | md5
  | sha1
  | sha256
deriving DecidableEq

/-- How many bytes a digest has. -/
def Algorithm.outputLength : Algorithm → Nat
  | .md5 => 16
  | .sha1 => 20
  | .sha256 => 32

theorem Algorithm.outputLength_pos (algorithm : Algorithm) : 0 < algorithm.outputLength := by
  cases algorithm <;> decide

/-- The digest of a message. -/
def hash : Algorithm → Bytes → Bytes
  | .md5 => Md5.hash
  | .sha1 => Sha1.hash
  | .sha256 => Sha256.hash

@[simp] theorem length_hash (algorithm : Algorithm) (message : Bytes) :
    (hash algorithm message).length = algorithm.outputLength := by
  cases algorithm
  · exact Md5.length_hash message
  · exact Sha1.length_hash message
  · exact Sha256.length_hash message

end Digest

end SaslExchange
