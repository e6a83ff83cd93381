import SaslExchange.KeyDerivation

/-!
# The hash functions of SCRAM

A SCRAM mechanism is named for its hash function, which gives it a digest, a keyed digest and
a derived key, all of one length.
-/

namespace SaslExchange.Scram

inductive Hash
  | sha1
  | sha256
deriving DecidableEq

namespace Hash

/-- The name that follows `SCRAM-` in the mechanism's. -/
def name : Hash → String
  | sha1 => "SHA-1"
  | sha256 => "SHA-256"

def algorithm : Hash → Digest.Algorithm
  | sha1 => .sha1
  | sha256 => .sha256

/-- The digest of a message. -/
def digest (h : Hash) (message : Bytes) : Bytes := Digest.hash h.algorithm message

/-- The keyed digest of a message. -/
def tag (h : Hash) (key message : Bytes) : Bytes := hmac h.algorithm key message

/-- The key derived from a password, as long as a digest. -/
def derive (h : Hash) (password salt : Bytes) (iterations : Nat) : Bytes :=
  deriveKey h.algorithm password salt iterations h.algorithm.outputLength

@[simp] theorem length_tag (h : Hash) (key message : Bytes) :
    (h.tag key message).length = h.algorithm.outputLength :=
  length_hmac _ _ _

@[simp] theorem length_derive (h : Hash) (password salt : Bytes) (iterations : Nat) :
    (h.derive password salt iterations).length = h.algorithm.outputLength :=
  length_deriveKey _ _ _ _ _

end Hash

end SaslExchange.Scram
