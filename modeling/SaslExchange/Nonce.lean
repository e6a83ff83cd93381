import SaslExchange.Base64

/-!
# Nonces

A nonce is a text that is used once. Where it comes from lies outside an exchange: a mechanism
is given what asking for one yields, and asks at most once.
-/

namespace SaslExchange

/-- Why no random data could be had. -/
inductive RandomFailure
  /-- The system refused with an error of its own: its number, and what the system says of it. -/
  | system (number : UInt32) (text : Option String)
  /-- There is no source of random data on this system. -/
  | unsupported
  /-- The system refused with an error that has no positive number. -/
  | errnoNotPositive
  | unexpected
  /-- A source from outside the system gave a code, which has no text. -/
  | unknown (code : UInt32)
deriving DecidableEq

def RandomFailure.message : RandomFailure → String
  | .system number text => text.getD ("OS Error: " ++ toString number.toNat)
  | .unsupported => "getrandom: this target is not supported"
  | .errnoNotPositive => "errno: did not return a positive value"
  | .unexpected => "unexpected situation"
  | .unknown code => "Unknown Error: " ++ toString code.toNat

/-- A failure of a cryptographic primitive. -/
inductive CryptoError
  | randomFailure (cause : RandomFailure)
  | invalidKeyLength
deriving DecidableEq

def CryptoError.message : CryptoError → String
  | .randomFailure cause => "failure to get random data: " ++ cause.message
  | .invalidKeyLength => "invalid key length: Invalid Length"

/-- What asking for a nonce yields. -/
abbrev NonceSource := Except CryptoError String

namespace Nonce

/-- How many random bytes a nonce is made of. -/
def byteCount : Nat := 32

/-- The nonce made of random bytes, as base64. It holds no comma, but ends in an equals sign,
which is the padding of 32 bytes. -/
def ofBytes (bytes : Bytes) : String := Base64.encode bytes

end Nonce

end SaslExchange
