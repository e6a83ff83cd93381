import SaslExchange.Digest
import SaslExchange.Hex
import SaslExchange.Text.Utf8

/-!
# Proofs of DIGEST-MD5

Client and server prove to each other that they know the secret of a user by a digest of the
secret and of what they said, as hexadecimal digits. The client's proof names the method
`AUTHENTICATE`, the server's an empty one.
-/

namespace SaslExchange.DigestMd5

open Digest

/-- What both sides know of the exchange when they compute a proof. -/
structure Context where
  digestUri : Bytes
  nonce : Bytes
  cnonce : Bytes
  nonceCount : Bytes

/-- The parts with a colon between neighbours. -/
def colonJoined (parts : List Bytes) : Bytes := Bytes.joinWith Ascii.colon parts

/-- The secret of a user in a realm, all that a server has to store. -/
def secret (username realm password : Bytes) : Bytes :=
  hash .md5 (colonJoined [username, realm, password])

def md5Hex (message : Bytes) : Bytes := Utf8.encode (Hex.encode (hash .md5 message))

/-- The proof for quality of protection `auth` and the given method. -/
def proof (method secret : Bytes) (context : Context) : Bytes :=
  md5Hex (colonJoined [
    md5Hex (colonJoined [secret, context.nonce, context.cnonce]),
    context.nonce, context.nonceCount, context.cnonce, Utf8.encode "auth",
    md5Hex (colonJoined [method, context.digestUri])])

def clientProof (secret : Bytes) (context : Context) : Bytes :=
  proof (Utf8.encode "AUTHENTICATE") secret context

def serverProof (secret : Bytes) (context : Context) : Bytes := proof [] secret context

end SaslExchange.DigestMd5
