import SaslExchange.DigestMd5.AttributeList
import SaslExchange.DigestMd5.Proof
import SaslExchange.Exchange.Server

/-!
# The server of DIGEST-MD5

It issues a nonce, checks the client's proof, sends its own and reports success at the next
payload. When it knows neither the password nor the secret of the user that the client claims
to be, it asks its owner for one of them and takes the client's answer again. Quality of
protection is `auth` only.
-/

namespace SaslExchange.DigestMd5

inductive Server.State
  | start
  /-- The challenge with this nonce is out. -/
  | awaitingResponse (nonce : Bytes)
  | sentProof
  | ended
deriving DecidableEq

structure Server where
  credentials : Credentials := {}
  nonces : NonceSource
  state : Server.State := .start

namespace Server

def ofCredentials (credentials : Credentials) (nonces : NonceSource) : Server where
  credentials := credentials
  nonces := nonces

/-- A server that knows nothing yet. -/
def new (nonces : NonceSource) : Server := ofCredentials {} nonces

/-- The server that stands where none is named. -/
protected def default (nonces : NonceSource) : Server := new nonces

/-- The server with another source of nonces. -/
def withNonces (server : Server) (nonces : NonceSource) : Server := { server with nonces }

/-- The attributes of the challenge with the given nonce. -/
def challenge (realm : String) (nonce : Bytes) : Attributes :=
  .ofEntries (
    entry "nonce" nonce ::
    (if realm.isEmpty then [] else [entry "realm" (Utf8.encode realm)]) ++
    [entry "qop" (Utf8.encode "auth"),
      entry "charset" (Utf8.encode "utf-8"),
      entry "algorithm" (Utf8.encode "md5-sess")])

/-- Whether the client picked quality of protection `auth`. -/
def picksAuth (attributes : Attributes) : Bool :=
  (attributes.find? "qop").map Bytes.trim = some (Utf8.encode "auth")

/-- The user that the client claims to be. -/
def claimedUsername (attributes : Attributes) : Except ServerError String :=
  if picksAuth attributes then
    match attributes.find? "username" with
    | none => .error (.missingAttribute "username")
    | some raw =>
      match Utf8.decode? raw with
      | none => .error .errorDecodingUsername
      | some username => .ok username
  else .error .unsupportedQop

/-- The log line for a client that didn't pick `auth`. -/
def qopLog (attributes : Attributes) : List Log.Line :=
  if picksAuth attributes then [] else [Log.warn "DIGEST-MD5 client didn’t pick qop=auth"]

/-- Whether the owner has yet to supply a password or a secret. -/
def lacksSecret (credentials : Credentials) : Bool :=
  credentials.password.isEmpty && credentials.passwordDigest.isEmpty

/-- The secret of the user: that of the password if there is one, else the stored one. -/
def knownSecret (credentials : Credentials) (realm : Bytes) : Bytes :=
  if credentials.password.isEmpty then credentials.passwordDigest
  else
    secret (Utf8.encode credentials.username) realm (Utf8.encode credentials.password)

/-- An attribute that the client's answer must have. -/
def required (attributes : Attributes) (name : String) : Except ServerError Bytes :=
  match attributes.find? name with
  | none => .error (.missingAttribute name)
  | some value => .ok value

/-- Checks the client's proof, and answers it with the server's. -/
def verify (credentials : Credentials) (nonce : Bytes) (attributes : Attributes) :
    Except ServerError Bytes := do
  let echoed ← required attributes "nonce"
  if echoed ≠ nonce then throw .invalidNonce
  let cnonce ← required attributes "cnonce"
  let nonceCount ← required attributes "nc"
  let digestUri ← required attributes "digest-uri"
  let response ← required attributes "response"
  let secret := knownSecret credentials ((attributes.find? "realm").getD [])
  let context : Context := { digestUri, nonce, cnonce, nonceCount }
  if response ≠ clientProof secret context then throw .authenticationFailed
  return serverProof secret context

/-- The message with the server's proof. -/
def proofMessage (proof : Bytes) : Bytes :=
  AttributeList.serialize (.ofEntries [entry "rspauth" proof])

/-- Takes the client's answer to the challenge with the given nonce. From the moment the claimed
user is known, the credentials hold it, whatever comes of the answer. -/
def receive (server : Server) (nonce : Bytes) (attributes : Attributes) : ServerStep Server :=
  match claimedUsername attributes with
  | .error cause => .fail cause { server with state := .ended }
  | .ok username =>
    let credentials := { server.credentials with username }
    if lacksSecret credentials then .reply .inputNeeded { server with credentials }
    else
      match verify credentials nonce attributes with
      | .error cause => .fail cause { server with credentials, state := .ended }
      | .ok proof =>
        .reply (.challenge (proofMessage proof)) { server with credentials, state := .sentProof }

def respond (server : Server) (payload : Bytes) : ServerStep Server :=
  match server.state with
  | .start =>
    match server.nonces with
    | .error cause => .fail (.crypto cause) { server with state := .ended }
    | .ok text =>
      let nonce := Utf8.encode text
      .reply (.challenge (AttributeList.serialize (challenge server.credentials.realm nonce)))
        { server with state := .awaitingResponse nonce }
  | .awaitingResponse nonce =>
    let reading := AttributeList.read payload
    { server.receive nonce reading.attributes with
      log := reading.log ++ qopLog reading.attributes }
  | .sentProof => .reply (.success []) { server with state := .ended }
  | .ended => .fail .sessionAlreadyOver server

end Server

instance : ServerMechanism Server where
  name _ := "DIGEST-MD5"
  respond := Server.respond
  credentials := Server.credentials
  setCredentials server credentials := { server with credentials }

end SaslExchange.DigestMd5
