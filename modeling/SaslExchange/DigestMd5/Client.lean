import SaslExchange.Credentials
import SaslExchange.DigestMd5.AttributeList
import SaslExchange.DigestMd5.Proof
import SaslExchange.Exchange.Client

/-!
# The client of DIGEST-MD5

It starts with an empty message, answers the server's challenge with a proof, and is done when
the server has proved itself in turn. Quality of protection is `auth` only.
-/

namespace SaslExchange.DigestMd5

/-- What a client takes from the server's challenge. -/
structure Challenge where
  nonce : Bytes
  /-- Empty if the server names none. -/
  realm : Bytes

/-- Whether a list of qualities of protection has `auth` in it. -/
def offersAuth (qops : Bytes) : Bool :=
  (qops.splitOn Ascii.comma).any fun qop => Bytes.trim qop = Utf8.encode "auth"

/-- A challenge that names no quality of protection offers `auth`. -/
def Challenge.ofAttributes (attributes : Attributes) : Except ClientError Challenge :=
  match attributes.find? "nonce" with
  | none => .error .noNonce
  | some nonce =>
    if offersAuth ((attributes.find? "qop").getD (Utf8.encode "auth")) then
      .ok { nonce, realm := (attributes.find? "realm").getD [] }
    else .error .unsupportedQop

inductive Client.State
  | start
  | awaitingChallenge
  | awaitingProof (secret : Bytes) (context : Context)
  | ended

structure Client where
  username : String
  password : String
  serviceType : String
  host : String
  nonces : NonceSource
  state : Client.State := .start

namespace Client

def ofCredentials (credentials : Credentials) (nonces : NonceSource) : Client where
  username := credentials.username
  password := credentials.password
  serviceType := credentials.serviceType
  host := credentials.host
  nonces := nonces

/-- The client with another source of nonces. -/
def withNonces (client : Client) (nonces : NonceSource) : Client := { client with nonces }

/-- The service that the client authenticates to, `service/host`. -/
def digestUri (client : Client) : Bytes :=
  Utf8.encode (client.serviceType ++ "/" ++ client.host)

/-- The context of the answer to a challenge: one answer is sent for its nonce. -/
def context (client : Client) (challenge : Challenge) (cnonce : String) : Context where
  digestUri := client.digestUri
  nonce := challenge.nonce
  cnonce := Utf8.encode cnonce
  nonceCount := Utf8.encode "00000001"

/-- The secret in the realm of a challenge. -/
def secret (client : Client) (challenge : Challenge) : Bytes :=
  DigestMd5.secret (Utf8.encode client.username) challenge.realm (Utf8.encode client.password)

/-- The attributes of the answer to a challenge. -/
def answer (client : Client) (challenge : Challenge) (cnonce : String) : Attributes :=
  let context := client.context challenge cnonce
  .ofEntries (
    entry "username" (Utf8.encode client.username) ::
    (if challenge.realm.isEmpty then [] else [entry "realm" challenge.realm]) ++
    [entry "nonce" context.nonce,
      entry "qop" (Utf8.encode "auth"),
      entry "cnonce" context.cnonce,
      entry "nc" context.nonceCount,
      entry "digest-uri" context.digestUri,
      entry "response" (clientProof (client.secret challenge) context),
      entry "charset" (Utf8.encode "utf-8")])

/-- The answer to the server's challenge, and the state that waits for the server's proof. -/
def meet (client : Client) (attributes : Attributes) : Except ClientError (Bytes × State) :=
  match Challenge.ofAttributes attributes with
  | .error cause => .error cause
  | .ok challenge =>
    match client.nonces with
    | .error cause => .error (.crypto cause)
    | .ok cnonce =>
      .ok (AttributeList.serialize (client.answer challenge cnonce),
        .awaitingProof (client.secret challenge) (client.context challenge cnonce))

/-- Why the server's last message is no proof, if it is none. -/
def objection (secret : Bytes) (context : Context) (attributes : Attributes) :
    Option ClientError :=
  match attributes.find? "rspauth" with
  | none => some .noRspauth
  | some rspauth => if rspauth = serverProof secret context then none else some .invalidRspauth

def respond (client : Client) (challenge : Bytes) : ClientStep Client :=
  match client.state with
  | .start => .reply (.proceed []) { client with state := .awaitingChallenge }
  | .awaitingChallenge =>
    let reading := AttributeList.read challenge
    match client.meet reading.attributes with
    | .error cause => .fail cause { client with state := .ended } reading.log
    | .ok (payload, state) => .reply (.proceed payload) { client with state } reading.log
  | .awaitingProof secret context =>
    let reading := AttributeList.read challenge
    match objection secret context reading.attributes with
    | some cause => .fail cause { client with state := .ended } reading.log
    | none => .reply (.complete []) { client with state := .ended } reading.log
  | .ended => .fail .invalidState client

end Client

instance : ClientMechanism Client where
  name _ := "DIGEST-MD5"
  respond := Client.respond

end SaslExchange.DigestMd5
