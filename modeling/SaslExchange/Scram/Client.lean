import SaslExchange.Base64
import SaslExchange.Credentials
import SaslExchange.Exchange.Client
import SaslExchange.Scram.Frame
import SaslExchange.Scram.Hash
import SaslExchange.Scram.Saslname

/-!
# The client of SCRAM

It sends its username and a nonce, answers the server's salt and iteration count with a proof
that it knows the password, and is done when the server's signature shows that the server
knows the keys derived from it. Proof and signature sign one transcript, the authentication
message.
-/

namespace SaslExchange.Scram

/-! ## Messages -/

/-- Says that there is no channel binding and no identity to act as. -/
def gs2Header : Bytes := Utf8.encode "n,,"

/-- The client's first message without its header. -/
def clientFirstBare (username nonce : String) : Bytes :=
  Frame.serialize [('n', Utf8.encode (Saslname.escape username)), ('r', Utf8.encode nonce)]

/-- The client's final message without its proof. -/
def clientFinalBare (nonce : String) : Bytes :=
  Frame.serialize [('c', Utf8.encode (Base64.encode gs2Header)), ('r', Utf8.encode nonce)]

/-- What proof and signature sign: the messages so far and the one under way. -/
def authMessage (clientFirst serverFirst clientFinal : Bytes) : Bytes :=
  Bytes.joinWith Ascii.comma [clientFirst, serverFirst, clientFinal]

/-- Highest iteration count that a server may ask for, so that it can't keep the client busy
for minutes. -/
def maxIterations : Nat := 1000000

/-- The value of a text of decimal digits. -/
def decimalValue? (digits : List Char) : Option Nat :=
  if digits ≠ [] ∧ digits.all Char.isDigit then
    some (digits.foldl (fun n c => 10 * n + (c.toNat - '0'.toNat)) 0)
  else none

/-- An iteration count in the accepted range: decimal digits, which a plus sign may precede. -/
def iterationCount? (text : String) : Option Nat :=
  let digits := if text.toList.head? = some '+' then text.toList.tail else text.toList
  match decimalValue? digits with
  | some n => if 1 ≤ n ∧ n ≤ maxIterations then some n else none
  | none => none

/-- What a client takes from the server's first message. -/
structure ServerFirst where
  nonce : String
  salt : Bytes
  iterations : Nat

/-- Reads the server's first message in reply to the client's nonce. -/
def ServerFirst.ofFrame (clientNonce : String) (frame : Frame) :
    Except ClientError ServerFirst := do
  if let some text := frame['e']? then throw (.serverError text)
  let some nonce := frame['r']? | throw .noServerNonce
  if ¬clientNonce.toList <+: nonce.toList then throw .invalidServerNonce
  let some saltText := frame['s']? | throw .noServerSalt
  let some salt := Base64.decode? saltText | throw .cannotDecodeSalt
  if salt = [] then throw .noServerSalt
  let some count := frame['i']? | throw .noServerIterations
  let some iterations := iterationCount? count | throw .invalidIterationCount
  return { nonce, salt, iterations }

/-! ## Keys -/

/-- The keys of a user, both derived from the salted password. -/
structure Keys where
  clientKey : Bytes
  serverKey : Bytes

def Keys.derive (h : Hash) (password : String) (salt : Bytes) (iterations : Nat) : Keys :=
  let saltedPassword := h.derive (Utf8.encode password) salt iterations
  { clientKey := h.tag saltedPassword (Utf8.encode "Client Key")
    serverKey := h.tag saltedPassword (Utf8.encode "Server Key") }

/-- The key that a server stores to verify proofs. -/
def Keys.storedKey (h : Hash) (keys : Keys) : Bytes := h.digest keys.clientKey

/-- The client's key, hidden behind its signature of the transcript. -/
def Keys.proof? (h : Hash) (keys : Keys) (transcript : Bytes) : Option Bytes :=
  Bytes.xor? keys.clientKey (h.tag (keys.storedKey h) transcript)

/-- The server's signature of the transcript. -/
def Keys.serverSignature (h : Hash) (keys : Keys) (transcript : Bytes) : Bytes :=
  h.tag keys.serverKey transcript

/-! ## Client -/

inductive Client.State
  | start
  /-- The first message, here without its header, is out. -/
  | sentFirst (bare : Bytes) (nonce : String)
  /-- The proof is out, and this signature is expected. -/
  | sentFinal (serverSignature : Bytes)
  | ended
deriving DecidableEq

structure Client (h : Hash) where
  username : String
  password : String
  nonces : NonceSource
  state : Client.State := .start

namespace Client

variable {h : Hash}

def ofCredentials (credentials : Credentials) (nonces : NonceSource) : Client h where
  username := credentials.username
  password := credentials.password
  nonces := nonces

/-- The client with another source of nonces. -/
def withNonces (client : Client h) (nonces : NonceSource) : Client h := { client with nonces }

/-- The first message and the state that waits for its answer. -/
def begin (client : Client h) : Except ClientError (ClientReply × State) :=
  match client.nonces with
  | .error cause => .error (.crypto cause)
  | .ok nonce =>
    let bare := clientFirstBare client.username nonce
    .ok (.proceed (gs2Header ++ bare), .sentFirst bare nonce)

/-- The final message for what the server asks, and the state that waits for the server's
signature. -/
def prove (client : Client h) (bare challenge : Bytes) (first : ServerFirst) :
    Except ClientError (ClientReply × State) :=
  let finalBare := clientFinalBare first.nonce
  let keys := Keys.derive h client.password first.salt first.iterations
  let transcript := authMessage bare challenge finalBare
  match keys.proof? h transcript with
  | none => .error .lengthMismatch
  | some proof =>
    .ok (.proceed (finalBare ++ Utf8.encode ",p=" ++ Utf8.encode (Base64.encode proof)),
      .sentFinal (keys.serverSignature h transcript))

/-- Reads the server's first message and answers it. -/
def meet (client : Client h) (bare : Bytes) (nonce : String) (challenge : Bytes) :
    Except ClientError (ClientReply × State) :=
  match Frame.parse challenge with
  | .error _ => .error .cannotDecodeChallenge
  | .ok frame =>
    match ServerFirst.ofFrame nonce frame with
    | .error cause => .error cause
    | .ok first => client.prove bare challenge first

/-- Checks the signature in the server's final message. -/
def conclude (serverSignature challenge : Bytes) : Except ClientError (ClientReply × State) :=
  match Frame.parse challenge with
  | .error _ => .error .cannotDecodeSuccessResponse
  | .ok frame =>
    match frame['e']?, frame['v']?.bind Base64.decode? with
    | some text, _ => .error (.serverError text)
    | none, none => .error .noSignatureInSuccessResponse
    | none, some signature =>
      if signature = serverSignature then .ok (.complete [], .ended)
      else .error .invalidSignatureInSuccessResponse

/-- The reply to a challenge and the state after it. -/
def advance (client : Client h) (challenge : Bytes) : Except ClientError (ClientReply × State) :=
  match client.state with
  | .start => client.begin
  | .sentFirst bare nonce => client.meet bare nonce challenge
  | .sentFinal serverSignature => conclude serverSignature challenge
  | .ended => .error .invalidState

def respond (client : Client h) (challenge : Bytes) : ClientStep (Client h) :=
  match client.advance challenge with
  | .error cause => .fail cause { client with state := .ended }
  | .ok (reply, state) => .reply reply { client with state }

end Client

instance (h : Hash) : ClientMechanism (Client h) where
  name _ := "SCRAM-" ++ h.name
  respond := Client.respond

end SaslExchange.Scram
