import SaslExchange.DigestMd5.Scanner
import SaslExchange.Keying
import SaslExchange.Registry

/-!
# Steps as they are carried out

A step, operation by operation. Lists are scanned by position, keyed digests may refuse their key,
the parts of a proof have to be of one length, and the source is asked for a nonce where one is
needed. A call of a party ends in its step, along with what the source gave it, or in a fault.
-/

namespace SaslExchange

/-- What a call comes to. -/
structure Call (State Failure Reply : Type) where
  step : Step State Failure Reply
  /-- What the source of nonces gave, each time that it was asked. -/
  asked : List NonceSource := []

namespace Call

variable {State Failure Reply : Type}

/-- The call of a party that holds the state of another one. -/
def map {State' : Type} (f : State → State') (call : Call State Failure Reply) :
    Call State' Failure Reply := { call with step := call.step.map f }

/-- Logs further lines after those of the call. -/
def andLog (call : Call State Failure Reply) (lines : List Log.Line) :
    Call State Failure Reply := { call with step := call.step.andLog lines }

end Call

abbrev ClientCall (State : Type) := Call State ClientError ClientReply

abbrev ServerCall (State : Type) := Call State ServerError ServerReply

/-! ## Operations -/

/-- Operations in a row, each of which may fail, ask for a nonce or stop at a fault. -/
abbrev Act (Failure α : Type) := ExceptT Failure (StateT (List NonceSource) (Except Fault)) α

namespace Act

variable {Failure α : Type}

/-- A result that is at hand. -/
def ofExcept (result : Except Failure α) : Act Failure α := ExceptT.mk (pure result)

/-- Asks the source for a nonce. -/
def ask (source : NonceSource) (crypto : CryptoError → Failure) : Act Failure String :=
  ExceptT.mk do
    modify (· ++ [source])
    return source.mapError crypto

/-- What the operations come to and what the source gave, if no fault stops them. -/
def perform (act : Act Failure α) : Except Fault (Except Failure α × List NonceSource) :=
  act.run.run []

end Act

/-! ## SCRAM -/

namespace Scram.Client

variable {h : Hash}

/-- Asks for a nonce and sends it. -/
def actBegin (client : Client h) : Act ClientError (ClientReply × State) := do
  let nonce ← Act.ask client.nonces .crypto
  let bare := clientFirstBare client.username nonce
  return (.proceed (gs2Header ++ bare), .sentFirst bare nonce)

/-- Derives the keys, signs the transcript, and hides the client's key behind its signature. -/
def actProve (client : Client h) (bare challenge : Bytes) (first : ServerFirst) :
    Act ClientError (ClientReply × State) := do
  let tag (key message : Bytes) : Act ClientError Bytes :=
    .ofExcept ((hmac? h.algorithm key message).mapError .crypto)
  let finalBare := clientFinalBare first.nonce
  let saltedPassword ← Act.ofExcept ((deriveKey? h.algorithm (Utf8.encode client.password)
    first.salt first.iterations h.algorithm.outputLength).mapError .crypto)
  let clientKey ← tag saltedPassword (Utf8.encode "Client Key")
  let serverKey ← tag saltedPassword (Utf8.encode "Server Key")
  let transcript := authMessage bare challenge finalBare
  let clientSignature ← tag (h.digest clientKey) transcript
  let proof ← Bytes.combine clientKey clientSignature
  let serverSignature ← tag serverKey transcript
  return (.proceed (finalBare ++ Utf8.encode ",p=" ++ Utf8.encode (Base64.encode proof)),
    .sentFinal serverSignature)

/-- Reads the server's first message and answers it. -/
def actMeet (client : Client h) (bare : Bytes) (nonce : String) (challenge : Bytes) :
    Act ClientError (ClientReply × State) := do
  let frame ← Act.ofExcept ((Frame.parse challenge).mapError fun _ => .cannotDecodeChallenge)
  let first ← Act.ofExcept (ServerFirst.ofFrame nonce frame)
  client.actProve bare challenge first

def act (client : Client h) (challenge : Bytes) : Act ClientError (ClientReply × State) :=
  match client.state with
  | .start => client.actBegin
  | .sentFirst bare nonce => client.actMeet bare nonce challenge
  | .sentFinal serverSignature => .ofExcept (conclude serverSignature challenge)
  | .ended => .ofExcept (.error .invalidState)

def call (client : Client h) (challenge : Bytes) : Except Fault (ClientCall (Client h)) := do
  match ← (client.act challenge).perform with
  | (.error cause, asked) => return ⟨.fail cause { client with state := .ended }, asked⟩
  | (.ok (reply, state), asked) => return ⟨.reply reply { client with state }, asked⟩

end Scram.Client

/-! ## DIGEST-MD5 -/

namespace DigestMd5

/-- Asks for a nonce to answer the server's challenge with. -/
def Client.actMeet (client : Client) (attributes : Attributes) :
    Act ClientError (Bytes × State) := do
  let challenge ← Act.ofExcept (Challenge.ofAttributes attributes)
  let cnonce ← Act.ask client.nonces .crypto
  return (AttributeList.serialize (client.answer challenge cnonce),
    .awaitingProof (client.secret challenge) (client.context challenge cnonce))

def Client.call (client : Client) (challenge : Bytes) : Except Fault (ClientCall Client) :=
  match client.state with
  | .start => return ⟨.reply (.proceed []) { client with state := .awaitingChallenge }, []⟩
  | .awaitingChallenge => do
    let reading ← AttributeList.scan challenge
    match ← (client.actMeet reading.attributes).perform with
    | (.error cause, asked) =>
      return ⟨.fail cause { client with state := .ended } reading.log, asked⟩
    | (.ok (payload, state), asked) =>
      return ⟨.reply (.proceed payload) { client with state } reading.log, asked⟩
  | .awaitingProof secret context => do
    let reading ← AttributeList.scan challenge
    match objection secret context reading.attributes with
    | some cause => return ⟨.fail cause { client with state := .ended } reading.log, []⟩
    | none => return ⟨.reply (.complete []) { client with state := .ended } reading.log, []⟩
  | .ended => return ⟨.fail .invalidState client, []⟩

/-- Asks for the nonce of the server's challenge. -/
def Server.actBegin (server : Server) : Act ServerError (ServerReply × State) := do
  let text ← Act.ask server.nonces .crypto
  let nonce := Utf8.encode text
  return (.challenge (AttributeList.serialize (challenge server.credentials.realm nonce)),
    .awaitingResponse nonce)

def Server.call (server : Server) (payload : Bytes) : Except Fault (ServerCall Server) :=
  match server.state with
  | .start => do
    match ← server.actBegin.perform with
    | (.error cause, asked) => return ⟨.fail cause { server with state := .ended }, asked⟩
    | (.ok (reply, state), asked) => return ⟨.reply reply { server with state }, asked⟩
  | .awaitingResponse nonce => do
    let reading ← AttributeList.scan payload
    return { step := { server.receive nonce reading.attributes with
      log := reading.log ++ qopLog reading.attributes } }
  | .sentProof => return ⟨.reply (.success []) { server with state := .ended }, []⟩
  | .ended => return ⟨.fail .sessionAlreadyOver server, []⟩

end DigestMd5

/-! ## Mechanisms by name -/

namespace AnyClient

/-- The call of the mechanism by itself. Only some mechanisms do what may stop or ask. -/
def inner (client : AnyClient) (challenge : Bytes) : Except Fault (ClientCall AnyClient) :=
  match client with
  | scramSha256 client => (client.call challenge).map (·.map scramSha256)
  | scramSha1 client => (client.call challenge).map (·.map scramSha1)
  | digestMd5 client => (client.call challenge).map (·.map digestMd5)
  | other => return { step := other.step challenge }

def call (client : AnyClient) (challenge : Bytes) : Except Fault (ClientCall AnyClient) := do
  let call ← client.inner challenge
  return call.andLog [outcomeLog client.name call.step.answer]

/-- The calls of a client that is fed the challenges in order. -/
def session : AnyClient → List Bytes → Except Fault (List (ClientCall AnyClient))
  | _, [] => return []
  | client, challenge :: challenges => do
    let call ← client.call challenge
    return call :: (← session call.step.next challenges)

end AnyClient

namespace AnyServer

/-- The call of the mechanism by itself. Only one mechanism does what may stop or ask. -/
def inner (server : AnyServer) (payload : Bytes) : Except Fault (ServerCall AnyServer) :=
  match server with
  | digestMd5 server => (server.call payload).map (·.map digestMd5)
  | other => return { step := other.step payload }

def call (server : AnyServer) (payload : Bytes) : Except Fault (ServerCall AnyServer) := do
  let call ← server.inner payload
  return call.andLog [outcomeLog server.name call.step.answer]

/-- The calls of a server on the payloads among the events. -/
def session : AnyServer → List ServerEvent → Except Fault (List (ServerCall AnyServer))
  | _, [] => return []
  | server, .payload bytes :: events => do
    let call ← server.call bytes
    return call :: (← session call.step.next events)
  | server, .edit change :: events =>
    session (ServerMechanism.next server (.edit change)) events

end AnyServer

end SaslExchange
