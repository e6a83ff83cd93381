import SaslExchange.Bytes
import SaslExchange.Credentials
import SaslExchange.Exchange.Step
import SaslExchange.Nonce

/-!
# The server's side of an exchange

A server answers the client's payloads. It holds credentials, which it completes with what the
client claims, and which its owner may edit between two payloads. Any failure is final, and so
is success.
-/

namespace SaslExchange

/-- What a server wants done next. -/
inductive ServerReply
  /-- Send the payload and wait for the client's answer. -/
  | challenge (payload : Bytes)
  /-- The client is authenticated; send the payload along. -/
  | success (payload : Bytes)
  /-- The credentials lack something that only the owner can supply or check. -/
  | inputNeeded
deriving DecidableEq

/-- What is sent to the client, if anything is. -/
def ServerReply.payload? : ServerReply → Option Bytes
  | challenge payload => some payload
  | success payload => some payload
  | inputNeeded => none

/-- Why a server rejected the client. -/
inductive ServerError
  | failedToDecodeMessage
  | errorDecodingUsername
  | errorDecodingPassword
  | unsupportedQop
  | missingAttribute (name : String)
  | invalidNonce
  | crypto (cause : CryptoError)
  | authenticationFailed
  /-- The exchange is over. -/
  | sessionAlreadyOver
deriving DecidableEq

namespace ServerError

def message : ServerError → String
  | failedToDecodeMessage => "failed to decode message"
  | errorDecodingUsername => "error decoding username"
  | errorDecodingPassword => "error decoding password"
  | unsupportedQop => "quality of protection isn’t auth"
  | missingAttribute name => "no " ++ name ++ " in response"
  | invalidNonce => "nonce doesn’t match the challenge"
  | crypto cause => "crypto error: " ++ cause.message
  | authenticationFailed => "authentication failed"
  | sessionAlreadyOver => "SASL session already over"

def kind : ServerError → ErrorKind
  | unsupportedQop => .unsupportedParameter
  | authenticationFailed => .cryptographicMismatch
  | crypto _ => .internal
  | _ => .protocolViolation

/-- The failure of a primitive behind this one. -/
def source : ServerError → Option CryptoError
  | crypto cause => some cause
  | _ => none

end ServerError

abbrev ServerStep (State : Type) := Step State ServerError ServerReply

/-- A type whose values are servers of a mechanism, each in some state of its exchange. -/
class ServerMechanism (State : Type) where
  /-- The name of the mechanism on the wire. -/
  name : State → String
  /-- Answers the client's payload. -/
  respond : State → Bytes → ServerStep State
  credentials : State → Credentials
  setCredentials : State → Credentials → State

/-- What happens to a server: the client's payload arrives, or its owner edits the
credentials. -/
inductive ServerEvent
  | payload (bytes : Bytes)
  | edit (change : Credentials → Credentials)

/-- The server after one event. -/
def ServerMechanism.next {State : Type} [ServerMechanism State] (state : State) :
    ServerEvent → State
  | .payload bytes => (respond state bytes).next
  | .edit change => setCredentials state (change (credentials state))

/-- The server after the events. -/
def ServerMechanism.after {State : Type} [ServerMechanism State] (state : State)
    (events : List ServerEvent) : State :=
  events.foldl next state

/-- The steps that a server takes on the payloads among the events. -/
def ServerMechanism.run {State : Type} [ServerMechanism State] :
    State → List ServerEvent → List (ServerStep State)
  | _, [] => []
  | state, .payload bytes :: events =>
    let step := respond state bytes
    step :: run step.next events
  | state, .edit change :: events => run (next state (.edit change)) events

end SaslExchange
