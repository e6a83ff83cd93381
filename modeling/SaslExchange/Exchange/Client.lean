import SaslExchange.Bytes
import SaslExchange.Exchange.Step
import SaslExchange.Nonce

/-!
# The client's side of an exchange

A client answers the server's challenges, the first of which is usually empty. Any failure is
final, and so is completion.
-/

namespace SaslExchange

/-- What a client wants sent to the server. -/
inductive ClientReply
  /-- Send the payload; another challenge is expected. -/
  | proceed (payload : Bytes)
  /-- Send the payload; this side is done. -/
  | complete (payload : Bytes)
deriving DecidableEq

namespace ClientReply

def payload : ClientReply → Bytes
  | proceed payload => payload
  | complete payload => payload

/-- Whether another challenge is expected. -/
def proceeds : ClientReply → Bool
  | proceed _ => true
  | complete _ => false

end ClientReply

/-- Why a client gave up. -/
inductive ClientError
  /-- The exchange is over. -/
  | invalidState
  | crypto (cause : CryptoError)
  /-- The password isn't the base64 text that it has to be. -/
  | cannotDecodePassword
  | missingChallengeParameter (name : String)
  | noNonce
  | unsupportedQop
  | noRspauth
  | invalidRspauth
  | cannotDecodeChallenge
  /-- The server reports an error of its own. -/
  | serverError (text : String)
  | noServerNonce
  | invalidServerNonce
  | noServerSalt
  | cannotDecodeSalt
  | noServerIterations
  | invalidIterationCount
  | cannotDecodeSuccessResponse
  | invalidSignatureInSuccessResponse
  | noSignatureInSuccessResponse
  /-- Byte strings of different lengths were to be combined; no exchange comes to this. -/
  | lengthMismatch
deriving DecidableEq

namespace ClientError

def message : ClientError → String
  | invalidState => "not in the right state to receive this challenge"
  | crypto cause => "crypto error: " ++ cause.message
  | cannotDecodePassword => "can't decode the password as base64"
  | missingChallengeParameter name => "challenge is missing the " ++ name ++ " parameter"
  | noNonce => "no nonce in challenge"
  | unsupportedQop => "auth isn't an offered quality of protection"
  | noRspauth => "no rspauth in challenge"
  | invalidRspauth => "invalid rspauth in challenge"
  | cannotDecodeChallenge => "can't decode challenge"
  | serverError text => "server error: " ++ text
  | noServerNonce => "no server nonce"
  | invalidServerNonce => "server nonce doesn't start with the client nonce"
  | noServerSalt => "no server salt"
  | cannotDecodeSalt => "can't decode server salt"
  | noServerIterations => "no server iterations"
  | invalidIterationCount => "invalid server iteration count"
  | cannotDecodeSuccessResponse => "can't decode success response"
  | invalidSignatureInSuccessResponse => "invalid signature in success response"
  | noSignatureInSuccessResponse => "no signature in success response"
  | lengthMismatch => "byte strings of different lengths"

def kind : ClientError → ErrorKind
  | crypto _ | lengthMismatch => .internal
  | unsupportedQop => .unsupportedParameter
  | invalidRspauth | invalidSignatureInSuccessResponse => .cryptographicMismatch
  | _ => .protocolViolation

/-- The failure of a primitive behind this one. -/
def source : ClientError → Option CryptoError
  | crypto cause => some cause
  | _ => none

end ClientError

abbrev ClientStep (State : Type) := Step State ClientError ClientReply

/-- A type whose values are clients of a mechanism, each in some state of its exchange. -/
class ClientMechanism (State : Type) where
  /-- The name of the mechanism on the wire. -/
  name : State → String
  /-- Answers the server's challenge. -/
  respond : State → Bytes → ClientStep State

/-- The steps of a client that is fed the challenges in order. -/
def ClientMechanism.run {State : Type} [ClientMechanism State] :
    State → List Bytes → List (ClientStep State)
  | _, [] => []
  | state, challenge :: challenges =>
    let step := respond state challenge
    step :: run step.next challenges

end SaslExchange
