import SaslExchange.Credentials
import SaslExchange.Exchange.Client
import SaslExchange.UrlEncoded

/-!
# X-FACEBOOK-PLATFORM

The server's challenge is a form with a `method` and a `nonce`; the client answers with a form
that repeats both beside the application's key and access token.
-/

namespace SaslExchange.XFacebookPlatform

inductive State
  | start
  | awaitingForm
  | ended
deriving DecidableEq

structure Client where
  /-- The application's key. -/
  apiKey : String
  accessToken : String
  state : State := .start

/-- The pairs of the answer to a form. -/
def answer (apiKey accessToken method nonce : String) : List (String × String) :=
  [("access_token", accessToken), ("api_key", apiKey), ("call_id", ""), ("method", method),
    ("nonce", nonce), ("v", "1.0")]

namespace Client

def ofCredentials (credentials : Credentials) : Client where
  apiKey := credentials.username
  accessToken := credentials.password

/-- The answer to the server's form. -/
def fill (client : Client) (form : List (String × String)) : Except ClientError Bytes :=
  match UrlEncoded.last? "method" form, UrlEncoded.last? "nonce" form with
  | none, _ => .error (.missingChallengeParameter "method")
  | some _, none => .error (.missingChallengeParameter "nonce")
  | some method, some nonce =>
    .ok (UrlEncoded.serialize (answer client.apiKey client.accessToken method nonce))

def respond (client : Client) (challenge : Bytes) : ClientStep Client :=
  match client.state with
  | .start => .reply (.proceed []) { client with state := .awaitingForm }
  | .awaitingForm =>
    match client.fill (UrlEncoded.parse challenge) with
    | .error cause => .fail cause { client with state := .ended }
    | .ok payload => .reply (.complete payload) { client with state := .ended }
  | .ended => .fail .invalidState client

end Client

instance : ClientMechanism Client where
  name _ := "X-FACEBOOK-PLATFORM"
  respond := Client.respond

end SaslExchange.XFacebookPlatform
