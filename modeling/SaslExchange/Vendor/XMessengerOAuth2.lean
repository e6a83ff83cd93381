import SaslExchange.Base64
import SaslExchange.Credentials
import SaslExchange.Exchange.Client

/-!
# X-MESSENGER-OAUTH2

One message that is an access token, which the client's owner holds as base64 text.
-/

namespace SaslExchange.XMessengerOAuth2

structure Client where
  /-- The token as base64 text. -/
  token : String
  ended : Bool := false

namespace Client

def ofCredentials (credentials : Credentials) : Client where
  token := credentials.password

def respond (client : Client) (_challenge : Bytes) : ClientStep Client :=
  let next := { client with ended := true }
  if client.ended then .fail .invalidState next
  else
    match Base64.decode? client.token with
    | none => .fail .cannotDecodePassword next
    | some token => .reply (.complete token) next

end Client

instance : ClientMechanism Client where
  name _ := "X-MESSENGER-OAUTH2"
  respond := Client.respond

end SaslExchange.XMessengerOAuth2
