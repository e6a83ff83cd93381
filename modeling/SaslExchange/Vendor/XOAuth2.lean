import SaslExchange.Plain

/-!
# X-OAUTH2

The message of PLAIN, with an access token in the place of the password.
-/

namespace SaslExchange.XOAuth2

structure Client where
  username : String
  token : String
  ended : Bool := false

namespace Client

def ofCredentials (credentials : Credentials) : Client where
  username := credentials.username
  token := credentials.password

def respond (client : Client) (_challenge : Bytes) : ClientStep Client :=
  if client.ended then .fail .invalidState client
  else
    .reply (.complete (Plain.message client.username client.token)) { client with ended := true }

end Client

instance : ClientMechanism Client where
  name _ := "X-OAUTH2"
  respond := Client.respond

end SaslExchange.XOAuth2
