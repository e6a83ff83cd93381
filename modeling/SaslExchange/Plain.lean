import SaslExchange.Exchange.Client
import SaslExchange.Exchange.Server
import SaslExchange.Text.Utf8

/-!
# PLAIN

One message with three fields between zero bytes: the identity to act as, which the client
leaves empty, the identity that authenticates, and its password. The server doesn't check the
password: it hands the fields to its owner.
-/

namespace SaslExchange.Plain

/-- The byte between two fields. -/
def separator : UInt8 := 0

/-- The message of a client that asks to act as nobody else. -/
def message (username password : String) : Bytes :=
  separator :: Utf8.encode username ++ separator :: Utf8.encode password

/-! ## Client -/

structure Client where
  username : String
  password : String
  ended : Bool := false

namespace Client

def ofCredentials (credentials : Credentials) : Client where
  username := credentials.username
  password := credentials.password

def respond (client : Client) (_challenge : Bytes) : ClientStep Client :=
  if client.ended then .fail .invalidState client
  else .reply (.complete (message client.username client.password)) { client with ended := true }

end Client

instance : ClientMechanism Client where
  name _ := "PLAIN"
  respond := Client.respond

/-! ## Server -/

/-- The three fields of a message, each as a text. -/
structure Fields where
  authzid : String
  username : String
  password : String

/-- The fields of a message. A message that is wrong in several ways fails by its first wrong
field. -/
def Fields.ofMessage (payload : Bytes) : Except ServerError Fields :=
  match payload.splitOn separator with
  | [authzid, username, password] =>
    match Utf8.decode? authzid, Utf8.decode? username, Utf8.decode? password with
    | none, _, _ => .error .failedToDecodeMessage
    | _, none, _ => .error .errorDecodingUsername
    | _, _, none => .error .errorDecodingPassword
    | some authzid, some username, some password => .ok ⟨authzid, username, password⟩
  | _ => .error .failedToDecodeMessage

structure Server where
  credentials : Credentials := {}
  /-- The identity that the client asks to act as, empty if none. -/
  authzid : String := ""
  ended : Bool := false
deriving Inhabited

namespace Server

def ofCredentials (credentials : Credentials) : Server where
  credentials := credentials

/-- Asks for the message with an empty challenge as long as the payload is empty, and reads the
first payload that isn't. -/
def respond (server : Server) (payload : Bytes) : ServerStep Server :=
  if server.ended then .fail .sessionAlreadyOver server
  else if payload.isEmpty then .reply (.challenge []) server
  else
    match Fields.ofMessage payload with
    | .error cause => .fail cause { server with ended := true }
    | .ok fields =>
      .reply .inputNeeded
        { credentials := { server.credentials with
            username := fields.username, password := fields.password }
          authzid := fields.authzid
          ended := true }

end Server

instance : ServerMechanism Server where
  name _ := "PLAIN"
  respond := Server.respond
  credentials := Server.credentials
  setCredentials server credentials := { server with credentials }

end SaslExchange.Plain
