import SaslExchange.Exchange.Client
import SaslExchange.Exchange.Server
import SaslExchange.Text.Quoted
import SaslExchange.Text.Utf8

/-!
# ANONYMOUS

The client sends an empty message; the server accepts any message and logs one that isn't
empty as the trace of a visitor, quoted. Which characters quoting hides is not up to the
mechanism.
-/

namespace SaslExchange.Anonymous

/-! ## Client -/

structure Client where
  ended : Bool := false

namespace Client

def ofCredentials (_credentials : Credentials) : Client := {}

def respond (client : Client) (_challenge : Bytes) : ClientStep Client :=
  if client.ended then .fail .invalidState client
  else .reply (.complete []) { client with ended := true }

end Client

instance : ClientMechanism Client where
  name _ := "ANONYMOUS"
  respond := Client.respond

/-! ## Server -/

structure Server where
  credentials : Credentials := {}
  ended : Bool := false
  /-- The characters of a trace that are logged as their code points. -/
  hidden : Char → Bool := Quoted.isControl
deriving Inhabited

/-- The log line for the trace that a visitor leaves, if any. -/
def traceLog (hidden : Char → Bool) (payload : Bytes) : List Log.Line :=
  if payload.isEmpty then []
  else
    let trace := Quoted.quoteWith hidden (Utf8.decodeLossy payload)
    [Log.debug ("Anonymous login with trace " ++ trace)]

namespace Server

def ofCredentials (credentials : Credentials) : Server where
  credentials := credentials

/-- The server that hides other characters. -/
def withHidden (server : Server) (hidden : Char → Bool) : Server := { server with hidden }

def respond (server : Server) (payload : Bytes) : ServerStep Server :=
  if server.ended then .fail .sessionAlreadyOver server
  else .reply (.success []) { server with ended := true } (traceLog server.hidden payload)

end Server

instance : ServerMechanism Server where
  name _ := "ANONYMOUS"
  respond := Server.respond
  credentials := Server.credentials
  setCredentials server credentials := { server with credentials }

end SaslExchange.Anonymous
