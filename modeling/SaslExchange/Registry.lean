import SaslExchange.Anonymous
import SaslExchange.DigestMd5.Client
import SaslExchange.DigestMd5.Server
import SaslExchange.Plain
import SaslExchange.Scram.Client
import SaslExchange.Vendor.XFacebookPlatform
import SaslExchange.Vendor.XMessengerOAuth2
import SaslExchange.Vendor.XOAuth2

/-!
# Mechanisms by name

The mechanisms of both sides, looked up by the name that goes over the wire, in which letter
case counts. A mechanism from here takes its steps as it would alone, and logs one line more
after each: what kind of answer came of it, and how many bytes it has, but never its bytes.
-/

namespace SaslExchange

/-! ## Clients -/

/-- A client of any mechanism. -/
inductive AnyClient
  | scramSha256 (client : Scram.Client .sha256)
  | scramSha1 (client : Scram.Client .sha1)
  | digestMd5 (client : DigestMd5.Client)
  | plain (client : Plain.Client)
  | anonymous (client : Anonymous.Client)
  | xFacebookPlatform (client : XFacebookPlatform.Client)
  | xMessengerOAuth2 (client : XMessengerOAuth2.Client)
  | xOAuth2 (client : XOAuth2.Client)

namespace AnyClient

/-- The names of the clients' mechanisms, the strongest first. -/
def names : List String :=
  ["SCRAM-SHA-256", "SCRAM-SHA-1", "DIGEST-MD5", "PLAIN", "ANONYMOUS", "X-FACEBOOK-PLATFORM",
    "X-MESSENGER-OAUTH2", "X-OAUTH2"]

/-- The client of the mechanism with the given name. Mechanisms without nonces have no use for
the source. -/
def ofName? (name : String) (credentials : Credentials) (nonces : NonceSource) :
    Option AnyClient :=
  match name with
  | "SCRAM-SHA-256" => some (scramSha256 (.ofCredentials credentials nonces))
  | "SCRAM-SHA-1" => some (scramSha1 (.ofCredentials credentials nonces))
  | "DIGEST-MD5" => some (digestMd5 (.ofCredentials credentials nonces))
  | "PLAIN" => some (plain (.ofCredentials credentials))
  | "ANONYMOUS" => some (anonymous (.ofCredentials credentials))
  | "X-FACEBOOK-PLATFORM" => some (xFacebookPlatform (.ofCredentials credentials))
  | "X-MESSENGER-OAUTH2" => some (xMessengerOAuth2 (.ofCredentials credentials))
  | "X-OAUTH2" => some (xOAuth2 (.ofCredentials credentials))
  | _ => none

/-- The client of the mechanism with the given name; an unknown name is logged. -/
def lookup (name : String) (credentials : Credentials) (nonces : NonceSource) :
    Option AnyClient × List Log.Line :=
  match ofName? name credentials nonces with
  | some client => (some client, [])
  | none => (none, [Log.debug ("No client mechanism called " ++ name)])

theorem fst_lookup (name : String) (credentials : Credentials) (nonces : NonceSource) :
    (lookup name credentials nonces).1 = ofName? name credentials nonces := by
  unfold lookup
  cases ofName? name credentials nonces with
  | none => rfl
  | some client => rfl

/-- The client with another source of nonces, if its mechanism has use for one. -/
def withNonces (client : AnyClient) (nonces : NonceSource) : AnyClient :=
  match client with
  | scramSha256 client => scramSha256 (client.withNonces nonces)
  | scramSha1 client => scramSha1 (client.withNonces nonces)
  | digestMd5 client => digestMd5 (client.withNonces nonces)
  | other => other

def name : AnyClient → String
  | scramSha256 _ => "SCRAM-SHA-256"
  | scramSha1 _ => "SCRAM-SHA-1"
  | digestMd5 _ => "DIGEST-MD5"
  | plain _ => "PLAIN"
  | anonymous _ => "ANONYMOUS"
  | xFacebookPlatform _ => "X-FACEBOOK-PLATFORM"
  | xMessengerOAuth2 _ => "X-MESSENGER-OAUTH2"
  | xOAuth2 _ => "X-OAUTH2"

/-- The step that the mechanism takes by itself. -/
def step (client : AnyClient) (challenge : Bytes) : ClientStep AnyClient :=
  match client with
  | scramSha256 client => (ClientMechanism.respond client challenge).map scramSha256
  | scramSha1 client => (ClientMechanism.respond client challenge).map scramSha1
  | digestMd5 client => (ClientMechanism.respond client challenge).map digestMd5
  | plain client => (ClientMechanism.respond client challenge).map plain
  | anonymous client => (ClientMechanism.respond client challenge).map anonymous
  | xFacebookPlatform client => (ClientMechanism.respond client challenge).map xFacebookPlatform
  | xMessengerOAuth2 client => (ClientMechanism.respond client challenge).map xMessengerOAuth2
  | xOAuth2 client => (ClientMechanism.respond client challenge).map xOAuth2

/-- The line that tells the outcome of a step. -/
def outcomeLog (name : String) : Except ClientError ClientReply → Log.Line
  | .ok reply =>
    Log.debug (name ++ " produced " ++ toString reply.payload.length ++ " bytes, " ++
      (if reply.proceeds then "continuing" else "complete"))
  | .error cause =>
    Log.warn (name ++ " client failed: " ++ cause.message ++ " (" ++ cause.kind.description ++ ")")

/-- The mechanism's step, and one line on its outcome. -/
def respond (client : AnyClient) (challenge : Bytes) : ClientStep AnyClient :=
  let step := client.step challenge
  step.andLog [outcomeLog client.name step.answer]

end AnyClient

instance : ClientMechanism AnyClient where
  name := AnyClient.name
  respond := AnyClient.respond

/-! ## Servers -/

/-- A server of any mechanism. -/
inductive AnyServer
  | plain (server : Plain.Server)
  | digestMd5 (server : DigestMd5.Server)
  | anonymous (server : Anonymous.Server)

namespace AnyServer

/-- The names of the servers' mechanisms. -/
def names : List String := ["PLAIN", "DIGEST-MD5", "ANONYMOUS"]

/-- The server of the mechanism with the given name. Mechanisms without nonces have no use for
the source. -/
def ofName? (name : String) (credentials : Credentials) (nonces : NonceSource) :
    Option AnyServer :=
  match name with
  | "PLAIN" => some (plain (.ofCredentials credentials))
  | "DIGEST-MD5" => some (digestMd5 (.ofCredentials credentials nonces))
  | "ANONYMOUS" => some (anonymous (.ofCredentials credentials))
  | _ => none

/-- The server of the mechanism with the given name; an unknown name is logged. -/
def lookup (name : String) (credentials : Credentials) (nonces : NonceSource) :
    Option AnyServer × List Log.Line :=
  match ofName? name credentials nonces with
  | some server => (some server, [])
  | none => (none, [Log.debug ("No server mechanism called " ++ name)])

theorem fst_lookup (name : String) (credentials : Credentials) (nonces : NonceSource) :
    (lookup name credentials nonces).1 = ofName? name credentials nonces := by
  unfold lookup
  cases ofName? name credentials nonces with
  | none => rfl
  | some server => rfl

/-- The server with another source of nonces, if its mechanism has use for one. -/
def withNonces (server : AnyServer) (nonces : NonceSource) : AnyServer :=
  match server with
  | digestMd5 server => digestMd5 (server.withNonces nonces)
  | other => other

/-- The server with other characters hidden in its log, if its mechanism logs any. -/
def withHidden (server : AnyServer) (hidden : Char → Bool) : AnyServer :=
  match server with
  | anonymous server => anonymous (server.withHidden hidden)
  | other => other

def name : AnyServer → String
  | plain _ => "PLAIN"
  | digestMd5 _ => "DIGEST-MD5"
  | anonymous _ => "ANONYMOUS"

/-- The step that the mechanism takes by itself. -/
def step (server : AnyServer) (payload : Bytes) : ServerStep AnyServer :=
  match server with
  | plain server => (ServerMechanism.respond server payload).map plain
  | digestMd5 server => (ServerMechanism.respond server payload).map digestMd5
  | anonymous server => (ServerMechanism.respond server payload).map anonymous

/-- A reply without its bytes. -/
def summary : ServerReply → String
  | .challenge payload => "a " ++ toString payload.length ++ " bytes challenge"
  | .success payload => "success with " ++ toString payload.length ++ " bytes"
  | .inputNeeded => "a request for credentials"

/-- The line that tells the outcome of a step. -/
def outcomeLog (name : String) : Except ServerError ServerReply → Log.Line
  | .ok reply => Log.debug (name ++ " server responded with " ++ summary reply)
  | .error cause =>
    Log.warn (name ++ " server failed: " ++ cause.message ++ " (" ++ cause.kind.description ++ ")")

/-- The mechanism's step, and one line on its outcome. -/
def respond (server : AnyServer) (payload : Bytes) : ServerStep AnyServer :=
  let step := server.step payload
  step.andLog [outcomeLog server.name step.answer]

def credentials : AnyServer → Credentials
  | plain server => ServerMechanism.credentials server
  | digestMd5 server => ServerMechanism.credentials server
  | anonymous server => ServerMechanism.credentials server

def setCredentials (server : AnyServer) (credentials : Credentials) : AnyServer :=
  match server with
  | plain server => plain (ServerMechanism.setCredentials server credentials)
  | digestMd5 server => digestMd5 (ServerMechanism.setCredentials server credentials)
  | anonymous server => anonymous (ServerMechanism.setCredentials server credentials)

end AnyServer

instance : ServerMechanism AnyServer where
  name := AnyServer.name
  respond := AnyServer.respond
  credentials := AnyServer.credentials
  setCredentials := AnyServer.setCredentials

end SaslExchange
