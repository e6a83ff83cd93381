import SaslExchange.Bytes
import SaslExchange.Text.Quoted

/-!
# Credentials

What a party knows about the identity that is authenticated. Clients read what they need from
it; servers write the identity that the client claims into it.
-/

namespace SaslExchange

structure Credentials where
  /-- The authentication identity. -/
  username : String := ""
  /-- The password, or the access token of the vendor mechanisms. -/
  password : String := ""
  /-- The digest of `username:realm:password`, which a DIGEST-MD5 server takes for the
  password. -/
  passwordDigest : Bytes := []
  /-- The host that the client authenticates to. -/
  host : String := ""
  /-- The kind of service on that host. -/
  serviceType : String := ""
  /-- The realm that a DIGEST-MD5 server offers. -/
  realm : String := ""
deriving DecidableEq, Inhabited

namespace Credentials

/-! ## Building -/

def withUsername (c : Credentials) (username : String) : Credentials := { c with username }

def withPassword (c : Credentials) (password : String) : Credentials := { c with password }

def withPasswordDigest (c : Credentials) (passwordDigest : Bytes) : Credentials :=
  { c with passwordDigest }

def withHost (c : Credentials) (host : String) : Credentials := { c with host }

def withServiceType (c : Credentials) (serviceType : String) : Credentials :=
  { c with serviceType }

def withRealm (c : Credentials) (realm : String) : Credentials := { c with realm }

/-! ## Showing -/

/-- The fields that may be shown, with their labels. -/
def publicFields (c : Credentials) : List (String × String) :=
  [("username", c.username), ("host", c.host), ("service_type", c.serviceType),
    ("realm", c.realm)]

/-- A label and its quoted value. -/
def renderField (hidden : Char → Bool) (field : String × String) : String :=
  field.1 ++ ": " ++ Quoted.quoteWith hidden field.2

/-- The public fields, each between the same two texts. -/
def renderFields (c : Credentials) (hidden : Char → Bool) (before after : String) : String :=
  String.join (c.publicFields.map fun field => before ++ renderField hidden field ++ after)

/-- The public fields on one line; dots stand for the secrets. -/
def renderWith (c : Credentials) (hidden : Char → Bool) : String :=
  "Credentials \x7b " ++ c.renderFields hidden "" ", " ++ ".. \x7d"

def render (c : Credentials) : String := c.renderWith Quoted.isControl

/-- The public fields on a line each; dots stand for the secrets. -/
def renderLinesWith (c : Credentials) (hidden : Char → Bool) : String :=
  "Credentials \x7b\n" ++ c.renderFields hidden "    " ",\n" ++ "    ..\n\x7d"

def renderLines (c : Credentials) : String := c.renderLinesWith Quoted.isControl

end Credentials

end SaslExchange
