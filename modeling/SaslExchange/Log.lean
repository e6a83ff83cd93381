/-!
# Log lines

What a step of an exchange reports besides its answer, in order.
-/

namespace SaslExchange.Log

inductive Level
  | debug
  | warn
deriving DecidableEq

def Level.name : Level → String
  | .debug => "DEBUG"
  | .warn => "WARN"

structure Line where
  level : Level
  text : String
deriving DecidableEq

def debug (text : String) : Line := ⟨.debug, text⟩

def warn (text : String) : Line := ⟨.warn, text⟩

end SaslExchange.Log
