/-!
# Quoted text

A text between double quotes, on one line and free of control characters, as log lines and
the rendering of credentials show it. The quote, the backslash, tab, line feed, carriage
return and NUL get a two-character form. Of the others, those that are taken for hidden are
written as their code point in lowercase hexadecimal between braces, and the rest stand for
themselves. The control characters are hidden where nothing else is said.
-/

namespace SaslExchange.Quoted

/-! ## Algorithm -/

/-- The control characters: U+0000 to U+001F and U+007F to U+009F. -/
def isControl (c : Char) : Bool := c.toNat < 0x20 || (0x7F ≤ c.toNat && c.toNat ≤ 0x9F)

/-- How a character is written inside the quotes. -/
def escape (hidden : Char → Bool) (c : Char) : List Char :=
  if c = '"' then ['\\', '"']
  else if c = '\\' then ['\\', '\\']
  else if c = '\t' then ['\\', 't']
  else if c = '\n' then ['\\', 'n']
  else if c = '\r' then ['\\', 'r']
  else if c = '\x00' then ['\\', '0']
  else if hidden c then ['\\', 'u', '\x7b'] ++ Nat.toDigits 16 c.toNat ++ ['\x7d']
  else [c]

/-- The text between double quotes. -/
def quoteWith (hidden : Char → Bool) (text : String) : String :=
  String.ofList ('"' :: text.toList.flatMap (escape hidden) ++ ['"'])

end SaslExchange.Quoted
