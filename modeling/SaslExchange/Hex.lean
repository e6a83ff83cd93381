import SaslExchange.Bytes

/-!
# Hexadecimal text

Two lowercase digits per byte. Reading, which is for callers that have messages as text, takes
either letter case and refuses an odd number of digits.
-/

namespace SaslExchange.Hex

def digits : List Char := "0123456789abcdef".toList

def digit (n : Nat) : Char := digits.getD n '0'

/-- The value of a hexadecimal digit of either letter case. -/
def digitValue? (c : Char) : Option Nat := digits.findIdx? (· == c.toLower)

def encodeChars (bytes : Bytes) : List Char :=
  bytes.flatMap fun b => [digit (b.toNat / 16), digit (b.toNat % 16)]

/-- Two lowercase hexadecimal digits per byte. -/
def encode (bytes : Bytes) : String := String.ofList (encodeChars bytes)

def decodeChars? : List Char → Option Bytes
  | [] => some []
  | [_] => none
  | high :: low :: rest =>
    match digitValue? high, digitValue? low, decodeChars? rest with
    | some h, some l, some bytes => some (UInt8.ofNat (16 * h + l) :: bytes)
    | _, _, _ => none

/-- The bytes that a text of hexadecimal digits stands for. -/
def decode? (text : String) : Option Bytes := decodeChars? text.toList

end SaslExchange.Hex
