import SaslExchange.Bytes

/-!
# Blocks of a message

The three digests read a message alike: it is followed by the byte 0x80, zeros and its length
in bits as eight bytes, so that it fills blocks of sixteen 32-bit words, and each block is
mixed into a chaining state. They differ in the order of bytes in a word.
-/

namespace SaslExchange.Digest

/-! ## Words and bytes -/

inductive ByteOrder
  | bigEndian
  | littleEndian

def ByteOrder.arrange (order : ByteOrder) (bytes : Bytes) : Bytes :=
  match order with
  | .bigEndian => bytes
  | .littleEndian => bytes.reverse

/-- The four bytes of a word. -/
def wordBytes (order : ByteOrder) (w : UInt32) : Bytes :=
  order.arrange [(w >>> 24).toUInt8, (w >>> 16).toUInt8, (w >>> 8).toUInt8, w.toUInt8]

/-- The word of four bytes. -/
def wordOfBytes (order : ByteOrder) (a b c d : UInt8) : UInt32 :=
  match order with
  | .bigEndian => (a.toUInt32 <<< 24) ||| (b.toUInt32 <<< 16) ||| (c.toUInt32 <<< 8) ||| d.toUInt32
  | .littleEndian =>
    (d.toUInt32 <<< 24) ||| (c.toUInt32 <<< 16) ||| (b.toUInt32 <<< 8) ||| a.toUInt32

/-- The words of a byte string, without an incomplete one at the end. -/
def words (order : ByteOrder) : Bytes → List UInt32
  | a :: b :: c :: d :: rest => wordOfBytes order a b c d :: words order rest
  | _ => []

/-! ## Padding -/

/-- The eight bytes of a length in bits. -/
def lengthBytes (order : ByteOrder) (bits : UInt64) : Bytes :=
  order.arrange [(bits >>> 56).toUInt8, (bits >>> 48).toUInt8, (bits >>> 40).toUInt8,
    (bits >>> 32).toUInt8, (bits >>> 24).toUInt8, (bits >>> 16).toUInt8, (bits >>> 8).toUInt8,
    bits.toUInt8]

/-- How many zeros make a message of `length` bytes end eight bytes before the end of a
block. -/
def zeroCount (length : Nat) : Nat := (119 - length % 64) % 64

def pad (order : ByteOrder) (message : Bytes) : Bytes :=
  message ++ 0x80 :: List.replicate (zeroCount message.length) 0 ++
    lengthBytes order (UInt64.ofNat (8 * message.length))

/-- The first `count` groups of sixteen words. -/
def groups : Nat → List UInt32 → List (List UInt32)
  | 0, _ => []
  | count + 1, ws => ws.take 16 :: groups count (ws.drop 16)

/-- The blocks of a padded message. -/
def blocks (order : ByteOrder) (message : Bytes) : List (List UInt32) :=
  let ws := words order (pad order message)
  groups (ws.length / 16) ws

/-! ## Words in a round -/

/-- The bits of a word moved up by `n`, those that leave at the top coming back below. -/
def rotateLeft (w n : UInt32) : UInt32 := (w <<< n) ||| (w >>> (32 - n))

def rotateRight (w n : UInt32) : UInt32 := (w >>> n) ||| (w <<< (32 - n))

/-- Puts `count` further words in front of a list with the latest word first. -/
def extend (next : List UInt32 → UInt32) : Nat → List UInt32 → List UInt32
  | 0, latest => latest
  | count + 1, latest => extend next count (next latest :: latest)

/-! ## Lemmas -/

@[simp] theorem length_wordBytes (order : ByteOrder) (w : UInt32) :
    (wordBytes order w).length = 4 := by
  cases order <;> rfl

end SaslExchange.Digest
