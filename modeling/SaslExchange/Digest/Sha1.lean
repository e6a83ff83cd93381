import SaslExchange.Digest.Blocks

/-!
# SHA-1

    (hash message).length = 20      (length_hash)
-/

namespace SaslExchange.Digest.Sha1

structure State where
  a : UInt32
  b : UInt32
  c : UInt32
  d : UInt32
  e : UInt32

def initial : State := ⟨0x67452301, 0xefcdab89, 0x98badcfe, 0x10325476, 0xc3d2e1f0⟩

/-- The word after those in `latest`, which holds the latest word first. -/
def nextWord (latest : List UInt32) : UInt32 :=
  rotateLeft (latest.getD 2 0 ^^^ latest.getD 7 0 ^^^ latest.getD 13 0 ^^^ latest.getD 15 0) 1

/-- The eighty words of the rounds of a block. -/
def schedule (block : List UInt32) : List UInt32 := (extend nextWord 64 block.reverse).reverse

def choose (b c d : UInt32) : UInt32 := (b &&& c) ||| (~~~b &&& d)

def parity (b c d : UInt32) : UInt32 := b ^^^ c ^^^ d

def majority (b c d : UInt32) : UInt32 := (b &&& c) ||| (b &&& d) ||| (c &&& d)

def round (mix : UInt32 → UInt32 → UInt32 → UInt32) (constant : UInt32) (s : State)
    (word : UInt32) : State :=
  ⟨rotateLeft s.a 5 + mix s.b s.c s.d + s.e + constant + word, s.a, rotateLeft s.b 30, s.c, s.d⟩

/-- Mixes a block into the chaining state, in four times twenty rounds. -/
def compress (s : State) (block : List UInt32) : State :=
  let ws := schedule block
  let t := (ws.take 20).foldl (round choose 0x5a827999) s
  let t := ((ws.drop 20).take 20).foldl (round parity 0x6ed9eba1) t
  let t := ((ws.drop 40).take 20).foldl (round majority 0x8f1bbcdc) t
  let t := ((ws.drop 60).take 20).foldl (round parity 0xca62c1d6) t
  ⟨s.a + t.a, s.b + t.b, s.c + t.c, s.d + t.d, s.e + t.e⟩

def State.toBytes (s : State) : Bytes :=
  [s.a, s.b, s.c, s.d, s.e].flatMap (wordBytes .bigEndian)

def hash (message : Bytes) : Bytes := ((blocks .bigEndian message).foldl compress initial).toBytes

theorem length_hash (message : Bytes) : (hash message).length = 20 := by
  simp [hash, State.toBytes]

end SaslExchange.Digest.Sha1
