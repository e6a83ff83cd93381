import SaslExchange.Digest.Blocks

/-!
# MD5

    (hash message).length = 16      (length_hash)
-/

namespace SaslExchange.Digest.Md5

structure State where
  a : UInt32
  b : UInt32
  c : UInt32
  d : UInt32

def initial : State := ⟨0x67452301, 0xefcdab89, 0x98badcfe, 0x10325476⟩

/-- One operation of a block: its constant, the block's word it adds and its rotation. -/
structure Operation where
  constant : UInt32
  word : Nat
  rotation : UInt32

/-- Sixteen operations. The words they add are `start`, `start + stride`, … modulo sixteen. -/
def operations (start stride : Nat) (rotations constants : List UInt32) : List Operation :=
  (List.range 16).zipWith (fun i constant =>
    ⟨constant, (start + stride * i) % 16, rotations.getD (i % 4) 0⟩) constants

def firstRound : List Operation := operations 0 1 [7, 12, 17, 22] [
  0xd76aa478, 0xe8c7b756, 0x242070db, 0xc1bdceee, 0xf57c0faf, 0x4787c62a, 0xa8304613, 0xfd469501,
  0x698098d8, 0x8b44f7af, 0xffff5bb1, 0x895cd7be, 0x6b901122, 0xfd987193, 0xa679438e, 0x49b40821]

def secondRound : List Operation := operations 1 5 [5, 9, 14, 20] [
  0xf61e2562, 0xc040b340, 0x265e5a51, 0xe9b6c7aa, 0xd62f105d, 0x02441453, 0xd8a1e681, 0xe7d3fbc8,
  0x21e1cde6, 0xc33707d6, 0xf4d50d87, 0x455a14ed, 0xa9e3e905, 0xfcefa3f8, 0x676f02d9, 0x8d2a4c8a]

def thirdRound : List Operation := operations 5 3 [4, 11, 16, 23] [
  0xfffa3942, 0x8771f681, 0x6d9d6122, 0xfde5380c, 0xa4beea44, 0x4bdecfa9, 0xf6bb4b60, 0xbebfbc70,
  0x289b7ec6, 0xeaa127fa, 0xd4ef3085, 0x04881d05, 0xd9d4d039, 0xe6db99e5, 0x1fa27cf8, 0xc4ac5665]

def fourthRound : List Operation := operations 0 7 [6, 10, 15, 21] [
  0xf4292244, 0x432aff97, 0xab9423a7, 0xfc93a039, 0x655b59c3, 0x8f0ccc92, 0xffeff47d, 0x85845dd1,
  0x6fa87e4f, 0xfe2ce6e0, 0xa3014314, 0x4e0811a1, 0xf7537e82, 0xbd3af235, 0x2ad7d2bb, 0xeb86d391]

def operate (mix : UInt32 → UInt32 → UInt32 → UInt32) (block : List UInt32) (s : State)
    (op : Operation) : State :=
  let t := s.a + mix s.b s.c s.d + op.constant + block.getD op.word 0
  ⟨s.d, s.b + rotateLeft t op.rotation, s.b, s.c⟩

/-- Mixes a block into the chaining state. -/
def compress (s : State) (block : List UInt32) : State :=
  let t := firstRound.foldl (operate (fun b c d => (b &&& c) ||| (~~~b &&& d)) block) s
  let t := secondRound.foldl (operate (fun b c d => (b &&& d) ||| (c &&& ~~~d)) block) t
  let t := thirdRound.foldl (operate (fun b c d => b ^^^ c ^^^ d) block) t
  let t := fourthRound.foldl (operate (fun b c d => c ^^^ (b ||| ~~~d)) block) t
  ⟨s.a + t.a, s.b + t.b, s.c + t.c, s.d + t.d⟩

def State.toBytes (s : State) : Bytes :=
  [s.a, s.b, s.c, s.d].flatMap (wordBytes .littleEndian)

def hash (message : Bytes) : Bytes :=
  ((blocks .littleEndian message).foldl compress initial).toBytes

theorem length_hash (message : Bytes) : (hash message).length = 16 := by
  simp [hash, State.toBytes]

end SaslExchange.Digest.Md5
