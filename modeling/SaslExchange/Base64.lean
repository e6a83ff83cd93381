import SaslExchange.Bytes

/-!
# Base64

The standard alphabet with padding. Reading is strict: the text is made of groups of four
characters, padding is mandatory and only at the end, and the bits that padding leaves over
are zero. So each byte string has one text.

    decode? (encode bytes) = some bytes              (decode?_encode)
    decode? text = some bytes ↔ text = encode bytes  (decode?_eq_some_iff)
-/

namespace SaslExchange.Base64

/-! ## Algorithm -/

def alphabet : List Char :=
  "ABCDEFGHIJKLMNOPQRSTUVWXYZabcdefghijklmnopqrstuvwxyz0123456789+/".toList

def digit (n : Nat) : Char := alphabet.getD n 'A'

def digitValue? (c : Char) : Option Nat := alphabet.findIdx? (· == c)

/-- Four digits for three bytes, the last group padded. -/
def encodeChars : Bytes → List Char
  | [] => []
  | [a] => [digit (a.toNat / 4), digit (a.toNat % 4 * 16), '=', '=']
  | [a, b] =>
    [digit (a.toNat / 4), digit (a.toNat % 4 * 16 + b.toNat / 16), digit (b.toNat % 16 * 4), '=']
  | a :: b :: c :: rest =>
    digit (a.toNat / 4) :: digit (a.toNat % 4 * 16 + b.toNat / 16) ::
      digit (b.toNat % 16 * 4 + c.toNat / 64) :: digit (c.toNat % 64) :: encodeChars rest

def encode (bytes : Bytes) : String := String.ofList (encodeChars bytes)

/-- One byte from two digits, whose last four bits must be zero. -/
def decodeOne? (a b : Char) : Option Bytes := do
  let m ← digitValue? a
  let n ← digitValue? b
  if n % 16 = 0 then some [UInt8.ofNat (4 * m + n / 16)] else none

/-- Two bytes from three digits, whose last two bits must be zero. -/
def decodeTwo? (a b c : Char) : Option Bytes := do
  let m ← digitValue? a
  let n ← digitValue? b
  let k ← digitValue? c
  if k % 4 = 0 then some [UInt8.ofNat (4 * m + n / 16), UInt8.ofNat (n % 16 * 16 + k / 4)]
  else none

/-- Three bytes from four digits. -/
def decodeThree? (a b c d : Char) : Option Bytes := do
  let m ← digitValue? a
  let n ← digitValue? b
  let k ← digitValue? c
  let l ← digitValue? d
  some [UInt8.ofNat (4 * m + n / 16), UInt8.ofNat (n % 16 * 16 + k / 4),
    UInt8.ofNat (k % 4 * 64 + l)]

def decodeChars? : List Char → Option Bytes
  | [] => some []
  | [a, b, '=', '='] => decodeOne? a b
  | [a, b, c, '='] => decodeTwo? a b c
  | a :: b :: c :: d :: rest => do
    let group ← decodeThree? a b c d
    let bytes ← decodeChars? rest
    some (group ++ bytes)
  | _ => none

/-- The bytes that a text stands for, if it is their canonical text. -/
def decode? (text : String) : Option Bytes := decodeChars? text.toList

/-! ## Lemmas -/

theorem digitValue?_digit : ∀ n < 64, digitValue? (digit n) = some n := by decide +kernel

/-- Beyond the alphabet its first character stands again. -/
theorem exists_digit_eq (n : Nat) : ∃ m < 64, digit n = digit m := by
  rcases Nat.lt_or_ge n 64 with h | h
  · exact ⟨n, h, rfl⟩
  · have hlength : alphabet.length = 64 := by decide
    refine ⟨0, by decide, ?_⟩
    rw [digit, List.getD_eq_getElem?_getD, List.getElem?_eq_none (by omega)]
    decide

theorem digit_ne_equals : ∀ n < 64, digit n ≠ '=' := by decide +kernel

theorem digit_of_digitValue? {c : Char} {n : Nat} (h : digitValue? c = some n) :
    n < 64 ∧ digit n = c := by
  rw [digitValue?, List.findIdx?_eq_some_iff_getElem] at h
  obtain ⟨hlt, heq, -⟩ := h
  have hlen : alphabet.length = 64 := by decide
  refine ⟨by omega, ?_⟩
  simp only [beq_iff_eq] at heq
  rw [digit, List.getD_eq_getElem?_getD, List.getElem?_eq_getElem hlt, Option.getD_some, heq]

theorem decodeOne?_digit (a : UInt8) :
    decodeOne? (digit (a.toNat / 4)) (digit (a.toNat % 4 * 16)) = some [a] := by
  have ha : a.toNat < 256 := a.toNat_lt
  simp only [decodeOne?, digitValue?_digit (a.toNat / 4) (by omega),
    digitValue?_digit (a.toNat % 4 * 16) (by omega), Option.bind_eq_bind, Option.bind_some]
  rw [if_pos (by omega), show 4 * (a.toNat / 4) + a.toNat % 4 * 16 / 16 = a.toNat by omega]
  simp

theorem decodeTwo?_digit (a b : UInt8) :
    decodeTwo? (digit (a.toNat / 4)) (digit (a.toNat % 4 * 16 + b.toNat / 16))
      (digit (b.toNat % 16 * 4)) = some [a, b] := by
  have ha : a.toNat < 256 := a.toNat_lt
  have hb : b.toNat < 256 := b.toNat_lt
  simp only [decodeTwo?, digitValue?_digit (a.toNat / 4) (by omega),
    digitValue?_digit (a.toNat % 4 * 16 + b.toNat / 16) (by omega),
    digitValue?_digit (b.toNat % 16 * 4) (by omega), Option.bind_eq_bind, Option.bind_some]
  rw [if_pos (by omega),
    show 4 * (a.toNat / 4) + (a.toNat % 4 * 16 + b.toNat / 16) / 16 = a.toNat by omega,
    show (a.toNat % 4 * 16 + b.toNat / 16) % 16 * 16 + b.toNat % 16 * 4 / 4 = b.toNat by omega]
  simp

theorem decodeThree?_digit (a b c : UInt8) :
    decodeThree? (digit (a.toNat / 4)) (digit (a.toNat % 4 * 16 + b.toNat / 16))
      (digit (b.toNat % 16 * 4 + c.toNat / 64)) (digit (c.toNat % 64)) = some [a, b, c] := by
  have ha : a.toNat < 256 := a.toNat_lt
  have hb : b.toNat < 256 := b.toNat_lt
  have hc : c.toNat < 256 := c.toNat_lt
  simp only [decodeThree?, digitValue?_digit (a.toNat / 4) (by omega),
    digitValue?_digit (a.toNat % 4 * 16 + b.toNat / 16) (by omega),
    digitValue?_digit (b.toNat % 16 * 4 + c.toNat / 64) (by omega),
    digitValue?_digit (c.toNat % 64) (by omega), Option.bind_eq_bind, Option.bind_some]
  rw [show 4 * (a.toNat / 4) + (a.toNat % 4 * 16 + b.toNat / 16) / 16 = a.toNat by omega,
    show (a.toNat % 4 * 16 + b.toNat / 16) % 16 * 16 +
      (b.toNat % 16 * 4 + c.toNat / 64) / 4 = b.toNat by omega,
    show (b.toNat % 16 * 4 + c.toNat / 64) % 4 * 64 + c.toNat % 64 = c.toNat by omega]
  simp

theorem decodeChars?_encodeChars (bytes : Bytes) :
    decodeChars? (encodeChars bytes) = some bytes := by
  fun_induction encodeChars bytes with
  | case1 => rfl
  | case2 a => rw [decodeChars?, decodeOne?_digit]
  | case3 a b =>
    have hb : b.toNat < 256 := b.toNat_lt
    rw [decodeChars?.eq_3 _ _ _ (digit_ne_equals _ (by omega)), decodeTwo?_digit]
  | case4 a b c rest ih =>
    have hd := digit_ne_equals (c.toNat % 64) (by omega)
    rw [decodeChars?.eq_4 _ _ _ _ _ (fun _ h _ => hd h) (fun h _ => hd h),
      decodeThree?_digit, ih]
    rfl

theorem decode?_encode (bytes : Bytes) : decode? (encode bytes) = some bytes := by
  simp [decode?, encode, decodeChars?_encodeChars]

theorem encodeChars_of_decodeOne? {a b : Char} {bytes : Bytes}
    (h : decodeOne? a b = some bytes) : encodeChars bytes = [a, b, '=', '='] := by
  simp only [decodeOne?, Option.bind_eq_bind, Option.bind_eq_some_iff] at h
  obtain ⟨m, hm, n, hn, h⟩ := h
  obtain ⟨hm64, rfl⟩ := digit_of_digitValue? hm
  obtain ⟨hn64, rfl⟩ := digit_of_digitValue? hn
  split at h
  · obtain rfl := Option.some.inj h
    simp only [encodeChars, UInt8.toNat_ofNat', Nat.reducePow,
      show (4 * m + n / 16) % 256 / 4 = m by omega,
      show (4 * m + n / 16) % 256 % 4 * 16 = n by omega]
  · simp at h

theorem encodeChars_of_decodeTwo? {a b c : Char} {bytes : Bytes}
    (h : decodeTwo? a b c = some bytes) : encodeChars bytes = [a, b, c, '='] := by
  simp only [decodeTwo?, Option.bind_eq_bind, Option.bind_eq_some_iff] at h
  obtain ⟨m, hm, n, hn, k, hk, h⟩ := h
  obtain ⟨hm64, rfl⟩ := digit_of_digitValue? hm
  obtain ⟨hn64, rfl⟩ := digit_of_digitValue? hn
  obtain ⟨hk64, rfl⟩ := digit_of_digitValue? hk
  split at h
  · obtain rfl := Option.some.inj h
    simp only [encodeChars, UInt8.toNat_ofNat', Nat.reducePow,
      show (4 * m + n / 16) % 256 / 4 = m by omega,
      show (4 * m + n / 16) % 256 % 4 * 16 + (n % 16 * 16 + k / 4) % 256 / 16 = n by omega,
      show (n % 16 * 16 + k / 4) % 256 % 16 * 4 = k by omega]
  · simp at h

theorem encodeChars_of_decodeThree? {a b c d : Char} {group : Bytes} (rest : Bytes)
    (h : decodeThree? a b c d = some group) :
    encodeChars (group ++ rest) = a :: b :: c :: d :: encodeChars rest := by
  simp only [decodeThree?, Option.bind_eq_bind, Option.bind_eq_some_iff] at h
  obtain ⟨m, hm, n, hn, k, hk, l, hl, h⟩ := h
  obtain ⟨hm64, rfl⟩ := digit_of_digitValue? hm
  obtain ⟨hn64, rfl⟩ := digit_of_digitValue? hn
  obtain ⟨hk64, rfl⟩ := digit_of_digitValue? hk
  obtain ⟨hl64, rfl⟩ := digit_of_digitValue? hl
  obtain rfl := Option.some.inj h
  simp only [List.cons_append, List.nil_append, encodeChars, UInt8.toNat_ofNat', Nat.reducePow,
    show (4 * m + n / 16) % 256 / 4 = m by omega,
    show (4 * m + n / 16) % 256 % 4 * 16 + (n % 16 * 16 + k / 4) % 256 / 16 = n by omega,
    show (n % 16 * 16 + k / 4) % 256 % 16 * 4 + (k % 4 * 64 + l) % 256 / 64 = k by omega,
    show (k % 4 * 64 + l) % 256 % 64 = l by omega]

theorem eq_encodeChars_of_decodeChars? {text : List Char} {bytes : Bytes}
    (h : decodeChars? text = some bytes) : text = encodeChars bytes := by
  fun_induction decodeChars? text generalizing bytes with
  | case1 => simp_all [encodeChars]
  | case2 a b => exact (encodeChars_of_decodeOne? h).symm
  | case3 a b c => exact (encodeChars_of_decodeTwo? h).symm
  | case4 a b c d rest _ _ ih =>
    simp only [Option.bind_eq_bind, Option.bind_eq_some_iff] at h
    obtain ⟨group, hgroup, tail, htail, h⟩ := h
    obtain rfl := Option.some.inj h
    rw [encodeChars_of_decodeThree? tail hgroup, ih htail]
  | case5 => simp at h

/-- Each byte string has exactly one text that reads as it. -/
theorem decode?_eq_some_iff {text : String} {bytes : Bytes} :
    decode? text = some bytes ↔ text = encode bytes := by
  constructor
  · intro h
    rw [encode, ← eq_encodeChars_of_decodeChars? h, String.ofList_toList]
  · rintro rfl
    exact decode?_encode bytes

end SaslExchange.Base64
