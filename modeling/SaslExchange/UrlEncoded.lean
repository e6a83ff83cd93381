import SaslExchange.Bytes
import SaslExchange.Text.Utf8

/-!
# Form-urlencoded pairs

`name=value` pairs joined by `&`. Writing keeps letters, digits and `*-._`, writes a space as
`+` and any other byte as `%` and two uppercase hexadecimal digits. Reading never fails: an
empty sequence is skipped, a sequence without `=` is a name with an empty value, a `%` that
two digits don't follow stands for itself, and ill-formed UTF-8 reads as U+FFFD.

    decodeBytes (encodeBytes bytes) = bytes      (decodeBytes_encodeBytes)
    parse (serialize pairs) = pairs              (parse_serialize)
-/

namespace SaslExchange.UrlEncoded

/-! ## Algorithm -/

/-- The bytes that stand for themselves in a written name or value. -/
def isUnreserved (b : UInt8) : Bool :=
  b = 0x2A || b = 0x2D || b = 0x2E || b = 0x5F || (0x30 ≤ b && b ≤ 0x39) ||
    (0x41 ≤ b && b ≤ 0x5A) || (0x61 ≤ b && b ≤ 0x7A)

/-- The uppercase hexadecimal digit of a number below sixteen. -/
def hexDigit (n : Nat) : UInt8 := UInt8.ofNat (if n < 10 then 0x30 + n else 0x37 + n)

/-- The value of a hexadecimal digit of either letter case. -/
def hexValue? (b : UInt8) : Option Nat :=
  if 0x30 ≤ b ∧ b ≤ 0x39 then some (b.toNat - 0x30)
  else if 0x41 ≤ b ∧ b ≤ 0x46 then some (b.toNat - 0x37)
  else if 0x61 ≤ b ∧ b ≤ 0x66 then some (b.toNat - 0x57)
  else none

def encodeByte (b : UInt8) : Bytes :=
  if isUnreserved b then [b]
  else if b = Ascii.space then [Ascii.plus]
  else [Ascii.percent, hexDigit (b.toNat / 16), hexDigit (b.toNat % 16)]

def encodeBytes (bytes : Bytes) : Bytes := bytes.flatMap encodeByte

/-- The byte that `%` and two digits stand for. -/
def escaped? (high low : UInt8) : Option UInt8 := do
  let h ← hexValue? high
  let l ← hexValue? low
  some (UInt8.ofNat (16 * h + l))

/-- Reads each `%` and two digits as one byte. -/
def percentDecode : Bytes → Bytes
  | [] => []
  | [b] => [b]
  | [a, b] => [a, b]
  | b :: high :: low :: rest =>
    if b = Ascii.percent then
      match escaped? high low with
      | some value => value :: percentDecode rest
      | none => b :: percentDecode (high :: low :: rest)
    else b :: percentDecode (high :: low :: rest)

def plusToSpace (bytes : Bytes) : Bytes :=
  bytes.map fun b => if b = Ascii.plus then Ascii.space else b

def decodeBytes (bytes : Bytes) : Bytes := percentDecode (plusToSpace bytes)

def decodeText (bytes : Bytes) : String := Utf8.decodeLossy (decodeBytes bytes)

/-- The name and value of one sequence between `&`. -/
def parsePair (piece : Bytes) : String × String :=
  match Bytes.cut? Ascii.equals piece with
  | some (name, value) => (decodeText name, decodeText value)
  | none => (decodeText piece, "")

/-- The pairs of a byte string, in order. -/
def parse (bytes : Bytes) : List (String × String) :=
  ((bytes.splitOn Ascii.ampersand).filter (!·.isEmpty)).map parsePair

def encodePair (pair : String × String) : Bytes :=
  encodeBytes (Utf8.encode pair.1) ++ Ascii.equals :: encodeBytes (Utf8.encode pair.2)

/-- The pairs written in order. -/
def serialize (pairs : List (String × String)) : Bytes :=
  Bytes.joinWith Ascii.ampersand (pairs.map encodePair)

/-- The value of the last pair with the given name. -/
def last? (name : String) (pairs : List (String × String)) : Option String :=
  (pairs.reverse.find? (·.1 = name)).map (·.2)

/-! ## Lemmas -/

theorem hexValue?_hexDigit : ∀ n < 16, hexValue? (hexDigit n) = some n := by decide

theorem isUnreserved_hexDigit : ∀ n < 16, isUnreserved (hexDigit n) = true := by decide

theorem ne_of_isUnreserved {b : UInt8} (h : isUnreserved b = true) :
    b ≠ Ascii.plus ∧ b ≠ Ascii.percent ∧ b ≠ Ascii.ampersand ∧ b ≠ Ascii.equals := by
  refine ⟨?_, ?_, ?_, ?_⟩ <;> rintro rfl <;> exact absurd h (by decide)

/-- Writing uses the unreserved bytes, `+` and `%`. -/
theorem isUnreserved_or_of_mem_encodeByte {b x : UInt8} (h : x ∈ encodeByte b) :
    isUnreserved x = true ∨ x = Ascii.plus ∨ x = Ascii.percent := by
  have hb : b.toNat < 256 := b.toNat_lt
  have hhigh := isUnreserved_hexDigit (b.toNat / 16) (by omega)
  have hlow := isUnreserved_hexDigit (b.toNat % 16) (by omega)
  unfold encodeByte at h
  split at h
  · simp_all
  · split at h
    · simp_all
    · simp only [List.mem_cons, List.not_mem_nil, or_false] at h
      rcases h with rfl | rfl | rfl
      · simp
      · exact .inl hhigh
      · exact .inl hlow

theorem isUnreserved_or_of_mem_encodeBytes {bytes : Bytes} {x : UInt8}
    (h : x ∈ encodeBytes bytes) :
    isUnreserved x = true ∨ x = Ascii.plus ∨ x = Ascii.percent := by
  obtain ⟨b, -, hb⟩ := List.mem_flatMap.1 h
  exact isUnreserved_or_of_mem_encodeByte hb

theorem ampersand_notMem_encodeBytes (bytes : Bytes) : Ascii.ampersand ∉ encodeBytes bytes := by
  intro h
  rcases isUnreserved_or_of_mem_encodeBytes h with h | h | h
  · exact (ne_of_isUnreserved h).2.2.1 rfl
  · exact absurd h (by decide)
  · exact absurd h (by decide)

theorem equals_notMem_encodeBytes (bytes : Bytes) : Ascii.equals ∉ encodeBytes bytes := by
  intro h
  rcases isUnreserved_or_of_mem_encodeBytes h with h | h | h
  · exact (ne_of_isUnreserved h).2.2.2 rfl
  · exact absurd h (by decide)
  · exact absurd h (by decide)

theorem percentDecode_cons_of_ne {b : UInt8} (h : b ≠ Ascii.percent) (rest : Bytes) :
    percentDecode (b :: rest) = b :: percentDecode rest := by
  match rest with
  | [] => rfl
  | [_] => rfl
  | _ :: _ :: _ => rw [percentDecode, if_neg h]

theorem escaped?_hexDigit (b : UInt8) :
    escaped? (hexDigit (b.toNat / 16)) (hexDigit (b.toNat % 16)) = some b := by
  have hb : b.toNat < 256 := b.toNat_lt
  rw [escaped?, hexValue?_hexDigit _ (by omega), hexValue?_hexDigit _ (by omega)]
  simp only [Option.bind_eq_bind, Option.bind_some,
    show 16 * (b.toNat / 16) + b.toNat % 16 = b.toNat by omega]
  simp

theorem plusToSpace_append (a b : Bytes) :
    plusToSpace (a ++ b) = plusToSpace a ++ plusToSpace b := List.map_append

theorem decodeBytes_encodeByte_append (b : UInt8) (rest : Bytes) :
    decodeBytes (encodeByte b ++ rest) = b :: decodeBytes rest := by
  have hb : b.toNat < 256 := b.toNat_lt
  rw [decodeBytes, plusToSpace_append, decodeBytes]
  unfold encodeByte
  split
  · next h =>
    have hne := ne_of_isUnreserved h
    simp [plusToSpace, hne.1, percentDecode_cons_of_ne hne.2.1]
  · split
    · next h =>
      subst h
      exact percentDecode_cons_of_ne (b := Ascii.space) (by decide) _
    · have hhigh := (ne_of_isUnreserved (isUnreserved_hexDigit (b.toNat / 16) (by omega))).1
      have hlow := (ne_of_isUnreserved (isUnreserved_hexDigit (b.toNat % 16) (by omega))).1
      have hpercent : Ascii.percent ≠ Ascii.plus := by decide
      simp only [plusToSpace, List.map_cons, List.map_nil, hpercent, hhigh, hlow, ↓reduceIte,
        List.cons_append, List.nil_append, percentDecode, escaped?_hexDigit]

theorem decodeBytes_encodeBytes (bytes : Bytes) : decodeBytes (encodeBytes bytes) = bytes := by
  induction bytes with
  | nil => rfl
  | cons b rest ih =>
    rw [encodeBytes, List.flatMap_cons, decodeBytes_encodeByte_append]
    exact congrArg (b :: ·) ih

theorem decodeText_encodeBytes (text : String) :
    decodeText (encodeBytes (Utf8.encode text)) = text := by
  rw [decodeText, decodeBytes_encodeBytes, Utf8.decodeLossy_encode]

theorem parsePair_encodePair (pair : String × String) : parsePair (encodePair pair) = pair := by
  rw [parsePair, encodePair, Bytes.cut?_append _ (equals_notMem_encodeBytes _)]
  simp [decodeText_encodeBytes]

theorem ampersand_notMem_encodePair (pair : String × String) :
    Ascii.ampersand ∉ encodePair pair := by
  have hne : Ascii.ampersand ≠ Ascii.equals := by decide
  simp [encodePair, ampersand_notMem_encodeBytes, hne]

/-- What is written reads as the same pairs in the same order. -/
theorem parse_serialize (pairs : List (String × String)) : parse (serialize pairs) = pairs := by
  cases pairs with
  | nil => rfl
  | cons pair pairs =>
    rw [parse, serialize, Bytes.joinWith, List.splitOn_intercalate _ _ (by simp)]
    · rw [List.filter_eq_self.2, List.map_map]
      · simp [Function.comp_def, parsePair_encodePair]
      · simp only [List.mem_map, forall_exists_index, and_imp, forall_apply_eq_imp_iff₂]
        intro p _
        simp [encodePair]
    · simp only [List.mem_map, forall_exists_index, and_imp, forall_apply_eq_imp_iff₂]
      exact fun p _ => ampersand_notMem_encodePair p

end SaslExchange.UrlEncoded
