import SaslExchange.Bytes

/-!
# UTF-8

A byte string is read as a list of segments: scalar values in their well-formed encoding, and
ill-formed stretches, each as long as the longest start of a well-formed sequence found there
(one byte where no sequence can start). Strict decoding stops at the first ill-formed stretch
and says where it is; lossy decoding replaces each stretch by U+FFFD.

    segments (encode text ++ rest) = text's scalars ++ segments rest      (segments_encode_append)
    decode bytes = ok text ↔ encode text = bytes                          (decode_eq_ok_iff)
    decodeLossy (encode text) = text                                      (decodeLossy_encode)
-/

namespace SaslExchange.Utf8

/-! ## Encoding -/

/-- The UTF-8 bytes of a text. -/
def encode (text : String) : Bytes := text.toList.flatMap String.utf8EncodeChar

/-! ## Segments -/

/-- A stretch of a byte string. -/
inductive Segment
  /-- A scalar value in its encoding. -/
  | scalar (c : Char)
  /-- Bytes that no well-formed sequence starts with. -/
  | invalid (length : Nat)
  /-- The start of a well-formed sequence, at the end of the input. -/
  | truncated (length : Nat)
deriving DecidableEq

/-- The scalar value whose encoding `bytes` starts with. -/
def firstScalar? (bytes : Bytes) : Option Char := bytes.toByteArray.utf8DecodeChar? 0

/-- What a first byte asks for: how many bytes follow it, and the range of the next one, which
excludes overlong forms, surrogates and values above U+10FFFF. -/
structure Lead where
  following : Nat
  low : UInt8
  high : UInt8

def lead? (b : UInt8) : Option Lead :=
  if 0xC2 ≤ b ∧ b ≤ 0xDF then some ⟨1, 0x80, 0xBF⟩
  else if b = 0xE0 then some ⟨2, 0xA0, 0xBF⟩
  else if b = 0xED then some ⟨2, 0x80, 0x9F⟩
  else if 0xE1 ≤ b ∧ b ≤ 0xEF then some ⟨2, 0x80, 0xBF⟩
  else if b = 0xF0 then some ⟨3, 0x90, 0xBF⟩
  else if 0xF1 ≤ b ∧ b ≤ 0xF3 then some ⟨3, 0x80, 0xBF⟩
  else if b = 0xF4 then some ⟨3, 0x80, 0x8F⟩
  else none

def isContinuation (b : UInt8) : Bool := 0x80 ≤ b && b ≤ 0xBF

/-- The bytes of `rest` that continue a sequence with the given lead, up to the first one that
cannot. -/
def continued (lead : Lead) (rest : Bytes) : Bytes :=
  match rest with
  | [] => []
  | b :: rest =>
    if lead.low ≤ b ∧ b ≤ lead.high then
      b :: (rest.take (lead.following - 1)).takeWhile isContinuation
    else []

/-- The ill-formed stretch that starts with `first`, where no encoded scalar value starts. -/
def illFormed (first : UInt8) (rest : Bytes) : Segment :=
  match lead? first with
  | none => .invalid 1
  | some lead =>
    let length := (continued lead rest).length
    if length = rest.length then .truncated (length + 1) else .invalid (length + 1)

/-- How many bytes a segment covers. -/
def Segment.width : Segment → Nat
  | .scalar c => c.utf8Size
  | .invalid length => length
  | .truncated length => length

/-- The segment at the front of `first :: rest`. -/
def firstSegment (first : UInt8) (rest : Bytes) : Segment :=
  match firstScalar? (first :: rest.take 3) with
  | some c => .scalar c
  | none => illFormed first rest

/-- The segments of a byte string, in order. -/
def segments : Bytes → List Segment
  | [] => []
  | first :: rest =>
    let segment := firstSegment first rest
    segment :: segments (rest.drop (segment.width - 1))
termination_by bytes => bytes.length
decreasing_by
  simp only [List.length_drop, List.length_cons]
  omega

/-! ## Decoding -/

/-- Where and how a byte string stops being well-formed. -/
inductive Defect
  /-- At `index` stand `length` bytes that no well-formed sequence starts with. -/
  | invalid (length index : Nat)
  /-- The input ends inside the sequence that starts at `index`. -/
  | truncated (index : Nat)
deriving DecidableEq

def Defect.message : Defect → String
  | .invalid length index =>
    "invalid utf-8 sequence of " ++ toString length ++ " bytes from index " ++ toString index
  | .truncated index => "incomplete utf-8 byte sequence from index " ++ toString index

/-- The scalar values of segments that start at `index`. -/
def scalars (index : Nat) : List Segment → Except Defect (List Char)
  | [] => .ok []
  | .scalar c :: rest =>
    match scalars (index + c.utf8Size) rest with
    | .ok text => .ok (c :: text)
    | .error defect => .error defect
  | .invalid length :: _ => .error (.invalid length index)
  | .truncated _ :: _ => .error (.truncated index)

/-- The text that a well-formed byte string encodes. -/
def decode (bytes : Bytes) : Except Defect String := (scalars 0 (segments bytes)).map String.ofList

def decode? (bytes : Bytes) : Option String := (decode bytes).toOption

def Segment.lossy : Segment → Char
  | .scalar c => c
  | .invalid _ => '\uFFFD'
  | .truncated _ => '\uFFFD'

/-- The text of any byte string, with one U+FFFD for each ill-formed stretch. -/
def decodeLossy (bytes : Bytes) : String := String.ofList ((segments bytes).map Segment.lossy)

/-! ## Lemmas -/

theorem encode_ofList (text : List Char) :
    encode (String.ofList text) = text.flatMap String.utf8EncodeChar := by
  simp [encode]

theorem encode_append (a b : String) : encode (a ++ b) = encode a ++ encode b := by
  simp [encode]

theorem firstScalar?_append (c : Char) (rest : Bytes) :
    firstScalar? (String.utf8EncodeChar c ++ rest) = some c := by
  rw [firstScalar?, List.toByteArray_append]
  exact ByteArray.utf8DecodeChar?_utf8EncodeChar_append

theorem eq_append_of_firstScalar? {bytes : Bytes} {c : Char} (h : firstScalar? bytes = some c) :
    ∃ rest, bytes = String.utf8EncodeChar c ++ rest := by
  obtain ⟨tail, htail⟩ := ByteArray.exists_of_utf8DecodeChar?_eq_some h
  refine ⟨tail.data.toList, ?_⟩
  have hdata := congrArg (fun b : ByteArray => b.data.toList) htail
  simpa using hdata

theorem firstSegment_utf8EncodeChar (c : Char) {first : UInt8} {tail rest : Bytes}
    (h : String.utf8EncodeChar c ++ rest = first :: tail) :
    firstSegment first tail = .scalar c := by
  have htake : first :: tail.take 3 =
      String.utf8EncodeChar c ++ rest.take (4 - c.utf8Size) := by
    have := congrArg (List.take 4) h
    rw [List.take_succ_cons] at this
    rw [← this, List.take_append, String.length_utf8EncodeChar,
      List.take_of_length_le (by rw [String.length_utf8EncodeChar]; exact c.utf8Size_le_four)]
  rw [firstSegment, htake, firstScalar?_append]

theorem segments_utf8EncodeChar_append (c : Char) (rest : Bytes) :
    segments (String.utf8EncodeChar c ++ rest) = .scalar c :: segments rest := by
  match h : String.utf8EncodeChar c ++ rest with
  | [] =>
    have hlen := congrArg List.length h
    have := c.utf8Size_pos
    simp only [List.length_append, String.length_utf8EncodeChar, List.length_nil] at hlen
    omega
  | first :: tail =>
    rw [segments, firstSegment_utf8EncodeChar c h]
    have hpos := c.utf8Size_pos
    have hdrop : tail.drop (c.utf8Size - 1) = rest := by
      rw [show tail = (first :: tail).drop 1 from rfl, List.drop_drop, ← h,
        show 1 + (c.utf8Size - 1) = (String.utf8EncodeChar c).length by
          rw [String.length_utf8EncodeChar]; omega]
      exact List.drop_left
    simp only [Segment.width, hdrop]

theorem segments_encodeChars_append (text : List Char) (rest : Bytes) :
    segments (text.flatMap String.utf8EncodeChar ++ rest) =
      text.map .scalar ++ segments rest := by
  induction text with
  | nil => rfl
  | cons c text ih =>
    rw [List.flatMap_cons, List.append_assoc, segments_utf8EncodeChar_append, ih]
    rfl

/-- Encoding never hides a scalar value, whatever follows. -/
theorem segments_encode_append (text : String) (rest : Bytes) :
    segments (encode text ++ rest) = text.toList.map .scalar ++ segments rest :=
  segments_encodeChars_append text.toList rest

theorem segments_encode (text : String) : segments (encode text) = text.toList.map .scalar := by
  have h := segments_encode_append text []
  simpa [segments] using h

theorem scalars_map_scalar (index : Nat) (text : List Char) :
    scalars index (text.map .scalar) = .ok text := by
  induction text generalizing index with
  | nil => rfl
  | cons c text ih => simp [scalars, ih]

theorem eq_map_of_scalars {index : Nat} {parts : List Segment} {text : List Char}
    (h : scalars index parts = .ok text) : parts = text.map .scalar := by
  induction parts generalizing index text with
  | nil => simp_all [scalars]
  | cons part rest ih =>
    cases part with
    | scalar c =>
      rw [scalars] at h
      split at h
      · next tail htail =>
        obtain rfl : c :: tail = text := by simpa using h
        simp [ih htail]
      · simp at h
    | invalid length => simp [scalars] at h
    | truncated length => simp [scalars] at h

theorem eq_encode_of_segments {bytes : Bytes} {text : List Char}
    (h : segments bytes = text.map .scalar) : bytes = text.flatMap String.utf8EncodeChar := by
  induction text generalizing bytes with
  | nil =>
    cases bytes with
    | nil => rfl
    | cons first rest => simp [segments] at h
  | cons c text ih =>
    match bytes with
    | [] => simp [segments] at h
    | first :: rest =>
      rw [segments, List.map_cons, List.cons.injEq] at h
      obtain ⟨hfirst, hrest⟩ := h
      have hscalar : firstScalar? (first :: rest.take 3) = some c := by
        rw [firstSegment] at hfirst
        split at hfirst
        · next d hd => simpa [hd] using hfirst
        · rw [illFormed] at hfirst
          split at hfirst
          · simp at hfirst
          · dsimp only at hfirst
            split at hfirst <;> simp at hfirst
      obtain ⟨tail, htail⟩ := eq_append_of_firstScalar? hscalar
      have happ : first :: rest = String.utf8EncodeChar c ++ (tail ++ rest.drop 3) := by
        rw [← List.append_assoc, ← htail, List.cons_append, List.take_append_drop]
      have hseg := segments_utf8EncodeChar_append c (tail ++ rest.drop 3)
      rw [← happ, segments, List.cons.injEq] at hseg
      rw [happ, List.flatMap_cons, ih (hseg.2.symm.trans hrest)]

/-- A byte string decodes to the one text whose encoding it is. -/
theorem decode_eq_ok_iff {bytes : Bytes} {text : String} :
    decode bytes = .ok text ↔ encode text = bytes := by
  constructor
  · intro h
    rw [decode] at h
    cases hs : scalars 0 (segments bytes) with
    | error defect => simp [hs, Except.map] at h
    | ok chars =>
      simp only [hs, Except.map, Except.ok.injEq] at h
      subst h
      rw [encode_ofList]
      exact (eq_encode_of_segments (eq_map_of_scalars hs)).symm
  · rintro rfl
    simp [decode, segments_encode, scalars_map_scalar, Except.map]

theorem decode?_eq_some_iff {bytes : Bytes} {text : String} :
    decode? bytes = some text ↔ encode text = bytes := by
  rw [decode?, ← decode_eq_ok_iff]
  cases decode bytes <;> simp [Except.toOption]

theorem decode_encode (text : String) : decode (encode text) = .ok text := decode_eq_ok_iff.2 rfl

theorem decode?_encode (text : String) : decode? (encode text) = some text :=
  decode?_eq_some_iff.2 rfl

theorem encode_injective {a b : String} (h : encode a = encode b) : a = b := by
  have ha := decode?_encode a
  rw [h, decode?_encode] at ha
  simpa using ha.symm

theorem decodeLossy_encode (text : String) : decodeLossy (encode text) = text := by
  simp [decodeLossy, segments_encode, Function.comp_def, Segment.lossy]

end SaslExchange.Utf8
