import SaslExchange.Proofs.DigestMd5.RoundTrip
import Mathlib.Logic.ExistsUnique

/-!
# The grammar of attribute lists

Every byte string is a list of attributes in exactly one way: a row of entries, each with a comma
after it, and an ending. The list is complete when the ending is a text without `=` or one last
entry. Otherwise a quoted value that doesn't close cuts it short, or a byte after a closing quote
that is neither a comma nor a blank. The reader takes the entries of this one way, and warns of a
list that was cut short.

    each message is the text of a list                        (ListText.exists_bytes)
    no two lists have the same text                        (ListText.bytes_injective)
    reading the text of a list yields its entries               (ListText.read_bytes)
    all three, with the attributes and the warnings                 (decides_grammar)
-/

namespace SaslExchange.DigestMd5.AttributeList

/-! ## Texts -/

/-- What stands between the quotes of a value is made of bytes without a role of their own, and
of pairs of a backslash and any byte. -/
inductive Piece
  | byte (b : UInt8) (hquote : b ≠ Ascii.quote) (hbackslash : b ≠ Ascii.backslash)
  | pair (b : UInt8)

def Piece.bytes : Piece → Bytes
  | byte b _ _ => [b]
  | pair b => [Ascii.backslash, b]

/-- A backslash is dropped before a quote and before a backslash, and kept before all else. -/
def Piece.value : Piece → Bytes
  | byte b _ _ => [b]
  | pair b =>
    if b = Ascii.quote then [Ascii.quote]
    else if b = Ascii.backslash then [Ascii.backslash]
    else [Ascii.backslash, b]

/-- A quoted value, with the blanks after its closing quote. -/
structure QuotedText where
  body : List Piece
  blanks : Bytes
  hblanks : ∀ b ∈ blanks, Bytes.isBlank b = true

def QuotedText.bytes (text : QuotedText) : Bytes :=
  Ascii.quote :: text.body.flatMap Piece.bytes ++ Ascii.quote :: text.blanks

def QuotedText.value (text : QuotedText) : Bytes := text.body.flatMap Piece.value

/-- A value as it stands in a list. -/
inductive ValueText
  | bare (value : Bytes) (hcomma : Ascii.comma ∉ value)
      (hquote : value.head? ≠ some Ascii.quote)
  | quoted (text : QuotedText)

def ValueText.bytes : ValueText → Bytes
  | bare value _ _ => value
  | quoted text => text.bytes

def ValueText.value : ValueText → Bytes
  | bare value _ _ => value
  | quoted text => text.value

/-- A text without `=`, such as stands before the `=` of an entry. -/
abbrev EqualsFree := { text : Bytes // Ascii.equals ∉ text }

/-- An entry as it stands in a list. -/
structure EntryText where
  key : EqualsFree
  value : ValueText

def EntryText.bytes (text : EntryText) : Bytes :=
  text.key.1 ++ Ascii.equals :: text.value.bytes

def EntryText.entry (text : EntryText) : Entry := (Bytes.trim text.key.1, text.value.value)

/-- The backslash that may be left over at the end of a value that doesn't close. -/
def loneBackslash (lone : Bool) : Bytes := if lone then [Ascii.backslash] else []

/-- What follows the `=` of the last entry. -/
inductive LastText
  /-- A value that reaches to the end of the message. -/
  | value (text : ValueText)
  /-- A quoted value that doesn't close. -/
  | unfinished (body : List Piece) (lone : Bool)
  /-- A quoted value with `b` after it, which is no comma. -/
  | garbage (text : QuotedText) (b : UInt8) (hcomma : b ≠ Ascii.comma)
      (hblank : Bytes.isBlank b = false) (rest : Bytes)

namespace LastText

def bytes : LastText → Bytes
  | value text => text.bytes
  | unfinished body lone => Ascii.quote :: (body.flatMap Piece.bytes ++ loneBackslash lone)
  | garbage text b _ _ rest => text.bytes ++ b :: rest

/-- The value, unless it doesn't close. -/
def value? : LastText → Option Bytes
  | value text => some text.value
  | unfinished _ _ => none
  | garbage text _ _ _ _ => some text.value

def warnings : LastText → List Log.Line
  | value _ => []
  | unfinished _ _ => [Log.warn "Unfinished quoted string in DIGEST-MD5 message"]
  | garbage _ _ _ _ _ => [Log.warn "Garbage after quoted string in DIGEST-MD5 message"]

end LastText

/-- What comes after the last comma that ends an entry. -/
inductive Ending
  | tail (text : EqualsFree)
  | entry (key : EqualsFree) (text : LastText)

namespace Ending

def bytes : Ending → Bytes
  | tail text => text.1
  | entry key text => key.1 ++ Ascii.equals :: text.bytes

/-- The entry that the ending still holds, if any. -/
def entry? : Ending → Option Entry
  | tail _ => none
  | entry key text => text.value?.map fun value => (Bytes.trim key.1, value)

/-- Nothing, if the list is complete; otherwise what cut it short. -/
def warnings : Ending → List Log.Line
  | tail _ => []
  | entry _ text => text.warnings

end Ending

/-- A message as a list: entries with a comma after each, and an ending. -/
structure ListText where
  terminated : List EntryText
  ending : Ending

namespace ListText

def bytes (text : ListText) : Bytes :=
  text.terminated.flatMap (fun entry => entry.bytes ++ [Ascii.comma]) ++ text.ending.bytes

/-- The entries in order. -/
def entries (text : ListText) : List Entry :=
  text.terminated.map EntryText.entry ++ text.ending.entry?.toList

end ListText

/-! ## Quoted values -/

/-- Where no further piece starts: at the end, at a backslash on its own, at the closing quote. -/
def IsStop (bytes : Bytes) : Prop :=
  bytes = [] ∨ bytes = [Ascii.backslash] ∨ bytes.head? = some Ascii.quote

theorem isStop_loneBackslash (lone : Bool) : IsStop (loneBackslash lone) := by
  cases lone with
  | false => exact .inl rfl
  | true => exact .inr (.inl rfl)

theorem isStop_quote (rest : Bytes) : IsStop (Ascii.quote :: rest) := .inr (.inr rfl)

theorem not_isStop_piece (piece : Piece) (rest : Bytes) : ¬IsStop (piece.bytes ++ rest) := by
  cases piece with
  | byte b hquote hbackslash =>
    rintro (h | h | h)
    · simp [Piece.bytes] at h
    · exact hbackslash (List.cons.inj h).1
    · exact hquote (Option.some.inj h)
  | pair b =>
    rintro (h | h | h)
    · simp [Piece.bytes] at h
    · simp [Piece.bytes] at h
    · exact absurd (Option.some.inj h) (by decide)

theorem Piece.bytes_append_inj {piece other : Piece} {x y : Bytes}
    (h : piece.bytes ++ x = other.bytes ++ y) : piece = other ∧ x = y := by
  cases piece with
  | byte b hquote hbackslash =>
    cases other with
    | byte c _ _ =>
      obtain ⟨rfl, rfl⟩ := List.cons.inj h
      exact ⟨rfl, rfl⟩
    | pair c => exact absurd (List.cons.inj h).1 hbackslash
  | pair b =>
    cases other with
    | byte c _ hbackslash => exact absurd (List.cons.inj h).1.symm hbackslash
    | pair c =>
      obtain ⟨rfl, rfl⟩ := List.cons.inj (List.cons.inj h).2
      exact ⟨rfl, rfl⟩

/-- The pieces in front of a stop can be told from their bytes. -/
theorem pieces_append_inj {body other : List Piece} {x y : Bytes} (hx : IsStop x) (hy : IsStop y)
    (h : body.flatMap Piece.bytes ++ x = other.flatMap Piece.bytes ++ y) :
    body = other ∧ x = y := by
  induction body generalizing other with
  | nil =>
    cases other with
    | nil => exact ⟨rfl, h⟩
    | cons piece other =>
      rw [List.flatMap_nil, List.nil_append, List.flatMap_cons, List.append_assoc] at h
      rw [h] at hx
      exact absurd hx (not_isStop_piece _ _)
  | cons piece body ih =>
    rw [List.flatMap_cons, List.append_assoc] at h
    cases other with
    | nil =>
      rw [List.flatMap_nil, List.nil_append] at h
      rw [← h] at hy
      exact absurd hy (not_isStop_piece _ _)
    | cons piece' other =>
      rw [List.flatMap_cons, List.append_assoc] at h
      obtain ⟨rfl, htail⟩ := Piece.bytes_append_inj h
      obtain ⟨rfl, rfl⟩ := ih htail
      exact ⟨rfl, rfl⟩

/-- What follows an opening quote is pieces up to a stop. -/
theorem exists_pieces (bytes : Bytes) :
    ∃ (body : List Piece) (rest : Bytes),
      bytes = body.flatMap Piece.bytes ++ rest ∧ IsStop rest := by
  fun_induction readQuoted bytes with
  | case1 => exact ⟨[], [], rfl, .inl rfl⟩
  | case2 => exact ⟨[], [Ascii.quote], rfl, isStop_quote []⟩
  | case3 b hquote =>
    by_cases hbackslash : b = Ascii.backslash
    · exact ⟨[], [b], rfl, .inr (.inl (by rw [hbackslash]))⟩
    · exact ⟨[.byte b hquote hbackslash], [], rfl, .inl rfl⟩
  | case4 c rest => exact ⟨[], Ascii.quote :: c :: rest, rfl, isStop_quote (c :: rest)⟩
  | case5 c tail _ ih =>
    obtain ⟨body, rest, rfl, hrest⟩ := ih
    exact ⟨.pair c :: body, rest, rfl, hrest⟩
  | case6 b c tail hquote hbackslash ih =>
    obtain ⟨body, rest, heq, hrest⟩ := ih
    exact ⟨.byte b hquote hbackslash :: body, rest, by rw [heq]; rfl, hrest⟩

theorem Piece.value_pair (b : UInt8) : (Piece.pair b).value = unescape b := by
  unfold Piece.value unescape
  by_cases hquote : b = Ascii.quote
  · simp [hquote]
  · by_cases hbackslash : b = Ascii.backslash
    · rw [hbackslash]
      decide
    · simp [hquote, hbackslash]

/-- Pieces are read one after the other, each for its value. -/
theorem readQuoted_pieces_append (body : List Piece) (rest : Bytes) :
    readQuoted (body.flatMap Piece.bytes ++ rest) =
      (readQuoted rest).map fun (value, rest) => (body.flatMap Piece.value ++ value, rest) := by
  induction body with
  | nil => simp
  | cons piece body ih =>
    rw [List.flatMap_cons, List.append_assoc]
    cases piece with
    | byte b hquote hbackslash =>
      rw [Piece.bytes, List.singleton_append, readQuoted_cons hquote hbackslash, ih, Option.map_map]
      rfl
    | pair b =>
      rw [Piece.bytes, List.cons_append, List.singleton_append, readQuoted, if_neg (by decide),
        if_pos rfl, ih, Option.map_map, List.flatMap_cons, Piece.value_pair]
      simp only [Function.comp_def, List.append_assoc]

theorem readQuoted_quote_cons (rest : Bytes) :
    readQuoted (Ascii.quote :: rest) = some ([], rest) := by
  cases rest <;> simp [readQuoted]

theorem readQuoted_loneBackslash (lone : Bool) : readQuoted (loneBackslash lone) = none := by
  cases lone <;> rfl

/-! ## Values -/

/-- What comes after a closing quote and its blanks decides how reading goes on. -/
theorem readValue_quoted_append (text : QuotedText) (rest : Bytes) :
    readValue (text.bytes ++ rest) =
      match Bytes.trimFront rest with
      | [] => .last text.value
      | b :: rest => if b = Ascii.comma then .more text.value rest else .garbage text.value := by
  unfold readValue QuotedText.bytes
  rw [if_pos (by simp), List.cons_append, List.cons_append, List.tail_cons, List.append_assoc,
    readQuoted_pieces_append, List.cons_append, readQuoted_quote_cons]
  simp only [Option.map_some, List.append_nil, Bytes.trimFront_append text.hblanks]
  rfl

/-- A value at the end of a message is the last. -/
theorem readValue_bytes (text : ValueText) : readValue text.bytes = .last text.value := by
  cases text with
  | bare value hcomma hquote =>
    unfold readValue ValueText.bytes
    rw [if_neg hquote, Bytes.cut?_eq_none_iff.2 hcomma]
    rfl
  | quoted text =>
    have h := readValue_quoted_append text []
    rw [List.append_nil] at h
    exact h

theorem readValue_bytes_comma (text : ValueText) (rest : Bytes) :
    readValue (text.bytes ++ Ascii.comma :: rest) = .more text.value rest := by
  cases text with
  | bare value hcomma hquote =>
    have hhead : (value ++ Ascii.comma :: rest).head? ≠ some Ascii.quote := by
      cases value with
      | nil => exact fun h => absurd (Option.some.inj h) (by decide)
      | cons b value => exact hquote
    unfold readValue ValueText.bytes
    rw [if_neg hhead, Bytes.cut?_append rest hcomma]
    rfl
  | quoted text =>
    refine (readValue_quoted_append text (Ascii.comma :: rest)).trans ?_
    rw [Bytes.trimFront_cons (by decide)]
    rfl

/-- The last value is read as what it is. -/
theorem readValue_last (text : LastText) :
    readValue text.bytes =
      match text with
      | .value text => .last text.value
      | .unfinished _ _ => .unfinished
      | .garbage text _ _ _ _ => .garbage text.value := by
  cases text with
  | value text => exact readValue_bytes text
  | unfinished body lone =>
    unfold readValue LastText.bytes
    rw [if_pos (by simp), List.tail_cons, readQuoted_pieces_append, readQuoted_loneBackslash]
    rfl
  | garbage text b hcomma hblank rest =>
    refine (readValue_quoted_append text (b :: rest)).trans ?_
    rw [Bytes.trimFront_cons hblank]
    exact if_neg hcomma

/-- A quoted value can be told from what follows it, unless that starts with a blank. -/
theorem QuotedText.bytes_append_inj {text other : QuotedText} {x y : Bytes}
    (hx : Bytes.trimFront x = x) (hy : Bytes.trimFront y = y)
    (h : text.bytes ++ x = other.bytes ++ y) : text = other ∧ x = y := by
  obtain ⟨body, blanks, hblanks⟩ := text
  obtain ⟨body', blanks', hblanks'⟩ := other
  simp only [QuotedText.bytes, List.cons_append, List.append_assoc, List.cons.injEq,
    true_and] at h
  obtain ⟨rfl, htail⟩ := pieces_append_inj (isStop_quote _) (isStop_quote _) h
  have hrest : blanks ++ x = blanks' ++ y := (List.cons.inj htail).2
  obtain rfl : x = y := by
    rw [← hx, ← Bytes.trimFront_append hblanks, hrest, Bytes.trimFront_append hblanks', hy]
  obtain rfl := List.append_cancel_right hrest
  exact ⟨rfl, rfl⟩

theorem ValueText.bytes_injective {text other : ValueText} (h : text.bytes = other.bytes) :
    text = other := by
  cases text with
  | bare value hcomma hquote =>
    cases other with
    | bare value' hcomma' hquote' =>
      obtain rfl : value = value' := h
      rfl
    | quoted other =>
      refine absurd ?_ hquote
      rw [show value = other.bytes from h]
      rfl
  | quoted text =>
    cases other with
    | bare value' hcomma' hquote' =>
      refine absurd ?_ hquote'
      rw [show value' = text.bytes from h.symm]
      rfl
    | quoted other =>
      have happend : text.bytes ++ [] = other.bytes ++ [] := congrArg (· ++ []) h
      obtain ⟨rfl, -⟩ := QuotedText.bytes_append_inj rfl rfl happend
      rfl

theorem LastText.bytes_injective {text other : LastText} (h : text.bytes = other.bytes) :
    text = other := by
  have hread := congrArg readValue h
  rw [readValue_last, readValue_last] at hread
  cases text with
  | value text =>
    cases other with
    | value other => rw [ValueText.bytes_injective h]
    | unfinished body lone => simp at hread
    | garbage other b hcomma hblank rest => simp at hread
  | unfinished body lone =>
    cases other with
    | value other => simp at hread
    | unfinished body' lone' =>
      obtain ⟨rfl, hlone⟩ := pieces_append_inj (isStop_loneBackslash lone)
        (isStop_loneBackslash lone') (List.cons.inj h).2
      obtain rfl : lone = lone' := by
        revert hlone
        cases lone <;> cases lone' <;> decide
      rfl
    | garbage other b hcomma hblank rest => simp at hread
  | garbage text b hcomma hblank rest =>
    cases other with
    | value other => simp at hread
    | unfinished body lone => simp at hread
    | garbage other b' hcomma' hblank' rest' =>
      obtain ⟨rfl, htail⟩ := QuotedText.bytes_append_inj (Bytes.trimFront_cons hblank rest)
        (Bytes.trimFront_cons hblank' rest') h
      obtain ⟨rfl, rfl⟩ := List.cons.inj htail
      rfl

theorem exists_blanks (bytes : Bytes) :
    ∃ blanks rest, bytes = blanks ++ rest ∧ (∀ b ∈ blanks, Bytes.isBlank b = true) ∧
      (rest = [] ∨ ∃ b after, rest = b :: after ∧ Bytes.isBlank b = false) := by
  induction bytes with
  | nil => exact ⟨[], [], rfl, by simp, .inl rfl⟩
  | cons b bytes ih =>
    cases hblank : Bytes.isBlank b with
    | false => exact ⟨[], b :: bytes, rfl, by simp, .inr ⟨b, bytes, rfl, hblank⟩⟩
    | true =>
      obtain ⟨blanks, rest, rfl, hblanks, hrest⟩ := ih
      exact ⟨b :: blanks, rest, rfl, by simpa [hblank] using hblanks, hrest⟩

/-- After the `=` of an entry comes a value with a comma after it, or the last value. -/
theorem exists_value (bytes : Bytes) :
    (∃ (text : ValueText) (rest : Bytes), bytes = text.bytes ++ Ascii.comma :: rest) ∨
      ∃ text : LastText, bytes = text.bytes := by
  by_cases hquote : bytes.head? = some Ascii.quote
  · obtain ⟨after, rfl⟩ := List.head?_eq_some_iff.1 hquote
    obtain ⟨body, rest, rfl, rfl | rfl | hclosing⟩ := exists_pieces after
    · exact .inr ⟨.unfinished body false, rfl⟩
    · exact .inr ⟨.unfinished body true, rfl⟩
    · obtain ⟨after, rfl⟩ := List.head?_eq_some_iff.1 hclosing
      obtain ⟨blanks, rest, rfl, hblanks, hrest⟩ := exists_blanks after
      let text : QuotedText := ⟨body, blanks, hblanks⟩
      have htext : Ascii.quote :: (body.flatMap Piece.bytes ++ Ascii.quote :: (blanks ++ rest)) =
          text.bytes ++ rest := by simp [text, QuotedText.bytes]
      rw [htext]
      rcases hrest with rfl | ⟨b, after, rfl, hblank⟩
      · exact .inr ⟨.value (.quoted text), List.append_nil _⟩
      · by_cases hcomma : b = Ascii.comma
        · exact .inl ⟨.quoted text, after, by rw [hcomma]; rfl⟩
        · exact .inr ⟨.garbage text b hcomma hblank after, rfl⟩
  · cases hcut : Bytes.cut? Ascii.comma bytes with
    | none => exact .inr ⟨.value (.bare bytes (Bytes.cut?_eq_none_iff.1 hcut) hquote), rfl⟩
    | some parts =>
      obtain ⟨rfl, hcomma⟩ := Bytes.cut?_eq_some_iff.1 hcut
      refine .inl ⟨.bare parts.1 hcomma ?_, parts.2, rfl⟩
      intro hhead
      obtain ⟨rest, hrest⟩ := List.head?_eq_some_iff.1 hhead
      exact hquote (by rw [hrest]; rfl)

/-! ## Lists -/

/-- The first entry of a list can be told from its bytes. -/
theorem key_append_inj {key other : EqualsFree} {x y : Bytes}
    (h : key.1 ++ Ascii.equals :: x = other.1 ++ Ascii.equals :: y) : key = other ∧ x = y := by
  obtain ⟨hkey, hrest⟩ := Bytes.append_cons_inj key.2 other.2 h
  exact ⟨Subtype.ext hkey, hrest⟩

theorem tail_ne_append (tail key : EqualsFree) (rest : Bytes) :
    tail.1 ≠ key.1 ++ Ascii.equals :: rest := by
  intro h
  exact tail.2 (by simp [h])

theorem value_ne_last (value : ValueText) (rest : Bytes) (text : LastText) :
    value.bytes ++ Ascii.comma :: rest ≠ text.bytes := by
  intro h
  have hread := congrArg readValue h
  rw [readValue_bytes_comma, readValue_last] at hread
  cases text <;> simp at hread

theorem Ending.bytes_injective {ending other : Ending} (h : ending.bytes = other.bytes) :
    ending = other := by
  cases ending with
  | tail text =>
    cases other with
    | tail other => rw [Subtype.ext h]
    | entry key other => exact absurd h (tail_ne_append _ _ _)
  | entry key text =>
    cases other with
    | tail other => exact absurd h.symm (tail_ne_append _ _ _)
    | entry key' other =>
      obtain ⟨rfl, htext⟩ := key_append_inj h
      rw [LastText.bytes_injective htext]

/-- An ending holds no entry with a comma after it. -/
theorem ending_ne_cons (ending : Ending) (entry : EntryText) (rest : Bytes) :
    ending.bytes ≠
      entry.key.1 ++ Ascii.equals :: (entry.value.bytes ++ Ascii.comma :: rest) := by
  intro h
  cases ending with
  | tail text => exact tail_ne_append _ _ _ h
  | entry key text =>
    obtain ⟨-, htext⟩ := key_append_inj h
    exact value_ne_last _ _ _ htext.symm

namespace ListText

theorem bytes_nil (ending : Ending) : (⟨[], ending⟩ : ListText).bytes = ending.bytes := rfl

theorem bytes_cons (entry : EntryText) (terminated : List EntryText) (ending : Ending) :
    (⟨entry :: terminated, ending⟩ : ListText).bytes =
      entry.key.1 ++ Ascii.equals ::
        (entry.value.bytes ++ Ascii.comma :: (⟨terminated, ending⟩ : ListText).bytes) := by
  simp [bytes, EntryText.bytes]

/-- Reading yields the entries of a list, and stops where the list is cut short. -/
theorem read_bytes (text : ListText) :
    (read text.bytes).entries = text.entries ∧ (read text.bytes).log = text.ending.warnings := by
  obtain ⟨terminated, ending⟩ := text
  induction terminated with
  | nil =>
    rw [bytes_nil, read_eq]
    cases ending with
    | tail text =>
      rw [Ending.bytes, Bytes.cut?_eq_none_iff.2 text.2]
      exact ⟨rfl, rfl⟩
    | entry key text =>
      rw [Ending.bytes, Bytes.cut?_append _ key.2]
      dsimp only
      rw [readValue_last]
      cases text <;> exact ⟨rfl, rfl⟩
  | cons entry terminated ih =>
    rw [bytes_cons, read_eq, Bytes.cut?_append _ entry.key.2]
    dsimp only
    rw [readValue_bytes_comma]
    exact ⟨congrArg (List.cons entry.entry) ih.1, ih.2⟩

/-- Every message is the text of a list. -/
theorem exists_bytes (message : Bytes) : ∃ text : ListText, text.bytes = message := by
  induction hlength : message.length using Nat.strongRecOn generalizing message with
  | ind n ih =>
    cases hcut : Bytes.cut? Ascii.equals message with
    | none => exact ⟨⟨[], .tail ⟨message, Bytes.cut?_eq_none_iff.1 hcut⟩⟩, rfl⟩
    | some parts =>
      obtain ⟨before, after⟩ := parts
      obtain ⟨rfl, hequals⟩ := Bytes.cut?_eq_some_iff.1 hcut
      obtain ⟨value, rest, rfl⟩ | ⟨text, rfl⟩ := exists_value after
      · have hrest : rest.length < n := by
          simp only [List.length_append, List.length_cons] at hlength
          omega
        obtain ⟨⟨terminated, ending⟩, rfl⟩ := ih rest.length hrest rest rfl
        exact ⟨⟨⟨⟨before, hequals⟩, value⟩ :: terminated, ending⟩, bytes_cons _ _ _⟩
      · exact ⟨⟨[], .entry ⟨before, hequals⟩ text⟩, rfl⟩

/-- No two lists have the same text. -/
theorem bytes_injective {text other : ListText} (h : text.bytes = other.bytes) :
    text = other := by
  obtain ⟨terminated, ending⟩ := text
  obtain ⟨terminated', ending'⟩ := other
  induction terminated generalizing terminated' with
  | nil =>
    cases terminated' with
    | nil =>
      obtain rfl : ending = ending' := Ending.bytes_injective h
      rfl
    | cons entry terminated' =>
      rw [bytes_cons] at h
      exact absurd h (ending_ne_cons _ _ _)
  | cons entry terminated ih =>
    cases terminated' with
    | nil =>
      rw [bytes_cons] at h
      exact absurd h.symm (ending_ne_cons _ _ _)
    | cons entry' terminated' =>
      rw [bytes_cons, bytes_cons] at h
      obtain ⟨key, value⟩ := entry
      obtain ⟨key', value'⟩ := entry'
      obtain ⟨rfl, hafter⟩ := key_append_inj h
      have hread := congrArg readValue hafter
      rw [readValue_bytes_comma, readValue_bytes_comma] at hread
      have hrest := (Value.more.inj hread).2
      rw [hrest] at hafter
      obtain rfl := ValueText.bytes_injective (List.append_cancel_right hafter)
      obtain ⟨rfl, rfl⟩ := ListText.mk.inj (ih terminated' hrest)
      rfl

end ListText

/-! ## Top theorems -/

/-- Every message is an attribute list in exactly one way, and reading it takes the entries of
this one way: of the entries with one key the last counts, and only a list that was cut short is
warned of. -/
theorem decides_grammar :
    (∀ message : Bytes, ∃! text : ListText, text.bytes = message) ∧
      ∀ text : ListText,
        (∀ key, (parse text.bytes)[key]? = lastValue? key text.entries) ∧
          (read text.bytes).log = text.ending.warnings := by
  constructor
  · intro message
    obtain ⟨text, htext⟩ := ListText.exists_bytes message
    refine ⟨text, htext, ?_⟩
    intro other hother
    exact ListText.bytes_injective (hother.trans htext.symm)
  · intro text
    obtain ⟨hentries, hlog⟩ := text.read_bytes
    refine ⟨?_, hlog⟩
    intro key
    rw [parse, Reading.attributes, Attributes.getElem?_ofEntries, hentries]

end SaslExchange.DigestMd5.AttributeList
