import SaslExchange.Bytes
import SaslExchange.Log
import SaslExchange.Text.Utf8
import Std.Data.ExtTreeMap

/-!
# Attribute lists

The messages of DIGEST-MD5: entries `key=value` with commas between them, where a value that
holds a separator is written between quotes.

A key reaches to the next `=` and is trimmed, so it may hold commas and quotes. A value that
starts with a quote reaches to the closing one; in it a backslash gives the next quote or
backslash its own meaning and otherwise stands for itself. Any other value reaches to the next
comma as it is. A text without `=` at the end is passed over. Two defects end the reading: a
quoted value that doesn't close, whose entry is lost, and anything but a comma after a quoted
value, whose entry stays.
-/

namespace SaslExchange.DigestMd5

/-- A key with its value. -/
abbrev Entry := Bytes × Bytes

/-- The entry of an attribute with an ASCII name. -/
def entry (name : String) (value : Bytes) : Entry := (Utf8.encode name, value)

/-- Keys with their values, in the order of the keys. -/
abbrev Attributes := Std.ExtTreeMap Bytes Bytes

namespace Attributes

/-- The value of each key, the last of several. -/
def ofEntries (entries : List Entry) : Attributes :=
  entries.foldl (fun attributes entry => attributes.insert entry.1 entry.2) ∅

/-- The value of the attribute with the given name. -/
def find? (attributes : Attributes) (name : String) : Option Bytes := attributes[Utf8.encode name]?

end Attributes

namespace AttributeList

/-! ## Reading -/

/-- What ended the reading of a list before its end. -/
inductive Defect
  | unfinishedQuote
  | garbageAfterQuote
deriving DecidableEq

def Defect.logLine : Defect → Log.Line
  | .unfinishedQuote => Log.warn "Unfinished quoted string in DIGEST-MD5 message"
  | .garbageAfterQuote => Log.warn "Garbage after quoted string in DIGEST-MD5 message"

/-- What was read: the entries up to the end or the first defect. -/
structure Reading where
  entries : List Entry := []
  defect : Option Defect := none

namespace Reading

def cons (entry : Entry) (reading : Reading) : Reading :=
  { reading with entries := entry :: reading.entries }

def attributes (reading : Reading) : Attributes := .ofEntries reading.entries

def log (reading : Reading) : List Log.Line := reading.defect.toList.map Defect.logLine

end Reading

/-- What a backslash followed by a byte stands for in a quoted value. -/
def unescape (b : UInt8) : Bytes :=
  if b = Ascii.quote ∨ b = Ascii.backslash then [b] else [Ascii.backslash, b]

/-- The value up to the closing quote, and what follows it. -/
def readQuoted : Bytes → Option (Bytes × Bytes)
  | [] => none
  | [b] => if b = Ascii.quote then some ([], []) else none
  | b :: c :: rest =>
    if b = Ascii.quote then some ([], c :: rest)
    else if b = Ascii.backslash then
      (readQuoted rest).map fun (value, rest) => (unescape c ++ value, rest)
    else (readQuoted (c :: rest)).map fun (value, rest) => (b :: value, rest)

theorem length_of_readQuoted {bytes value rest : Bytes}
    (h : readQuoted bytes = some (value, rest)) : rest.length < bytes.length := by
  fun_induction readQuoted bytes generalizing value with
  | case1 => simp at h
  | case2 => simp_all
  | case3 => simp at h
  | case4 => simp_all
  | case5 c tail _ ih =>
    simp only [Option.map_eq_some_iff, Prod.mk.injEq, Prod.exists] at h
    obtain ⟨_, _, hread, _, rfl⟩ := h
    have := ih hread
    simp only [List.length_cons]
    omega
  | case6 b c tail _ _ ih =>
    simp only [Option.map_eq_some_iff, Prod.mk.injEq, Prod.exists] at h
    obtain ⟨_, _, hread, _, rfl⟩ := h
    have := ih hread
    simp only [List.length_cons] at this ⊢
    omega

/-- What follows the `=` of an entry: its value, and what comes after it. -/
inductive Value
  /-- The value is the last of the list. -/
  | last (value : Bytes)
  /-- A comma follows the value, and `rest` the comma. -/
  | more (value rest : Bytes)
  /-- A quoted value that is followed by something else. -/
  | garbage (value : Bytes)
  | unfinished

/-- Reads the value at the front of `bytes`. -/
def readValue (bytes : Bytes) : Value :=
  if bytes.head? = some Ascii.quote then
    match readQuoted bytes.tail with
    | none => .unfinished
    | some (value, rest) =>
      match Bytes.trimFront rest with
      | [] => .last value
      | b :: rest => if b = Ascii.comma then .more value rest else .garbage value
  else
    match Bytes.cut? Ascii.comma bytes with
    | none => .last bytes
    | some (value, rest) => .more value rest

theorem length_of_readValue {bytes value rest : Bytes}
    (h : readValue bytes = .more value rest) : rest.length < bytes.length := by
  unfold readValue at h
  split at h
  · split at h
    · simp at h
    · next quoted after hread =>
      have hread := length_of_readQuoted hread
      have htail : bytes.tail.length ≤ bytes.length := by simp
      have hle : (Bytes.trimFront after).length ≤ after.length :=
        (List.dropWhile_sublist Bytes.isBlank).length_le
      split at h
      · simp at h
      · next b tail htrim =>
        rw [htrim, List.length_cons] at hle
        split at h
        · obtain ⟨-, rfl⟩ := Value.more.inj h
          omega
        · simp at h
  · split at h
    · simp at h
    · next hcut =>
      obtain ⟨-, rfl⟩ := Value.more.inj h
      exact Bytes.length_of_cut? hcut

/-- Reads a list from the front. -/
def read (message : Bytes) : Reading :=
  match _hcut : Bytes.cut? Ascii.equals message with
  | none => {}
  | some (before, after) =>
    let key := Bytes.trim before
    match _hvalue : readValue after with
    | .last value => { entries := [(key, value)] }
    | .more value rest => (read rest).cons (key, value)
    | .garbage value => { entries := [(key, value)], defect := some .garbageAfterQuote }
    | .unfinished => { defect := some .unfinishedQuote }
termination_by message.length
decreasing_by
  have hafter := Bytes.length_of_cut? _hcut
  have hrest := length_of_readValue _hvalue
  omega

/-- The attributes of a message, as far as it can be read. -/
def parse (message : Bytes) : Attributes := (read message).attributes

/-! ## Writing -/

/-- The bytes that make a value be written between quotes. -/
def separators : Bytes := Utf8.encode "()<>@,;:\\\"/[]?=\x7b\x7d \t"

def escape (b : UInt8) : Bytes :=
  if b = Ascii.backslash ∨ b = Ascii.quote then [Ascii.backslash, b] else [b]

def writeValue (value : Bytes) : Bytes :=
  if value.any separators.contains then
    Ascii.quote :: value.flatMap escape ++ [Ascii.quote]
  else value

def writeEntry (entry : Entry) : Bytes := entry.1 ++ Ascii.equals :: writeValue entry.2

/-- The attributes as a list, in the order of their keys. -/
def serialize (attributes : Attributes) : Bytes :=
  Bytes.joinWith Ascii.comma (attributes.toList.map writeEntry)

/-! ## Lemmas -/

/-- Reading, one entry at a time. -/
theorem read_eq (message : Bytes) :
    read message =
      match Bytes.cut? Ascii.equals message with
      | none => {}
      | some (before, after) =>
        match readValue after with
        | .last value => { entries := [(Bytes.trim before, value)] }
        | .more value rest => (read rest).cons (Bytes.trim before, value)
        | .garbage value =>
          { entries := [(Bytes.trim before, value)], defect := some .garbageAfterQuote }
        | .unfinished => { defect := some .unfinishedQuote } := by
  rw [read]
  split
  · next h => rw [h]
  · next before after h =>
    rw [h]
    dsimp only
    split <;> next h => rw [h]

end AttributeList

end SaslExchange.DigestMd5
