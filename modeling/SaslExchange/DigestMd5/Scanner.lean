import SaslExchange.DigestMd5.AttributeList
import SaslExchange.Faults

/-!
# Attribute lists by position

The reading of an attribute list as a scanner does it: it keeps its position in the message, looks
for the next `=`, `,` or quote from there, and takes the parts between two positions. What it takes
has to lie within the message, else it stops with a fault.
-/

namespace SaslExchange.DigestMd5.AttributeList

/-- The value up to the closing quote, and the position of that quote, where `bytes` start at
position `i`. -/
def scanQuoted (i : Nat) : Bytes → Option (Bytes × Nat)
  | [] => none
  | [b] => if b = Ascii.quote then some ([], i) else none
  | b :: c :: rest =>
    if b = Ascii.quote then some ([], i)
    else if b = Ascii.backslash then
      (scanQuoted (i + 2) rest).map fun (value, last) => (unescape c ++ value, last)
    else (scanQuoted (i + 1) (c :: rest)).map fun (value, last) => (b :: value, last)

/-- The first position from `start` on where no blank stands. -/
def skipBlanks (message : Bytes) (start : Nat) : Nat :=
  match _h : message[start]? with
  | some b => if Bytes.isBlank b then skipBlanks message (start + 1) else start
  | none => start
termination_by message.length - start
decreasing_by
  obtain ⟨hlt, -⟩ := List.getElem?_eq_some_iff.1 _h
  omega

theorem le_skipBlanks (message : Bytes) (start : Nat) : start ≤ skipBlanks message start := by
  fun_induction skipBlanks message start with
  | case1 start b h hblank ih => omega
  | case2 => exact Nat.le_refl _
  | case3 => exact Nat.le_refl _

theorem le_of_scanQuoted {i : Nat} {bytes value : Bytes} {last : Nat}
    (h : scanQuoted i bytes = some (value, last)) : i ≤ last := by
  fun_induction scanQuoted i bytes generalizing value with
  | case1 => cases h
  | case2 => cases h; exact Nat.le_refl _
  | case3 => cases h
  | case4 => cases h; exact Nat.le_refl _
  | case5 i c rest _ ih =>
    obtain ⟨⟨_, _⟩, hscan, heq⟩ := Option.map_eq_some_iff.1 h
    cases heq
    exact Nat.le_of_add_right_le (ih hscan)
  | case6 i b c rest _ _ ih =>
    obtain ⟨⟨_, _⟩, hscan, heq⟩ := Option.map_eq_some_iff.1 h
    cases heq
    exact Nat.le_of_succ_le (ih hscan)

/-- Reads a message from position `start` on. -/
def scanFrom (message : Bytes) (start : Nat) : Except Fault Reading :=
  match _hkey : Bytes.position? Ascii.equals message start with
  | none => .ok {}
  | some i => do
    let key := Bytes.trim (← message.slice start i)
    let first := i + 1
    if message[first]? = some Ascii.quote then
      match _hquote : scanQuoted (first + 1) (← message.slice (first + 1) message.length) with
      | none => return { defect := some .unfinishedQuote }
      | some (value, last) =>
        let next := skipBlanks message (last + 1)
        match message[next]? with
        | none => return (← scanFrom message next).cons (key, value)
        | some b =>
          if b = Ascii.comma then return (← scanFrom message (next + 1)).cons (key, value)
          else return { entries := [(key, value)], defect := some .garbageAfterQuote }
    else
      let last := (Bytes.position? Ascii.comma message first).getD message.length
      let value ← message.slice first last
      return (← scanFrom message (last + 1)).cons (key, value)
termination_by message.length - start
decreasing_by
  all_goals
    obtain ⟨hstart, hlt⟩ := Bytes.bounds_of_position? _hkey
  · have hlast := le_of_scanQuoted _hquote
    have hnext := le_skipBlanks message (last + 1)
    omega
  · have hlast := le_of_scanQuoted _hquote
    have hnext := le_skipBlanks message (last + 1)
    omega
  · have hlast : i + 1 ≤ (Bytes.position? Ascii.comma message (i + 1)).getD message.length := by
      cases hcomma : Bytes.position? Ascii.comma message (i + 1) with
      | none => exact hlt
      | some j => exact (Bytes.bounds_of_position? hcomma).1
    omega

/-- Reads a message. -/
def scan (message : Bytes) : Except Fault Reading := scanFrom message 0

end SaslExchange.DigestMd5.AttributeList
