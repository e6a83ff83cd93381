import SaslExchange.DigestMd5.Scanner

/-!
# Scanning stays in bounds

The scanner takes no part of a message that doesn't lie within it, so it reads each message to
an end; what it reads is what the list has from its position on.
-/

namespace SaslExchange

theorem Bytes.cut?_drop (b : UInt8) (bytes : Bytes) (start : Nat) :
    cut? b (bytes.drop start) = (position? b bytes start).map fun i =>
      ((bytes.take i).drop start, bytes.drop (i + 1)) := by
  rw [cut?_eq_map_idxOf?, position?, Option.map_map]
  refine congrArg (Option.map · _) (funext fun k => ?_)
  simp [List.take_drop, Nat.add_assoc]

namespace DigestMd5.AttributeList

theorem readQuoted_eq_map_scanQuoted (i : Nat) (bytes : Bytes) :
    readQuoted bytes = (scanQuoted i bytes).map fun (value, last) =>
      (value, bytes.drop (last + 1 - i)) := by
  fun_induction scanQuoted i bytes with
  | case1 => rfl
  | case2 => simp [readQuoted]
  | case3 => simp [readQuoted, *]
  | case4 => simp [readQuoted]
  | case5 i c rest hquote ih =>
    rw [readQuoted, if_neg hquote, if_pos rfl, ih, Option.map_map, Option.map_map]
    refine Option.map_congr ?_
    rintro ⟨value, last⟩ hscan
    have hlast := le_of_scanQuoted hscan
    have hskip : last + 1 - i = last + 1 - (i + 2) + 2 := by omega
    rw [Function.comp_apply, Function.comp_apply]
    dsimp only
    rw [hskip]
    rfl
  | case6 i b c rest hquote hescape ih =>
    rw [readQuoted, if_neg hquote, if_neg hescape, ih, Option.map_map, Option.map_map]
    refine Option.map_congr ?_
    rintro ⟨value, last⟩ hscan
    have hlast := le_of_scanQuoted hscan
    have hskip : last + 1 - i = last + 1 - (i + 1) + 1 := by omega
    rw [Function.comp_apply, Function.comp_apply]
    dsimp only
    rw [hskip]
    rfl

theorem trimFront_drop (message : Bytes) (start : Nat) :
    Bytes.trimFront (message.drop start) = message.drop (skipBlanks message start) := by
  fun_induction skipBlanks message start with
  | case1 start b h hblank ih =>
    obtain ⟨hlt, rfl⟩ := List.getElem?_eq_some_iff.1 h
    rw [← ih, List.drop_eq_getElem_cons hlt]
    exact List.dropWhile_cons_of_pos hblank
  | case2 start b h hblank =>
    obtain ⟨hlt, rfl⟩ := List.getElem?_eq_some_iff.1 h
    rw [List.drop_eq_getElem_cons hlt]
    exact List.dropWhile_cons_of_neg hblank
  | case3 start h =>
    rw [List.drop_eq_nil_of_le (List.getElem?_eq_none_iff.1 h)]
    rfl

/-- A quoted value at a position. -/
theorem readValue_of_quote {message : Bytes} {first : Nat}
    (h : message[first]? = some Ascii.quote) :
    readValue (message.drop first) =
      match scanQuoted (first + 1) (message.drop (first + 1)) with
      | none => .unfinished
      | some (value, last) =>
        match message[skipBlanks message (last + 1)]? with
        | none => .last value
        | some b =>
          if b = Ascii.comma then .more value (message.drop (skipBlanks message (last + 1) + 1))
          else .garbage value := by
  rw [readValue, List.head?_drop, if_pos h, List.tail_drop,
    readQuoted_eq_map_scanQuoted (first + 1)]
  cases hscan : scanQuoted (first + 1) (message.drop (first + 1)) with
  | none => rfl
  | some found =>
    obtain ⟨value, last⟩ := found
    have hlast := le_of_scanQuoted hscan
    have hskip : first + 1 + (last + 1 - (first + 1)) = last + 1 := by omega
    simp only [Option.map_some, List.drop_drop, hskip, trimFront_drop]
    cases hnext : message[skipBlanks message (last + 1)]? with
    | none => rw [List.drop_eq_nil_of_le (List.getElem?_eq_none_iff.1 hnext)]
    | some b =>
      obtain ⟨hlt, rfl⟩ := List.getElem?_eq_some_iff.1 hnext
      rw [List.drop_eq_getElem_cons hlt]

/-- Any other value at a position. -/
theorem readValue_of_ne_quote {message : Bytes} {first : Nat}
    (h : message[first]? ≠ some Ascii.quote) :
    readValue (message.drop first) =
      match Bytes.position? Ascii.comma message first with
      | none => .last (message.drop first)
      | some last => .more ((message.take last).drop first) (message.drop (last + 1)) := by
  rw [readValue, List.head?_drop, if_neg h, Bytes.cut?_drop]
  cases Bytes.position? Ascii.comma message first with
  | none => rfl
  | some last => rfl

theorem read_of_length_le {message : Bytes} {start : Nat} (h : message.length ≤ start) :
    read (message.drop start) = {} := by
  rw [List.drop_eq_nil_of_le h, read_eq]
  rfl

/-- From each position a scan comes to an end without a fault. -/
theorem scanFrom_eq (message : Bytes) (start : Nat) :
    scanFrom message start = .ok (read (message.drop start)) := by
  rw [scanFrom, read_eq, Bytes.cut?_drop]
  split
  · next h =>
    rw [h]
    rfl
  · next i hkey =>
    obtain ⟨hstart, hlt⟩ := Bytes.bounds_of_position? hkey
    rw [hkey, Bytes.slice_of_le hstart (Nat.le_of_lt hlt)]
    dsimp only [Option.map_some, bind, Except.bind]
    by_cases hquote : message[i + 1]? = some Ascii.quote
    · have hfirst : i + 1 < message.length := (List.getElem?_eq_some_iff.1 hquote).1
      rw [if_pos hquote, readValue_of_quote hquote,
        Bytes.slice_of_le hfirst (Nat.le_refl _), List.take_length]
      dsimp only
      split
      · next hscan =>
        rw [hscan]
        rfl
      · next value last hscan =>
        have hlast := le_of_scanQuoted hscan
        have hnext := le_skipBlanks message (last + 1)
        rw [hscan]
        dsimp only
        cases hbyte : message[skipBlanks message (last + 1)]? with
        | none =>
          dsimp only
          rw [scanFrom_eq, read_of_length_le (List.getElem?_eq_none_iff.1 hbyte)]
          rfl
        | some b =>
          dsimp only
          by_cases hcomma : b = Ascii.comma
          · rw [if_pos hcomma, if_pos hcomma, scanFrom_eq]
            rfl
          · rw [if_neg hcomma, if_neg hcomma]
            rfl
    · rw [if_neg hquote, readValue_of_ne_quote hquote]
      cases hcomma : Bytes.position? Ascii.comma message (i + 1) with
      | none =>
        dsimp only [Option.getD_none]
        rw [Bytes.slice_of_le hlt (Nat.le_refl _), List.take_length]
        dsimp only
        rw [scanFrom_eq, read_of_length_le (Nat.le_succ _)]
        rfl
      | some last =>
        obtain ⟨hfirst, hlast⟩ := Bytes.bounds_of_position? hcomma
        dsimp only [Option.getD_some]
        rw [Bytes.slice_of_le hfirst (Nat.le_of_lt hlast)]
        dsimp only
        rw [scanFrom_eq]
        rfl
termination_by message.length - start

/-- The scanner reads every message, and reads what the list has. -/
theorem scan_eq (message : Bytes) : scan message = .ok (read message) := scanFrom_eq message 0

end DigestMd5.AttributeList

end SaslExchange
