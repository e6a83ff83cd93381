import Mathlib.Data.List.Nodup
import SaslExchange.Proofs.Scram.Pieces

/-!
# Frames written and read again

A frame carries an entry whose key is no comma and whose value is text without one. Such entries
are read as they were written, of several with one key the last; entries of another kind never
are. What was read is of that kind, so it may be written again in any order.

    parse (serialize entries) has these entries ↔
      their keys are distinct and all of them are carried             (round_trip_iff_carried)
-/

namespace SaslExchange.Scram.Frame

/-- The entry as it is written. -/
def encodeValue (entry : Char × String) : Char × Bytes := (entry.1, Utf8.encode entry.2)

/-- A piece of a frame can hold the entry. -/
structure Carried (entry : Char × Bytes) : Prop where
  key_ne : entry.1 ≠ ','
  value_text : ∃ text, Utf8.encode text = entry.2
  value_comma : Ascii.comma ∉ entry.2

theorem carried_encodeValue_iff {entry : Char × String} :
    Carried (encodeValue entry) ↔ entry.1 ≠ ',' ∧ ',' ∉ entry.2.toList := by
  rw [← Utf8.comma_mem_encode_iff]
  constructor
  · rintro ⟨hkey, -, hvalue⟩
    exact ⟨hkey, hvalue⟩
  · rintro ⟨hkey, hvalue⟩
    exact ⟨hkey, ⟨entry.2, rfl⟩, hvalue⟩

/-- Entries that can be carried have texts for their values. -/
theorem exists_map_encodeValue {entries : List (Char × Bytes)}
    (h : ∀ entry ∈ entries, Carried entry) :
    ∃ texts : List (Char × String), texts.map encodeValue = entries := by
  induction entries with
  | nil => exact ⟨[], rfl⟩
  | cons entry entries ih =>
    obtain ⟨texts, rfl⟩ := ih fun other hother => h other (List.mem_cons_of_mem _ hother)
    obtain ⟨text, htext⟩ := (h entry List.mem_cons_self).value_text
    refine ⟨(entry.1, text) :: texts, ?_⟩
    rw [List.map_cons, encodeValue, htext]

/-! ## Frames of entries -/

/-- A frame of entries with distinct keys has these entries. -/
theorem toList_ofEntries_perm {entries : List (Char × String)}
    (h : (entries.map Prod.fst).Nodup) : (ofEntries entries).toList.Perm entries := by
  have hframe : (ofEntries entries).toList.Nodup := (nodup_keys_toList _).of_map Prod.fst
  rw [List.perm_ext_iff_of_nodup hframe (h.of_map Prod.fst)]
  rintro ⟨key, value⟩
  rw [Std.ExtTreeMap.mem_toList_iff_getElem?_eq_some, getElem?_ofEntries,
    lastValue?_eq_some_iff_mem h]

/-- The entries of a frame make it up again, in whatever order they stand. -/
theorem ofEntries_of_perm {frame : Frame} {entries : List (Char × String)}
    (h : entries.Perm frame.toList) : ofEntries entries = frame := by
  refine Std.ExtTreeMap.ext_getElem? fun key => ?_
  rw [getElem?_ofEntries, lastValue?_of_perm_toList h]

/-! ## Reading what was written -/

/-- What is read of a message has no comma in it. -/
theorem carried_of_parse {message : Bytes} {frame : Frame} (h : parse message = .ok frame)
    {entry : Char × String} (hentry : entry ∈ frame.toList) : Carried (encodeValue entry) := by
  obtain ⟨pieces, hpieces, rfl⟩ := parse_eq_ok_iff.1 h
  rw [Std.ExtTreeMap.mem_toList_iff_getElem?_eq_some, getElem?_ofPieces_eq_some_iff] at hentry
  rw [carried_encodeValue_iff]
  exact hentry.comma_notMem hpieces

/-- Entries that can be carried are read as they were written. -/
theorem parse_serialize {entries : List (Char × String)}
    (h : ∀ entry ∈ entries, Carried (encodeValue entry)) :
    parse (serialize (entries.map encodeValue)) = .ok (ofEntries entries) := by
  by_cases hne : entries = []
  · subst hne
    -- no entries are written as the empty message, which is one empty piece
    have hpieces : Pieces [] [[]] := ⟨by simp, by simp, by simp [Utf8.encode]⟩
    exact parse_eq_ok_iff.2 ⟨[[]], hpieces, rfl⟩
  · let text := String.ofList ([','].intercalate (entries.map piece))
    have htext : text.toList = [','].intercalate (entries.map piece) := String.toList_ofList
    have hwritten : serialize (entries.map encodeValue) = Utf8.encode text :=
      serialize_encode htext
    have hpieces : Pieces (Utf8.encode text) (entries.map piece) :=
      pieces_map_piece htext hne fun entry hentry =>
        carried_encodeValue_iff.1 (h entry hentry)
    rw [hwritten, parse_eq_ok_iff]
    exact ⟨entries.map piece, hpieces, (ofPieces_map_piece entries).symm⟩

/-- Writing and reading keeps entries exactly when their keys are distinct and a frame carries
each of them. Of entries that a frame carries the last of each key is read. And whatever was read
can be written in any order of its entries to be read again. -/
theorem round_trip_iff_carried :
    (∀ entries : List (Char × Bytes),
      (∃ frame, parse (serialize entries) = .ok frame ∧
          (frame.toList.map encodeValue).Perm entries) ↔
        (entries.map Prod.fst).Nodup ∧ ∀ entry ∈ entries, Carried entry) ∧
      (∀ entries : List (Char × Bytes), (∀ entry ∈ entries, Carried entry) →
        ∃ frame, parse (serialize entries) = .ok frame ∧
          ∀ key, frame[key]?.map Utf8.encode = lastValue? key entries) ∧
      ∀ message frame, parse message = .ok frame →
        ∀ entries : List (Char × String), entries.Perm frame.toList →
          parse (serialize (entries.map encodeValue)) = .ok frame := by
  refine ⟨fun entries => ⟨?_, ?_⟩, ?_, ?_⟩
  · rintro ⟨frame, hframe, hperm⟩
    constructor
    · rw [← (hperm.map Prod.fst).nodup_iff, List.map_map]
      exact nodup_keys_toList frame
    · intro entry hentry
      obtain ⟨read, hread, rfl⟩ := List.mem_map.1 (hperm.mem_iff.2 hentry)
      exact carried_of_parse hframe hread
  · rintro ⟨hkeys, hcarried⟩
    obtain ⟨texts, rfl⟩ := exists_map_encodeValue hcarried
    rw [List.forall_mem_map] at hcarried
    rw [List.map_map] at hkeys
    exact ⟨ofEntries texts, parse_serialize hcarried, (toList_ofEntries_perm hkeys).map _⟩
  · intro entries hcarried
    obtain ⟨texts, rfl⟩ := exists_map_encodeValue hcarried
    rw [List.forall_mem_map] at hcarried
    refine ⟨ofEntries texts, parse_serialize hcarried, fun key => ?_⟩
    rw [getElem?_ofEntries]
    exact (lastValue?_map (fun _ value => Utf8.encode value) key texts).symm
  · intro message frame hframe entries hperm
    rw [parse_serialize fun entry hentry => carried_of_parse hframe (hperm.mem_iff.1 hentry),
      ofEntries_of_perm hperm]

/-- Entries with keys that are no letters, one of them twice, and equals signs in the values. -/
def repeatedEntries : List (Char × Bytes) :=
  [('=', "="), ('é', "a=b"), ('=', "")].map encodeValue

/-- The last value of a key is read, and what was read can be written backwards. -/
theorem round_trip_iff_carried_repeated :
    (∀ entry ∈ repeatedEntries, Carried entry) ∧
      ∃ frame, parse (serialize repeatedEntries) = .ok frame ∧
        frame['=']?.map Utf8.encode = some [] ∧
        parse (serialize (frame.toList.reverse.map encodeValue)) = .ok frame := by
  have hcarried : ∀ entry ∈ repeatedEntries, Carried entry := by
    rw [repeatedEntries, List.forall_mem_map]
    simp [carried_encodeValue_iff]
  obtain ⟨-, hread, hwritten⟩ := round_trip_iff_carried
  obtain ⟨frame, hframe, hvalues⟩ := hread repeatedEntries hcarried
  refine ⟨hcarried, frame, hframe, ?_, ?_⟩
  · rw [hvalues]
    decide
  · exact hwritten _ frame hframe _ (List.reverse_perm frame.toList)

end SaslExchange.Scram.Frame
