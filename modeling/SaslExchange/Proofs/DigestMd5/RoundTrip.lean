import SaslExchange.Proofs.Entries

/-!
# Attribute lists are read back

What was written is read again without a defect, whatever the values are: a value with a
separator is quoted, and quoting is undone by reading. Only the keys are restricted, since they
are never quoted.

    read (a, b, … as written) = [a, b, …]              (read_joinWith)
    parse (serialize attributes) = attributes           (parse_serialize)
-/

namespace SaslExchange.DigestMd5

/-! ## Keys -/

/-- Whether a key is read back: it holds no `=`, and no blanks around it. -/
def PlainKey (key : Bytes) : Prop := Ascii.equals ∉ key ∧ Bytes.trim key = key

instance (key : Bytes) : Decidable (PlainKey key) :=
  inferInstanceAs (Decidable (_ ∧ _))

namespace AttributeList

/-! ## Lemmas -/

theorem readQuoted_cons {b : UInt8} (hquote : b ≠ Ascii.quote) (hbackslash : b ≠ Ascii.backslash)
    (rest : Bytes) :
    readQuoted (b :: rest) = (readQuoted rest).map fun (value, rest) => (b :: value, rest) := by
  cases rest with
  | nil => simp [readQuoted, hquote]
  | cons c rest =>
    rw [readQuoted, if_neg hquote, if_neg hbackslash]

/-- A quoted value is read up to its closing quote. -/
theorem readQuoted_escape_append (value rest : Bytes) :
    readQuoted (value.flatMap escape ++ Ascii.quote :: rest) = some (value, rest) := by
  induction value with
  | nil => cases rest <;> simp [readQuoted]
  | cons b value ih =>
    rw [List.flatMap_cons, List.append_assoc]
    by_cases h : b = Ascii.backslash ∨ b = Ascii.quote
    · rw [escape, if_pos h, List.cons_append, List.singleton_append, readQuoted,
        if_neg (by decide), if_pos rfl, ih]
      simp [unescape, h.symm]
    · rw [escape, if_neg h, List.singleton_append]
      simp only [not_or] at h
      rw [readQuoted_cons h.2 h.1, ih]
      rfl

theorem quote_mem_separators : Ascii.quote ∈ separators := by decide

theorem comma_mem_separators : Ascii.comma ∈ separators := by decide

/-- A value that is written as it is holds no separator. -/
theorem notMem_of_not_any {value : Bytes} {b : UInt8}
    (h : ¬value.any separators.contains = true) (hb : b ∈ separators) : b ∉ value := by
  intro hmem
  exact h (List.any_eq_true.2 ⟨b, hmem, List.contains_iff_mem.2 hb⟩)

/-- The last value of a list is read to the end. -/
theorem readValue_writeValue (value : Bytes) : readValue (writeValue value) = .last value := by
  unfold writeValue
  by_cases h : value.any separators.contains = true
  · rw [if_pos h]
    unfold readValue
    rw [if_pos (by simp), List.cons_append, List.tail_cons, readQuoted_escape_append]
    rfl
  · have hquote := notMem_of_not_any h quote_mem_separators
    have hcomma := notMem_of_not_any h comma_mem_separators
    have hhead : value.head? ≠ some Ascii.quote := fun hhead => hquote (List.mem_of_head? hhead)
    rw [if_neg h]
    unfold readValue
    rw [if_neg hhead, Bytes.cut?_eq_none_iff.2 hcomma]

/-- Any other value is read up to the comma after it. -/
theorem readValue_writeValue_append (value rest : Bytes) :
    readValue (writeValue value ++ Ascii.comma :: rest) = .more value rest := by
  unfold writeValue
  by_cases h : value.any separators.contains = true
  · rw [if_pos h]
    unfold readValue
    rw [if_pos (by simp), List.cons_append, List.cons_append, List.tail_cons, List.append_assoc,
      List.singleton_append, readQuoted_escape_append]
    have htrim : Bytes.trimFront (Ascii.comma :: rest) = Ascii.comma :: rest :=
      List.dropWhile_cons_of_neg (by decide)
    simp only [htrim, if_true]
  · have hquote := notMem_of_not_any h quote_mem_separators
    have hcomma := notMem_of_not_any h comma_mem_separators
    have hhead : (value ++ Ascii.comma :: rest).head? ≠ some Ascii.quote := by
      cases value with
      | nil =>
        intro hhead
        exact absurd (Option.some.inj hhead) (by decide)
      | cons b value =>
        intro hhead
        exact hquote (by simp [Option.some.inj hhead])
    rw [if_neg h]
    unfold readValue
    rw [if_neg hhead, Bytes.cut?_append rest hcomma]

/-- The entries of a list are read in order. -/
theorem read_joinWith {entries : List Entry} (h : ∀ entry ∈ entries, PlainKey entry.1) :
    read (Bytes.joinWith Ascii.comma (entries.map writeEntry)) = { entries } := by
  induction entries with
  | nil =>
    rw [read_eq]
    rfl
  | cons entry entries ih =>
    obtain ⟨hequals, htrim⟩ := h entry List.mem_cons_self
    have hentries : ∀ entry ∈ entries, PlainKey entry.1 := fun entry hmem =>
      h entry (List.mem_cons_of_mem _ hmem)
    cases entries with
    | nil =>
      have hmessage : Bytes.joinWith Ascii.comma ([entry].map writeEntry) =
          entry.1 ++ Ascii.equals :: writeValue entry.2 := by
        simp [Bytes.joinWith, writeEntry]
      rw [hmessage, read_eq, Bytes.cut?_append _ hequals]
      simp only [readValue_writeValue, htrim]
    | cons next entries =>
      have hmessage : Bytes.joinWith Ascii.comma ((entry :: next :: entries).map writeEntry) =
          entry.1 ++ Ascii.equals :: (writeValue entry.2 ++ Ascii.comma ::
            Bytes.joinWith Ascii.comma ((next :: entries).map writeEntry)) := by
        simp [Bytes.joinWith, writeEntry]
      rw [hmessage, read_eq, Bytes.cut?_append _ hequals]
      simp only [readValue_writeValue_append, htrim, ih hentries]
      rfl

end AttributeList

namespace Attributes

/-- Every key of a map is a key of its entries. -/
theorem exists_mem_of_mem_ofEntries {key : Bytes} {entries : List Entry}
    (h : key ∈ ofEntries entries) : ∃ value, (key, value) ∈ entries := by
  rw [Std.ExtTreeMap.mem_iff_isSome_getElem?, getElem?_ofEntries] at h
  obtain ⟨value, hvalue⟩ := Option.isSome_iff_exists.1 h
  obtain ⟨before, after, rfl, -⟩ := lastValue?_eq_some_iff.1 hvalue
  exact ⟨value, by simp⟩

theorem ofEntries_toList (attributes : Attributes) : ofEntries attributes.toList = attributes := by
  refine Std.ExtTreeMap.ext_getElem? fun key => ?_
  rw [getElem?_ofEntries, lastValue?_of_perm_toList (List.Perm.refl _)]

/-- The entries of a map are read back in the order of their keys. -/
theorem read_serialize {attributes : Attributes} (h : ∀ key ∈ attributes, PlainKey key) :
    AttributeList.read (AttributeList.serialize attributes) = { entries := attributes.toList } := by
  unfold AttributeList.serialize
  refine AttributeList.read_joinWith ?_
  intro entry hentry
  refine h entry.1 ?_
  have hvalue := Std.ExtTreeMap.mem_toList_iff_getElem?_eq_some.1 hentry
  simp [Std.ExtTreeMap.mem_iff_isSome_getElem?, hvalue]

/-- What is written of a map is the map. -/
theorem parse_serialize {attributes : Attributes} (h : ∀ key ∈ attributes, PlainKey key) :
    AttributeList.parse (AttributeList.serialize attributes) = attributes := by
  unfold AttributeList.parse AttributeList.Reading.attributes
  rw [read_serialize h, ofEntries_toList]

theorem parse_serialize_ofEntries {entries : List Entry}
    (h : ∀ entry ∈ entries, PlainKey entry.1) :
    AttributeList.parse (AttributeList.serialize (ofEntries entries)) = ofEntries entries := by
  refine parse_serialize ?_
  intro key hkey
  obtain ⟨value, hmem⟩ := exists_mem_of_mem_ofEntries hkey
  exact h (key, value) hmem

end Attributes

end SaslExchange.DigestMd5
