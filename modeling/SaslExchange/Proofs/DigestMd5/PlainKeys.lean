import SaslExchange.Proofs.DigestMd5.Grammar

/-!
# The maps that survive writing

A map of attributes is read back from its text, without a warning, when its keys are plain: they
hold no `=`, and no blanks at their ends. Nothing else is asked of them or of the values. Reading
yields no other maps, so what was read once can be written and read again without a change.

    every key that is read is plain                                   (plainKey_of_mem_parse)
    a map is read back ↔ its keys are plain, and what follows from it  (round_trip_iff_plain)
-/

namespace SaslExchange.DigestMd5.AttributeList

theorem plainKey_trim {key : Bytes} (h : Ascii.equals ∉ key) : PlainKey (Bytes.trim key) :=
  ⟨fun hmem => h (Bytes.mem_of_mem_trim hmem), Bytes.trim_trim key⟩

theorem plainKey_of_mem_entries {text : ListText} {entry : Entry} (h : entry ∈ text.entries) :
    PlainKey entry.1 := by
  rcases List.mem_append.1 h with h | h
  · obtain ⟨text, -, rfl⟩ := List.mem_map.1 h
    exact plainKey_trim text.key.2
  · rw [Option.mem_toList] at h
    cases hending : text.ending with
    | tail tail => simp [hending, Ending.entry?] at h
    | entry key last =>
      simp only [hending, Ending.entry?, Option.map_eq_some_iff] at h
      obtain ⟨value, -, rfl⟩ := h
      exact plainKey_trim key.2

/-- Whatever the message, the keys that are read from it are plain. -/
theorem plainKey_of_mem_parse {message key : Bytes} (h : key ∈ parse message) : PlainKey key := by
  obtain ⟨text, rfl⟩ := ListText.exists_bytes message
  obtain ⟨value, hmem⟩ := Attributes.exists_mem_of_mem_ofEntries h
  rw [text.read_bytes.1] at hmem
  exact plainKey_of_mem_entries hmem

/-- A map is read back without a warning exactly when its keys are plain. These are the maps that
reading yields; so reading, writing and reading again yields the first map, and no two of these
maps are written in the same way. -/
theorem round_trip_iff_plain :
    (∀ attributes : Attributes,
      (parse (serialize attributes) = attributes ∧ (read (serialize attributes)).log = []) ↔
        ∀ key ∈ attributes, PlainKey key) ∧
      (∀ message, ∀ key ∈ parse message, PlainKey key) ∧
      (∀ message, parse (serialize (parse message)) = parse message) ∧
      ∀ a b : Attributes, (∀ key ∈ a, PlainKey key) → (∀ key ∈ b, PlainKey key) →
        serialize a = serialize b → a = b := by
  refine ⟨?_, fun message key => plainKey_of_mem_parse, ?_, ?_⟩
  · intro attributes
    constructor
    · rintro ⟨hparse, -⟩ key hkey
      rw [← hparse] at hkey
      exact plainKey_of_mem_parse hkey
    · intro h
      refine ⟨Attributes.parse_serialize h, ?_⟩
      rw [Attributes.read_serialize h]
      rfl
  · intro message
    exact Attributes.parse_serialize fun key => plainKey_of_mem_parse
  · intro a b ha hb h
    rw [← Attributes.parse_serialize ha, h, Attributes.parse_serialize hb]

/-- The value `x,"y\` of a key with a comma and quotes. -/
def oddMessage : Bytes := Utf8.encode " a,\"b\"\n=\"x,\\\"y\\\\\" "

theorem round_trip_iff_plain_odd :
    let key := Utf8.encode "a,\"b\""
    let attributes := Attributes.ofEntries [(key, Utf8.encode "x,\"y\\")]
    (parse (serialize attributes) = attributes ∧ (read (serialize attributes)).log = []) ∧
      PlainKey key ∧ parse oddMessage = attributes := by
  intro key attributes
  have hkey : key ∈ parse oddMessage := by decide +kernel
  have hplain : ∀ key ∈ attributes, PlainKey key := by
    intro other hother
    obtain ⟨value, hmem⟩ := Attributes.exists_mem_of_mem_ofEntries hother
    obtain ⟨rfl, -⟩ := Prod.mk.inj (List.mem_singleton.1 hmem)
    exact round_trip_iff_plain.2.1 oddMessage _ hkey
  refine ⟨(round_trip_iff_plain.1 attributes).2 hplain, hplain key (by decide +kernel), ?_⟩
  exact round_trip_iff_plain.2.2.2 (parse oddMessage) attributes
    (round_trip_iff_plain.2.1 oddMessage) hplain (by decide +kernel)

end SaslExchange.DigestMd5.AttributeList
