import SaslExchange.DigestMd5.AttributeList
import SaslExchange.Scram.Frame

/-!
# Maps of entries

Frames and attribute lists are read as entries in a row and kept as maps. Of several entries
with one key the last counts.

    (Frame.ofEntries entries)[key]? = lastValue? key entries           (Frame.getElem?_ofEntries)
    (Attributes.ofEntries entries).find? name = lastValue? … entries   (Attributes.find?_ofEntries)
-/

namespace SaslExchange

/-- The value of the last entry with the given key. -/
def lastValue? {α β : Type} [DecidableEq α] (key : α) (entries : List (α × β)) : Option β :=
  entries.reverse.lookup key

section

variable {α β : Type} [DecidableEq α]

@[simp] theorem lastValue?_nil (key : α) : lastValue? key ([] : List (α × β)) = none := rfl

theorem lastValue?_append (key : α) (a b : List (α × β)) :
    lastValue? key (a ++ b) = (lastValue? key b).or (lastValue? key a) := by
  unfold lastValue?
  rw [List.reverse_append, List.lookup_append]

theorem lastValue?_cons (key : α) (entry : α × β) (entries : List (α × β)) :
    lastValue? key (entry :: entries) =
      (lastValue? key entries).or (if key = entry.1 then some entry.2 else none) := by
  obtain ⟨k, value⟩ := entry
  rw [← List.singleton_append, lastValue?_append]
  by_cases h : key = k
  · simp [lastValue?, h]
  · simp [lastValue?, h, List.lookup_cons, beq_eq_false_iff_ne.2 h]

/-- Values that change by their keys change in the last of them. -/
theorem lastValue?_map {γ : Type} (f : α → β → γ) (key : α) (entries : List (α × β)) :
    lastValue? key (entries.map fun entry => (entry.1, f entry.1 entry.2)) =
      (lastValue? key entries).map (f key) := by
  induction entries with
  | nil => rfl
  | cons entry entries ih =>
    rw [List.map_cons, lastValue?_cons, lastValue?_cons, ih]
    by_cases h : key = entry.1
    · cases lastValue? key entries <;> simp [h]
    · simp [h]

theorem lastValue?_eq_some_iff {key : α} {value : β} {entries : List (α × β)} :
    lastValue? key entries = some value ↔
      ∃ before after, entries = before ++ (key, value) :: after ∧
        ∀ entry ∈ after, key ≠ entry.1 := by
  unfold lastValue?
  rw [List.lookup_eq_some_iff]
  constructor
  · rintro ⟨after, before, heq, hafter⟩
    refine ⟨before.reverse, after.reverse, ?_, by simpa using hafter⟩
    rw [← List.reverse_reverse entries, heq]
    simp
  · rintro ⟨before, after, rfl, hafter⟩
    exact ⟨after.reverse, before.reverse, by simp, by simpa using hafter⟩

theorem lastValue?_eq_none_iff {key : α} {entries : List (α × β)} :
    lastValue? key entries = none ↔ ∀ entry ∈ entries, key ≠ entry.1 := by
  unfold lastValue?
  rw [List.lookup_eq_none_iff]
  simp

/-- Where no key stands twice, every value is the last of its key. -/
theorem lastValue?_eq_some_iff_mem {key : α} {value : β} {entries : List (α × β)}
    (h : (entries.map Prod.fst).Nodup) :
    lastValue? key entries = some value ↔ (key, value) ∈ entries := by
  rw [lastValue?_eq_some_iff]
  constructor
  · rintro ⟨before, after, rfl, -⟩
    simp
  · intro hmem
    obtain ⟨before, after, rfl⟩ := List.append_of_mem hmem
    refine ⟨before, after, rfl, ?_⟩
    rw [List.map_append, List.map_cons, List.nodup_append, List.nodup_cons] at h
    intro entry hentry hkey
    have hlater : entry.1 ∈ after.map Prod.fst := List.mem_map_of_mem hentry
    exact h.2.1.1 (hkey ▸ hlater)

/-- Inserting entries one after the other lets the last value of a key stand. -/
theorem getElem?_foldl_insert [Ord α] [Std.TransOrd α] [Std.LawfulEqOrd α]
    (key : α) (entries : List (α × β)) (map : Std.ExtTreeMap α β) :
    (entries.foldl (fun map entry => map.insert entry.1 entry.2) map)[key]? =
      (lastValue? key entries).or map[key]? := by
  induction entries generalizing map with
  | nil => rfl
  | cons entry entries ih =>
    rw [List.foldl_cons, ih, lastValue?_cons, Std.ExtTreeMap.getElem?_insert]
    by_cases h : key = entry.1
    · simp [h]
    · have hcmp : compare entry.1 key ≠ .eq := fun heq => h (Std.LawfulEqOrd.eq_of_compare heq).symm
      simp [h, hcmp]

omit [DecidableEq α] in
theorem nodup_keys_toList [Ord α] [Std.TransOrd α] [Std.LawfulEqOrd α]
    (map : Std.ExtTreeMap α β) : (map.toList.map Prod.fst).Nodup := by
  rw [List.Nodup, List.pairwise_map]
  refine Std.ExtTreeMap.distinct_keys_toList.imp ?_
  intro a b hne heq
  exact hne (heq ▸ Std.ReflCmp.compare_self)

/-- The entries of a map say what it holds, in whatever order they stand. -/
theorem lastValue?_of_perm_toList [Ord α] [Std.TransOrd α] [Std.LawfulEqOrd α]
    {map : Std.ExtTreeMap α β} {entries : List (α × β)} (h : entries.Perm map.toList) (key : α) :
    lastValue? key entries = map[key]? := by
  have hnodup : (entries.map Prod.fst).Nodup :=
    (h.map Prod.fst).nodup_iff.2 (nodup_keys_toList map)
  apply Option.ext
  intro value
  rw [lastValue?_eq_some_iff_mem hnodup, h.mem_iff, Std.ExtTreeMap.mem_toList_iff_getElem?_eq_some]

end

/-- Keys that encode names are compared as names. -/
@[simp] theorem Utf8.encode_inj {a b : String} : Utf8.encode a = Utf8.encode b ↔ a = b :=
  ⟨Utf8.encode_injective, congrArg Utf8.encode⟩

theorem Scram.Frame.getElem?_ofEntries (key : Char) (entries : List (Char × String)) :
    (Frame.ofEntries entries)[key]? = lastValue? key entries := by
  rw [Frame.ofEntries, getElem?_foldl_insert]
  simp

theorem DigestMd5.Attributes.getElem?_ofEntries (key : Bytes) (entries : List Entry) :
    (Attributes.ofEntries entries)[key]? = lastValue? key entries := by
  rw [Attributes.ofEntries, getElem?_foldl_insert]
  simp

theorem DigestMd5.Attributes.find?_ofEntries (name : String) (entries : List Entry) :
    (Attributes.ofEntries entries).find? name = lastValue? (Utf8.encode name) entries :=
  getElem?_ofEntries _ _

/-- Values that change by their keys may do so before they are gathered or after. -/
theorem DigestMd5.Attributes.ofEntries_map (f : Bytes → Bytes → Bytes) (entries : List Entry) :
    ofEntries (entries.map fun entry => (entry.1, f entry.1 entry.2)) =
      (ofEntries entries).map f := by
  refine Std.ExtTreeMap.ext_getElem? fun key => ?_
  rw [Std.ExtTreeMap.getElem?_map, getElem?_ofEntries, getElem?_ofEntries, lastValue?_map]

end SaslExchange
