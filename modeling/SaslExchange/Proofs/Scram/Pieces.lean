import SaslExchange.Proofs.Ascii
import SaslExchange.Proofs.Entries
import SaslExchange.Proofs.Splitting

/-!
# The pieces of a frame

What a frame says, in terms of its pieces: the message is UTF-8 as a whole, commas stand
between the pieces, and the value of a key is that of the last piece `key=value`.

    Frame.parse message = .ok frame ↔ message has pieces, and frame is theirs     (parse_eq_ok_iff)
    (ofPieces pieces)[key]? = some value ↔ LastValue key value pieces
                                                           (getElem?_ofPieces_eq_some_iff)
    serialize of texts = the UTF-8 of their pieces         (serialize_encode)
-/

namespace SaslExchange.Scram

/-- The message is the UTF-8 of the pieces with commas between them. -/
structure Pieces (message : Bytes) (pieces : List (List Char)) : Prop where
  ne_nil : pieces ≠ []
  comma_notMem : ∀ piece ∈ pieces, ',' ∉ piece
  message_eq : message = Utf8.encode (String.ofList ([','].intercalate pieces))

/-- Some of the pieces has the form `key=…`. -/
def HasKey (key : Char) (pieces : List (List Char)) : Prop :=
  ∃ value, key :: '=' :: value ∈ pieces

/-- The last of the pieces of the form `key=…` is `key=value`. -/
def LastValue (key : Char) (value : String) (pieces : List (List Char)) : Prop :=
  ∃ before after, pieces = before ++ (key :: '=' :: value.toList) :: after ∧ ¬HasKey key after

/-- No comma stands in the key or in the value of a piece. -/
theorem LastValue.comma_notMem {key : Char} {value : String} {message : Bytes}
    {pieces : List (List Char)} (h : LastValue key value pieces) (hpieces : Pieces message pieces) :
    key ≠ ',' ∧ ',' ∉ value.toList := by
  obtain ⟨before, after, rfl, -⟩ := h
  have hcomma : ',' ∉ key :: '=' :: value.toList := hpieces.comma_notMem _ (by simp)
  simp only [List.mem_cons, not_or] at hcomma
  exact ⟨Ne.symm hcomma.1, hcomma.2.2⟩

namespace Frame

/-- The piece of an entry. -/
def piece (entry : Char × String) : List Char := entry.1 :: '=' :: entry.2.toList

/-- The frame of a list of pieces. -/
def ofPieces (pieces : List (List Char)) : Frame := ofEntries (pieces.filterMap entry?)

/-! ## Splitting at commas -/

theorem pieces_splitOn (text : String) :
    Pieces (Utf8.encode text) (text.toList.splitOn ',') where
  ne_nil := List.splitOn_ne_nil _ _
  comma_notMem _ h := notMem_of_mem_splitOn h
  message_eq := by rw [List.intercalate_splitOn, String.ofList_toList]

/-- A message is a frame exactly when it has pieces. -/
theorem parse_eq_ok_iff {message : Bytes} {frame : Frame} :
    parse message = .ok frame ↔ ∃ pieces, Pieces message pieces ∧ frame = ofPieces pieces := by
  unfold parse
  constructor
  · intro h
    cases htext : Utf8.decode message with
    | error defect => simp [htext, Except.map] at h
    | ok text =>
      simp only [htext, Except.map, Except.ok.injEq] at h
      refine ⟨text.toList.splitOn ',', ?_, h.symm⟩
      rw [← Utf8.decode_eq_ok_iff.1 htext]
      exact pieces_splitOn text
  · rintro ⟨pieces, hpieces, rfl⟩
    have hsplit := List.splitOn_intercalate ',' hpieces.comma_notMem hpieces.ne_nil
    rw [hpieces.message_eq, Utf8.decode_encode]
    simp only [Except.map, entries, String.toList_ofList, hsplit, ofPieces]

/-! ## Values of keys -/

theorem entry?_eq_some_iff {piece : List Char} {key : Char} {value : String} :
    entry? piece = some (key, value) ↔ piece = key :: '=' :: value.toList := by
  unfold entry?
  split
  · next k chars =>
    simp only [Option.some.injEq, Prod.mk.injEq, List.cons.injEq, true_and]
    rw [← String.toList_inj, String.toList_ofList]
  · next hno =>
    simp only [reduceCtorEq, false_iff]
    rintro rfl
    exact hno _ _ rfl

theorem hasKey_iff {key : Char} {pieces : List (List Char)} :
    HasKey key pieces ↔ ∃ entry ∈ pieces.filterMap entry?, key = entry.1 := by
  simp only [HasKey, List.mem_filterMap]
  constructor
  · rintro ⟨value, hvalue⟩
    exact ⟨(key, String.ofList value), ⟨_, hvalue, rfl⟩, rfl⟩
  · rintro ⟨⟨k, value⟩, ⟨piece, hpiece, hentry⟩, rfl⟩
    rw [entry?_eq_some_iff] at hentry
    exact ⟨value.toList, hentry ▸ hpiece⟩

theorem getElem?_ofPieces_eq_none_iff {key : Char} {pieces : List (List Char)} :
    (ofPieces pieces)[key]? = none ↔ ¬HasKey key pieces := by
  rw [ofPieces, getElem?_ofEntries, lastValue?_eq_none_iff, hasKey_iff]
  simp only [ne_eq, not_exists, not_and]

/-- The value of a key is that of the last piece with it. -/
theorem getElem?_ofPieces_eq_some_iff {key : Char} {value : String} {pieces : List (List Char)} :
    (ofPieces pieces)[key]? = some value ↔ LastValue key value pieces := by
  rw [ofPieces, getElem?_ofEntries, lastValue?_eq_some_iff]
  unfold LastValue
  constructor
  · rintro ⟨before, after, heq, hafter⟩
    obtain ⟨left, right, rfl, -, hright⟩ := List.filterMap_eq_append_iff.1 heq
    obtain ⟨skipped, piece, rest, rfl, hskipped, hpiece, hrest⟩ :=
      List.filterMap_eq_cons_iff.1 hright
    refine ⟨left ++ skipped, rest, ?_, ?_⟩
    · rw [← entry?_eq_some_iff.1 hpiece, List.append_assoc]
    · rw [hasKey_iff, hrest]
      rintro ⟨entry, hentry, hkey⟩
      exact hafter entry hentry hkey
  · rintro ⟨before, after, rfl, hafter⟩
    rw [hasKey_iff] at hafter
    refine ⟨before.filterMap entry?, after.filterMap entry?, ?_, fun entry hentry hkey =>
      hafter ⟨entry, hentry, hkey⟩⟩
    rw [List.filterMap_append, List.filterMap_cons, entry?_eq_some_iff.2 rfl]

/-! ## Pieces of entries -/

theorem pieces_map_piece {text : String} {entries : List (Char × String)}
    (htext : text.toList = [','].intercalate (entries.map piece)) (hne : entries ≠ [])
    (h : ∀ entry ∈ entries, entry.1 ≠ ',' ∧ ',' ∉ entry.2.toList) :
    Pieces (Utf8.encode text) (entries.map piece) where
  ne_nil := by simpa using hne
  comma_notMem := by
    intro _ hpiece
    obtain ⟨entry, hentry, rfl⟩ := List.mem_map.1 hpiece
    obtain ⟨hkey, hvalue⟩ := h entry hentry
    simp [piece, hkey.symm, hvalue]
  message_eq := by rw [← htext, String.ofList_toList]

theorem ofPieces_map_piece (entries : List (Char × String)) :
    ofPieces (entries.map piece) = ofEntries entries := by
  rw [ofPieces, List.filterMap_map]
  congr 1
  induction entries with
  | nil => rfl
  | cons entry entries ih =>
    rw [List.filterMap_cons, ih, Function.comp_apply, piece, entry?_eq_some_iff.2 rfl]

theorem lastValue_map_piece_iff {key : Char} {value : String} {entries : List (Char × String)} :
    LastValue key value (entries.map piece) ↔ lastValue? key entries = some value := by
  rw [← getElem?_ofPieces_eq_some_iff, ofPieces_map_piece, getElem?_ofEntries]

theorem not_hasKey_map_piece_iff {key : Char} {entries : List (Char × String)} :
    ¬HasKey key (entries.map piece) ↔ lastValue? key entries = none := by
  rw [← getElem?_ofPieces_eq_none_iff, ofPieces_map_piece, getElem?_ofEntries]

/-! ## Writing -/

theorem encode_intercalate (pieces : List (List Char)) :
    Utf8.encode (String.ofList ([','].intercalate pieces)) =
      Bytes.joinWith Ascii.comma (pieces.map fun piece => Utf8.encode (String.ofList piece)) := by
  have hcomma : String.utf8EncodeChar ',' = [Ascii.comma] := by decide
  unfold Bytes.joinWith
  induction pieces with
  | nil => rfl
  | cons piece rest ih =>
    cases rest with
    | nil => simp
    | cons next rest =>
      simp only [Utf8.encode_ofList, List.map_cons, List.intercalate_cons_cons,
        List.flatMap_append, List.flatMap_singleton, hcomma] at ih ⊢
      rw [ih]

theorem writeEntry_encode (key : Char) (value : String) :
    writeEntry (key, Utf8.encode value) =
      Utf8.encode (String.ofList (key :: '=' :: value.toList)) := by
  have hequals : String.utf8EncodeChar '=' = [Ascii.equals] := by decide
  simp only [writeEntry, Utf8.encode, String.toList_ofList, List.flatMap_cons, hequals,
    List.cons_append, List.nil_append]

theorem serialize_encode {text : String} {entries : List (Char × String)}
    (htext : text.toList = [','].intercalate (entries.map piece)) :
    serialize (entries.map fun entry => (entry.1, Utf8.encode entry.2)) = Utf8.encode text := by
  unfold serialize
  rw [← String.ofList_toList (s := text), htext, encode_intercalate, List.map_map, List.map_map]
  congr 1
  apply List.map_congr_left
  intro entry _
  exact writeEntry_encode entry.1 entry.2

end Frame

end SaslExchange.Scram
