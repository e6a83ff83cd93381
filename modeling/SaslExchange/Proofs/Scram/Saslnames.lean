import SaslExchange.Proofs.Scram.ClientSteps
import SaslExchange.Proofs.Scram.FrameRoundTrip

/-!
# Usernames that stay in their piece

The names as they stand in a frame are the texts without a comma in which every equals sign
starts `=2C` or `=3D`. Each of them stands for one name, so a username can neither end its piece
nor start another one.

    escaping is replacing the equals signs, then the commas        (escape_eq_replace)
    text = escape name for some name ↔ text is Escaped             (exists_escape_eq_iff)
    the first message has the two attributes n and r, and n stands for the username
                                                                   (username_kept_in_piece)
-/

namespace SaslExchange.Scram.Saslname

/-- The text with `replacement` for each `c` in it. -/
def replace (c : Char) (replacement text : String) : String :=
  String.ofList (text.toList.flatMap fun d => if d = c then replacement.toList else [d])

/-- Nothing in the text ends a piece, and every equals sign belongs to an escaped character. -/
structure Escaped (text : List Char) : Prop where
  comma_notMem : ',' ∉ text
  follows_equals : ∀ rest, '=' :: rest <:+ text → ['2', 'C'] <+: rest ∨ ['3', 'D'] <+: rest

/-! ## Escaping -/

theorem escapeChar_of_ne {c : Char} (hequals : c ≠ '=') (hcomma : c ≠ ',') :
    escapeChar c = [c] := by
  rw [escapeChar, if_neg hequals, if_neg hcomma]

/-- The equals signs go first, since the escape of a comma brings one along. -/
theorem escape_eq_replace (name : String) :
    escape name = replace ',' "=2C" (replace '=' "=3D" name) := by
  simp only [replace, escape, String.toList_ofList, List.flatMap_assoc]
  refine congrArg String.ofList (List.flatMap_congr ?_)
  intro c _
  by_cases hequals : c = '='
  · subst hequals
    rfl
  · by_cases hcomma : c = ','
    · subst hcomma
      rfl
    · simp [escapeChar_of_ne, hequals, hcomma]

theorem escaped_cons_iff {c : Char} {text : List Char} :
    Escaped (c :: text) ↔
      c ≠ ',' ∧ (c = '=' → ['2', 'C'] <+: text ∨ ['3', 'D'] <+: text) ∧ Escaped text := by
  constructor
  · rintro ⟨hcomma, hequals⟩
    simp only [List.mem_cons, not_or] at hcomma
    refine ⟨Ne.symm hcomma.1, ?_, hcomma.2, ?_⟩
    · rintro rfl
      exact hequals text (List.suffix_refl _)
    · intro rest hrest
      exact hequals rest (hrest.trans (List.suffix_cons c text))
  · rintro ⟨hcomma, hhead, htext⟩
    constructor
    · simp [Ne.symm hcomma, htext.comma_notMem]
    · intro rest hrest
      rcases List.suffix_cons_iff.1 hrest with heq | hrest
      · obtain ⟨rfl, rfl⟩ := List.cons.inj heq
        exact hhead rfl
      · exact htext.follows_equals rest hrest

theorem escaped_escapeChar_append (c : Char) {text : List Char} (h : Escaped text) :
    Escaped (escapeChar c ++ text) := by
  by_cases hequals : c = '='
  · subst hequals
    simp [escapeChar, escaped_cons_iff, h]
  · by_cases hcomma : c = ','
    · subst hcomma
      simp [escapeChar, escaped_cons_iff, h]
    · simp [escapeChar_of_ne, escaped_cons_iff, hequals, hcomma, h]

theorem escaped_escape (name : String) : Escaped (escape name).toList := by
  rw [escape, String.toList_ofList]
  induction name.toList with
  | nil => exact ⟨by simp, by simp⟩
  | cons c rest ih => exact escaped_escapeChar_append c ih

theorem comma_notMem_escape (name : String) : ',' ∉ (escape name).toList :=
  (escaped_escape name).comma_notMem

theorem escape_injective {a b : String} (h : escape a = escape b) : a = b := by
  rw [← unescape_escape a, h, unescape_escape]

theorem flatMap_escapeChar_unescapeChars {text : List Char} (h : Escaped text) :
    (unescapeChars text).flatMap escapeChar = text := by
  fun_induction unescapeChars text with
  | case1 rest ih =>
    simp only [escaped_cons_iff] at h
    rw [List.flatMap_cons, ih h.2.2.2.2.2.2]
    rfl
  | case2 rest ih =>
    simp only [escaped_cons_iff] at h
    rw [List.flatMap_cons, ih h.2.2.2.2.2.2]
    rfl
  | case3 c rest hcomma hequals ih =>
    obtain ⟨hc, hhead, hrest⟩ := escaped_cons_iff.1 h
    -- an equals sign would have been taken together with what follows it
    have hne : c ≠ '=' := by
      rintro rfl
      rcases hhead rfl with ⟨tail, rfl⟩ | ⟨tail, rfl⟩
      · exact hcomma tail rfl rfl
      · exact hequals tail rfl rfl
    rw [List.flatMap_cons, ih hrest, escapeChar_of_ne hne hc, List.singleton_append]
  | case4 => rfl

/-- What is taken for a name is written as that text. -/
theorem escape_unescape {text : String} (h : Escaped text.toList) :
    escape (unescape text) = text := by
  rw [escape, unescape, String.toList_ofList, flatMap_escapeChar_unescapeChars h,
    String.ofList_toList]

theorem exists_escape_eq_iff {text : String} :
    (∃ name, escape name = text) ↔ Escaped text.toList := by
  constructor
  · rintro ⟨name, rfl⟩
    exact escaped_escape name
  · intro h
    exact ⟨unescape text, escape_unescape h⟩

/-! ## The first message -/

theorem parse_clientFirstBare {username nonce : String} (h : ',' ∉ nonce.toList) :
    Frame.parse (clientFirstBare username nonce) =
      .ok (Frame.ofEntries [('n', escape username), ('r', nonce)]) := by
  have hcarried : ∀ entry ∈ [('n', escape username), ('r', nonce)],
      Frame.Carried (Frame.encodeValue entry) := by
    simp [Frame.carried_encodeValue_iff, comma_notMem_escape, h]
  exact Frame.parse_serialize hcarried

theorem toList_ofEntries_first (name nonce : String) :
    (Frame.ofEntries [('n', name), ('r', nonce)]).toList = [('n', name), ('r', nonce)] := by
  rfl

/-- Escaping can be undone, its results are the escaped texts, and the client's first message
has the username and the nonce for its attributes and no others. -/
theorem username_kept_in_piece :
    (∀ name, unescape (escape name) = name) ∧
      (∀ name, escape name = replace ',' "=2C" (replace '=' "=3D" name)) ∧
      (∀ text, (∃ name, escape name = text) ↔ Escaped text.toList) ∧
      (∀ text, Escaped text.toList → escape (unescape text) = text) ∧
      ∀ (h : Hash) (username password nonce : String) (opening : Bytes), ',' ∉ nonce.toList →
        ∃ bare name frame,
          (({ username, password, nonces := .ok nonce } : Client h).respond opening).answer =
              .ok (.proceed (Utf8.encode "n,," ++ bare)) ∧
            Frame.parse bare = .ok frame ∧
            frame.toList = [('n', name), ('r', nonce)] ∧ unescape name = username := by
  refine ⟨unescape_escape, escape_eq_replace, fun _ => exists_escape_eq_iff,
    fun _ => escape_unescape, ?_⟩
  intro h username password nonce opening hnonce
  refine ⟨clientFirstBare username nonce, escape username, _, ?_, parse_clientFirstBare hnonce,
    toList_ofEntries_first _ _, unescape_escape username⟩
  rw [Client.answer_eq_ok_iff]
  refine ⟨_, (Client.advance_start_eq_ok_iff rfl).2 ⟨nonce, rfl, ?_, rfl⟩⟩
  exact congrArg ClientReply.proceed (gs2Header_append username nonce)

/-- A username made of what separates attributes stays the value of its own. -/
theorem username_kept_in_piece_separators :
    Escaped "=3D2C=2Cr=3Dx".toList ∧ escape (unescape "=3D2C=2Cr=3Dx") = "=3D2C=2Cr=3Dx" ∧
      ∃ bare name frame,
        (({ username := "=2C,r=x", password := "", nonces := .ok "a=b" } : Client .sha1).respond
            []).answer = .ok (.proceed (Utf8.encode "n,," ++ bare)) ∧
          Frame.parse bare = .ok frame ∧ frame.toList = [('n', name), ('r', "a=b")] ∧
          unescape name = "=2C,r=x" := by
  obtain ⟨-, -, hescaped, hback, hfirst⟩ := username_kept_in_piece
  have htext : Escaped "=3D2C=2Cr=3Dx".toList :=
    (hescaped _).1 ⟨"=2C,r=x", by decide +kernel⟩
  exact ⟨htext, hback _ htext, hfirst .sha1 "=2C,r=x" "" "a=b" [] (by decide)⟩

end SaslExchange.Scram.Saslname
