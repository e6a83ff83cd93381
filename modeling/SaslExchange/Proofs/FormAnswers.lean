import SaslExchange.Proofs.Entries
import SaslExchange.Proofs.Runs
import SaslExchange.Vendor.XFacebookPlatform

/-!
# Answers to a form

The client of X-FACEBOOK-PLATFORM answers a form when it has a `method` and a `nonce`, of several
the last, and says which of them is missing otherwise. Whatever the form, the key and the token
hold, the answer reads as the six pairs that were written, and is of few characters.

    what the client makes of a form          (fill_eq_ok_iff, fill_of_no_method, fill_of_no_nonce)
    the bytes of a written form are form bytes                     (isFormByte_of_mem_serialize)
    what the client answers to a challenge                                (answers_faithfully)
-/

namespace SaslExchange

/-! ## Forms -/

namespace UrlEncoded

/-- Some pair of the form has this name. -/
def HasName (name : String) (form : List (String × String)) : Prop :=
  ∃ value, (name, value) ∈ form

/-- The last pair of the form with this name has this value. -/
def LastPair (name value : String) (form : List (String × String)) : Prop :=
  ∃ before after, form = before ++ (name, value) :: after ∧ ¬HasName name after

/-- The byte is that of an ASCII letter or digit, or of one of a few other characters. -/
def IsFormByte (b : UInt8) : Prop :=
  (Char.ofUInt8 b).isAlphanum ∨ Char.ofUInt8 b ∈ "*-._+%&=".toList

instance (b : UInt8) : Decidable (IsFormByte b) := inferInstanceAs (Decidable (_ ∨ _))

theorem not_hasName_iff {name : String} {form : List (String × String)} :
    ¬HasName name form ↔ ∀ pair ∈ form, name ≠ pair.1 := by
  constructor
  · rintro h ⟨name, value⟩ hpair rfl
    exact h ⟨value, hpair⟩
  · rintro h ⟨value, hpair⟩
    exact h (name, value) hpair rfl

theorem last?_eq_lastValue? (name : String) (form : List (String × String)) :
    last? name form = lastValue? name form := by
  unfold last? lastValue?
  induction form.reverse with
  | nil => rfl
  | cons pair rest ih =>
    obtain ⟨key, value⟩ := pair
    by_cases h : key = name
    · simp [h]
    · have hne : (name == key) = false := beq_eq_false_iff_ne.2 (Ne.symm h)
      simp [h, hne, List.lookup_cons, ih]

theorem last?_eq_none_iff {name : String} {form : List (String × String)} :
    last? name form = none ↔ ¬HasName name form := by
  rw [last?_eq_lastValue?, lastValue?_eq_none_iff, not_hasName_iff]

theorem last?_eq_some_iff {name value : String} {form : List (String × String)} :
    last? name form = some value ↔ LastPair name value form := by
  rw [last?_eq_lastValue?, lastValue?_eq_some_iff]
  simp only [LastPair, not_hasName_iff]

theorem exists_lastPair_iff {name : String} {form : List (String × String)} :
    (∃ value, LastPair name value form) ↔ HasName name form := by
  constructor
  · rintro ⟨value, before, after, rfl, -⟩
    exact ⟨value, by simp⟩
  · intro h
    cases hlast : last? name form with
    | none => exact absurd h (last?_eq_none_iff.1 hlast)
    | some value => exact ⟨value, last?_eq_some_iff.1 hlast⟩

theorem isFormByte_of_isUnreserved : ∀ n < 256,
    isUnreserved (UInt8.ofNat n) = true → IsFormByte (UInt8.ofNat n) := by decide +kernel

theorem isFormByte_of_mem_encodeBytes {bytes : Bytes} {b : UInt8} (h : b ∈ encodeBytes bytes) :
    IsFormByte b := by
  rcases isUnreserved_or_of_mem_encodeBytes h with h | rfl | rfl
  · have hbyte := isFormByte_of_isUnreserved b.toNat b.toNat_lt
    rw [UInt8.ofNat_toNat] at hbyte
    exact hbyte h
  · decide
  · decide

theorem isFormByte_of_mem_serialize {form : List (String × String)} {b : UInt8}
    (h : b ∈ serialize form) : IsFormByte b := by
  rcases Bytes.eq_or_exists_of_mem_joinWith h with rfl | ⟨piece, hpiece, hb⟩
  · decide
  · obtain ⟨pair, -, rfl⟩ := List.mem_map.1 hpiece
    rw [encodePair, List.mem_append, List.mem_cons] at hb
    rcases hb with hb | rfl | hb
    · exact isFormByte_of_mem_encodeBytes hb
    · decide
    · exact isFormByte_of_mem_encodeBytes hb

end UrlEncoded

open UrlEncoded (HasName LastPair IsFormByte)

namespace XFacebookPlatform

namespace Client

/-! ## Filling a form in -/

theorem fill_of_no_method (client : Client) {form : List (String × String)}
    (h : ¬HasName "method" form) :
    client.fill form = .error (.missingChallengeParameter "method") := by
  unfold fill
  rw [UrlEncoded.last?_eq_none_iff.2 h]

theorem fill_of_no_nonce (client : Client) {form : List (String × String)}
    (hmethod : HasName "method" form) (hnonce : ¬HasName "nonce" form) :
    client.fill form = .error (.missingChallengeParameter "nonce") := by
  unfold fill
  rw [UrlEncoded.last?_eq_none_iff.2 hnonce]
  cases h : UrlEncoded.last? "method" form with
  | none => exact absurd hmethod (UrlEncoded.last?_eq_none_iff.1 h)
  | some method => rfl

/-- The answer repeats the last method and the last nonce. -/
theorem fill_eq_ok_iff {client : Client} {form : List (String × String)} {payload : Bytes} :
    client.fill form = .ok payload ↔
      ∃ method nonce, LastPair "method" method form ∧ LastPair "nonce" nonce form ∧
        payload = UrlEncoded.serialize (answer client.apiKey client.accessToken method nonce) := by
  simp only [← UrlEncoded.last?_eq_some_iff]
  unfold fill
  cases UrlEncoded.last? "method" form with
  | none => simp
  | some method =>
    cases UrlEncoded.last? "nonce" form with
    | none => simp
    | some nonce => simp [eq_comm]

theorem exists_fill_eq_ok_iff {client : Client} {form : List (String × String)} :
    (∃ payload, client.fill form = .ok payload) ↔ HasName "method" form ∧ HasName "nonce" form := by
  simp only [fill_eq_ok_iff, ← UrlEncoded.exists_lastPair_iff]
  constructor
  · rintro ⟨_, method, nonce, hmethod, hnonce, -⟩
    exact ⟨⟨method, hmethod⟩, nonce, hnonce⟩
  · rintro ⟨⟨method, hmethod⟩, nonce, hnonce⟩
    exact ⟨_, method, nonce, hmethod, hnonce, rfl⟩

/-! ## Two steps -/

/-- The opening is passed over, and the challenge is taken for a form. -/
theorem answers_eq (apiKey accessToken : String) (opening challenge : Bytes) :
    (ClientMechanism.run ({ apiKey, accessToken } : Client) [opening, challenge]).map
        Step.answer =
      [.ok (.proceed []),
        (({ apiKey, accessToken } : Client).fill (UrlEncoded.parse challenge)).map
          ClientReply.complete] := by
  have hopening : ClientMechanism.respond ({ apiKey, accessToken } : Client) opening =
      .reply (.proceed []) { apiKey, accessToken, state := .awaitingForm } := rfl
  rw [ClientMechanism.map_answer_run_cons hopening]
  refine congrArg (List.cons _) ?_
  show [(respond { apiKey, accessToken, state := .awaitingForm } challenge).answer] = _
  have hfill : fill { apiKey, accessToken, state := .awaitingForm } (UrlEncoded.parse challenge) =
      fill { apiKey, accessToken } (UrlEncoded.parse challenge) := rfl
  unfold respond
  dsimp only
  rw [hfill]
  cases fill { apiKey, accessToken } (UrlEncoded.parse challenge) with
  | error cause => rfl
  | ok payload => rfl

theorem answers_eq_complete_iff {apiKey accessToken : String} {opening challenge payload : Bytes} :
    (ClientMechanism.run ({ apiKey, accessToken } : Client) [opening, challenge]).map
        Step.answer = [.ok (.proceed []), .ok (.complete payload)] ↔
      ({ apiKey, accessToken } : Client).fill (UrlEncoded.parse challenge) = .ok payload := by
  rw [answers_eq]
  cases fill { apiKey, accessToken } (UrlEncoded.parse challenge) with
  | error cause => simp [Except.map]
  | ok written => simp [Except.map]

end Client

/-! ## Top theorems -/

/-- The client answers exactly the forms that have a method and a nonce, with a form that reads as
its token and key, the last method and the last nonce. For any other form it says what is missing,
the method first. -/
theorem answers_faithfully (apiKey accessToken : String) (opening challenge : Bytes) :
    let answers := (ClientMechanism.run ({ apiKey, accessToken } : Client)
      [opening, challenge]).map Step.answer
    let form := UrlEncoded.parse challenge
    ((∃ payload, answers = [.ok (.proceed []), .ok (.complete payload)]) ↔
        HasName "method" form ∧ HasName "nonce" form) ∧
      (∀ payload, answers = [.ok (.proceed []), .ok (.complete payload)] →
        ∃ method nonce, LastPair "method" method form ∧ LastPair "nonce" nonce form ∧
          UrlEncoded.parse payload =
            [("access_token", accessToken), ("api_key", apiKey), ("call_id", ""),
              ("method", method), ("nonce", nonce), ("v", "1.0")] ∧
          ∀ b ∈ payload, IsFormByte b) ∧
      (¬HasName "method" form →
        answers = [.ok (.proceed []), .error (.missingChallengeParameter "method")]) ∧
      (HasName "method" form → ¬HasName "nonce" form →
        answers = [.ok (.proceed []), .error (.missingChallengeParameter "nonce")]) := by
  intro answers form
  refine ⟨?_, ?_, ?_, ?_⟩
  · simp only [answers, Client.answers_eq_complete_iff]
    exact Client.exists_fill_eq_ok_iff
  · intro payload hpayload
    obtain ⟨method, nonce, hmethod, hnonce, rfl⟩ :=
      Client.fill_eq_ok_iff.1 (Client.answers_eq_complete_iff.1 hpayload)
    refine ⟨method, nonce, hmethod, hnonce, UrlEncoded.parse_serialize _, ?_⟩
    intro b hb
    exact UrlEncoded.isFormByte_of_mem_serialize hb
  · intro hmethod
    have hfill := Client.fill_of_no_method { apiKey, accessToken } hmethod
    exact (Client.answers_eq ..).trans (by rw [hfill]; rfl)
  · intro hmethod hnonce
    have hfill := Client.fill_of_no_nonce { apiKey, accessToken } hmethod hnonce
    exact (Client.answers_eq ..).trans (by rw [hfill]; rfl)

/-- A form with a method twice, an empty sequence, bytes that are no text and a percent sign that
stands for itself. -/
def hostileForm : Bytes := Utf8.encode "method=a%26b&nonce=%FFx&&method=c+%3D%&v"

/-- The client reads the form as any other reader would, and its answer has nothing of it but the
last method and the nonce. -/
theorem answers_faithfully_hostile :
    HasName "method" (UrlEncoded.parse hostileForm) ∧
      HasName "nonce" (UrlEncoded.parse hostileForm) ∧
      ∃ payload,
        (ClientMechanism.run ({ apiKey := "key", accessToken := "tok&en+/=" } : Client)
            [[], hostileForm]).map Step.answer = [.ok (.proceed []), .ok (.complete payload)] ∧
          UrlEncoded.parse payload =
            [("access_token", "tok&en+/="), ("api_key", "key"), ("call_id", ""),
              ("method", "c =%"), ("nonce", "\uFFFDx"), ("v", "1.0")] ∧
          ∀ b ∈ payload, IsFormByte b := by
  have hform : UrlEncoded.parse hostileForm =
      [("method", "a&b"), ("nonce", "\uFFFDx"), ("method", "c =%"), ("v", "")] := by
    decide +kernel
  have hmethod : HasName "method" (UrlEncoded.parse hostileForm) := ⟨"c =%", by simp [hform]⟩
  have hnonce : HasName "nonce" (UrlEncoded.parse hostileForm) := ⟨"\uFFFDx", by simp [hform]⟩
  obtain ⟨haccepts, hreads, -⟩ := answers_faithfully "key" "tok&en+/=" [] hostileForm
  obtain ⟨payload, hpayload⟩ := haccepts.2 ⟨hmethod, hnonce⟩
  obtain ⟨method, nonce, hlast, hlast', hparse, hbytes⟩ := hreads payload hpayload
  rw [← UrlEncoded.last?_eq_some_iff, hform] at hlast hlast'
  obtain rfl : "c =%" = method := Option.some.inj hlast
  obtain rfl : "\uFFFDx" = nonce := Option.some.inj hlast'
  exact ⟨hmethod, hnonce, payload, hpayload, hparse, hbytes⟩

end XFacebookPlatform

end SaslExchange
