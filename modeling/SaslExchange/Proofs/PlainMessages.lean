import SaslExchange.Plain
import SaslExchange.Proofs.Ascii
import SaslExchange.Proofs.Entries
import SaslExchange.Proofs.Splitting
import SaslExchange.Vendor.XOAuth2

/-!
# Messages of PLAIN

A server takes a message exactly when it is three texts with a zero byte between neighbours. Any
other message is refused for what is wrong with it first: the number of zero bytes, or the first
field that is no text. A client's message has just the zero bytes that separate its fields, unless
a zero character stands in the username or in the password; then it has more, and is refused.

    what a message is read as        (Fields.ofMessage_of_count, Fields.ofMessage_of_fields)
    a message in three fields ↔ it has two zero bytes              (exists_threeFields_iff)
    what a server answers, and what it takes from a client               (accepts_three_texts)
-/

namespace SaslExchange

/-- The bytes are the UTF-8 of some text. -/
def Utf8.WellFormed (bytes : Bytes) : Prop := ∃ text, Utf8.encode text = bytes

theorem Utf8.wellFormed_encode (text : String) : WellFormed (encode text) := ⟨text, rfl⟩

theorem Utf8.decode?_eq_none_iff {bytes : Bytes} : decode? bytes = none ↔ ¬WellFormed bytes := by
  simp only [Option.eq_none_iff_forall_ne_some, ne_eq, decode?_eq_some_iff, WellFormed, not_exists]

namespace Plain

/-- The payload is three fields with a zero byte between neighbours, and no other zero byte. -/
structure ThreeFields (payload authzid username password : Bytes) : Prop where
  payload_eq : payload = authzid ++ [separator] ++ username ++ [separator] ++ password
  authzid : separator ∉ authzid
  username : separator ∉ username
  password : separator ∉ password

/-! ## Fields -/

theorem threeFields_iff_splitOn {payload a u p : Bytes} :
    ThreeFields payload a u p ↔ payload.splitOn separator = [a, u, p] := by
  rw [splitOn_eq_three_iff]
  constructor
  · rintro ⟨heq, ha, hu, hp⟩
    exact ⟨heq, ha, hu, hp⟩
  · rintro ⟨heq, ha, hu, hp⟩
    exact ⟨heq, ha, hu, hp⟩

/-- A payload has three fields exactly when it has two zero bytes. -/
theorem exists_threeFields_iff {payload : Bytes} :
    (∃ a u p, ThreeFields payload a u p) ↔ payload.count separator = 2 := by
  have hlength := length_splitOn separator payload
  simp only [threeFields_iff_splitOn]
  constructor
  · rintro ⟨a, u, p, h⟩
    rw [h, List.length_cons, List.length_cons, List.length_singleton] at hlength
    omega
  · intro h
    rw [h] at hlength
    exact List.length_eq_three.1 hlength

/-- The fields can be told from the payload. -/
theorem ThreeFields.exists_and_iff {payload a u p : Bytes} (h : ThreeFields payload a u p)
    {P : Bytes → Bytes → Bytes → Prop} :
    (∃ a u p, ThreeFields payload a u p ∧ P a u p) ↔ P a u p := by
  constructor
  · rintro ⟨a', u', p', h', hP⟩
    rw [threeFields_iff_splitOn] at h h'
    rw [h] at h'
    obtain ⟨rfl, rfl, rfl⟩ : a = a' ∧ u = u' ∧ p = p' := by simpa using h'
    exact hP
  · intro hP
    exact ⟨a, u, p, h, hP⟩

namespace Fields

/-- Another number of zero bytes is refused before any field is looked at. -/
theorem ofMessage_of_count {payload : Bytes} (h : payload.count separator ≠ 2) :
    ofMessage payload = .error .failedToDecodeMessage := by
  unfold ofMessage
  split
  · next a u p hsplit =>
    exact absurd (exists_threeFields_iff.1 ⟨a, u, p, threeFields_iff_splitOn.2 hsplit⟩) h
  · rfl

/-- The fields are decoded one after the other, each with a failure of its own. -/
theorem ofMessage_of_fields {payload a u p : Bytes} (h : ThreeFields payload a u p) :
    ofMessage payload =
      match Utf8.decode? a, Utf8.decode? u, Utf8.decode? p with
      | none, _, _ => .error .failedToDecodeMessage
      | _, none, _ => .error .errorDecodingUsername
      | _, _, none => .error .errorDecodingPassword
      | some authzid, some username, some password => .ok ⟨authzid, username, password⟩ := by
  have hsplit := threeFields_iff_splitOn.1 h
  unfold ofMessage
  split
  · next heq =>
    rw [hsplit] at heq
    cases heq
    rfl
  · next hne => exact absurd hsplit (hne a u p)

/-- A message is read as the three texts that it is. -/
theorem ofMessage_eq_ok_iff {payload : Bytes} {fields : Fields} :
    ofMessage payload = .ok fields ↔
      ThreeFields payload (Utf8.encode fields.authzid) (Utf8.encode fields.username)
        (Utf8.encode fields.password) := by
  obtain ⟨authzid, username, password⟩ := fields
  constructor
  · intro h
    have hcount : payload.count separator = 2 := by
      by_contra hne
      rw [ofMessage_of_count hne] at h
      cases h
    obtain ⟨a, u, p, hfields⟩ := exists_threeFields_iff.2 hcount
    rw [ofMessage_of_fields hfields] at h
    split at h
    · cases h
    · cases h
    · cases h
    · next ha hu hp =>
      obtain ⟨rfl, rfl, rfl⟩ := Fields.mk.inj (Except.ok.inj h)
      rwa [Utf8.decode?_eq_some_iff.1 ha, Utf8.decode?_eq_some_iff.1 hu,
        Utf8.decode?_eq_some_iff.1 hp]
  · intro h
    rw [ofMessage_of_fields h]
    simp only [Utf8.decode?_encode]

/-- The first thing that is wrong with a message decides on its failure. -/
theorem ofMessage_eq_error_iff {payload a u p : Bytes} (h : ThreeFields payload a u p) :
    (ofMessage payload = .error .failedToDecodeMessage ↔ ¬Utf8.WellFormed a) ∧
      (ofMessage payload = .error .errorDecodingUsername ↔
        Utf8.WellFormed a ∧ ¬Utf8.WellFormed u) ∧
      (ofMessage payload = .error .errorDecodingPassword ↔
        Utf8.WellFormed a ∧ Utf8.WellFormed u ∧ ¬Utf8.WellFormed p) := by
  have hsome {bytes : Bytes} : Utf8.WellFormed bytes ↔ Utf8.decode? bytes ≠ none := by
    rw [ne_eq, Utf8.decode?_eq_none_iff, not_not]
  rw [ofMessage_of_fields h]
  simp only [hsome]
  cases Utf8.decode? a with
  | none => simp
  | some authzid =>
    cases Utf8.decode? u with
    | none => simp
    | some username =>
      cases Utf8.decode? p with
      | none => simp
      | some password => simp

/-- Any failure but that of the number of zero bytes comes from a message in three fields. -/
theorem ofMessage_eq_error_iff_exists {payload : Bytes} {cause : ServerError}
    (hcause : cause ≠ .failedToDecodeMessage) {P : Bytes → Bytes → Bytes → Prop}
    (h : ∀ a u p, ThreeFields payload a u p → (ofMessage payload = .error cause ↔ P a u p)) :
    ofMessage payload = .error cause ↔ ∃ a u p, ThreeFields payload a u p ∧ P a u p := by
  constructor
  · intro herror
    have hcount : payload.count separator = 2 := by
      by_contra hne
      rw [ofMessage_of_count hne] at herror
      exact hcause (Except.error.inj herror).symm
    obtain ⟨a, u, p, hfields⟩ := exists_threeFields_iff.2 hcount
    exact ⟨a, u, p, hfields, (h a u p hfields).1 herror⟩
  · rintro ⟨a, u, p, hfields, hP⟩
    exact (h a u p hfields).2 hP

end Fields

/-! ## Steps -/

namespace Server

theorem respond_of_ok {server : Server} (hended : server.ended = false) {payload : Bytes}
    (hpayload : payload ≠ []) {fields : Fields} (h : Fields.ofMessage payload = .ok fields) :
    server.respond payload =
      .reply .inputNeeded
        { credentials := { server.credentials with
            username := fields.username, password := fields.password }
          authzid := fields.authzid
          ended := true } := by
  unfold respond
  rw [if_neg (by simp [hended]), if_neg (by simp [hpayload]), h]

theorem respond_of_error {server : Server} (hended : server.ended = false) {payload : Bytes}
    (hpayload : payload ≠ []) {cause : ServerError}
    (h : Fields.ofMessage payload = .error cause) :
    server.respond payload = .fail cause { server with ended := true } := by
  unfold respond
  rw [if_neg (by simp [hended]), if_neg (by simp [hpayload]), h]

/-- The first payload that isn't empty is answered as it is read. -/
theorem answer_of_ne_nil {server : Server} (hended : server.ended = false) {payload : Bytes}
    (hpayload : payload ≠ []) :
    (server.respond payload).answer =
      (Fields.ofMessage payload).map fun _ => ServerReply.inputNeeded := by
  cases h : Fields.ofMessage payload with
  | error cause =>
    rw [respond_of_error hended hpayload h]
    rfl
  | ok fields =>
    rw [respond_of_ok hended hpayload h]
    rfl

theorem answer_eq_inputNeeded_iff {server : Server} (hended : server.ended = false)
    {payload : Bytes} (hpayload : payload ≠ []) :
    (server.respond payload).answer = .ok .inputNeeded ↔
      ∃ fields, Fields.ofMessage payload = .ok fields := by
  rw [answer_of_ne_nil hended hpayload]
  cases Fields.ofMessage payload <;> simp [Except.map]

theorem answer_eq_error_iff {server : Server} (hended : server.ended = false) {payload : Bytes}
    (hpayload : payload ≠ []) {cause : ServerError} :
    (server.respond payload).answer = .error cause ↔ Fields.ofMessage payload = .error cause := by
  rw [answer_of_ne_nil hended hpayload]
  cases Fields.ofMessage payload <;> simp [Except.map]

end Server

/-! ## Messages of clients -/

theorem separator_mem_encode_iff {text : String} :
    separator ∈ Utf8.encode text ↔ '\x00' ∈ text.toList :=
  Utf8.toUInt8_mem_encode_iff (c := '\x00') (by decide)

theorem message_eq (username password : String) :
    message username password =
      Utf8.encode "" ++ [separator] ++ Utf8.encode username ++ [separator] ++
        Utf8.encode password := by
  simp [message, Utf8.encode]

theorem count_message (username password : String) :
    (message username password).count separator =
      2 + (Utf8.encode username).count separator + (Utf8.encode password).count separator := by
  rw [message_eq]
  simp only [List.count_append, List.count_singleton_self]
  have hempty : (Utf8.encode "").count separator = 0 := rfl
  omega

/-- The message of texts without a zero character has them as its fields. -/
theorem threeFields_message {username password : String} (husername : '\x00' ∉ username.toList)
    (hpassword : '\x00' ∉ password.toList) :
    ThreeFields (message username password) (Utf8.encode "") (Utf8.encode username)
      (Utf8.encode password) where
  payload_eq := message_eq username password
  authzid := List.not_mem_nil
  username := by rwa [separator_mem_encode_iff]
  password := by rwa [separator_mem_encode_iff]

/-- A zero character in a text makes a message of more than three fields. -/
theorem count_message_ne {username password : String}
    (h : ¬('\x00' ∉ username.toList ∧ '\x00' ∉ password.toList)) :
    (message username password).count separator ≠ 2 := by
  intro hcount
  rw [count_message] at hcount
  have husername : (Utf8.encode username).count separator = 0 := by omega
  have hpassword : (Utf8.encode password).count separator = 0 := by omega
  rw [List.count_eq_zero, separator_mem_encode_iff] at husername hpassword
  exact h ⟨husername, hpassword⟩

theorem message_ne_nil (username password : String) : message username password ≠ [] :=
  List.cons_ne_nil _ _

namespace Server

variable {server : Server} {username password : String}

theorem respond_message (hended : server.ended = false) (husername : '\x00' ∉ username.toList)
    (hpassword : '\x00' ∉ password.toList) :
    server.respond (message username password) =
      .reply .inputNeeded
        { credentials := { server.credentials with username, password }
          authzid := ""
          ended := true } := by
  have hfields : Fields.ofMessage (message username password) = .ok ⟨"", username, password⟩ :=
    Fields.ofMessage_eq_ok_iff.2 (threeFields_message husername hpassword)
  exact respond_of_ok hended (message_ne_nil _ _) hfields

theorem respond_message_of_zero (hended : server.ended = false)
    (h : ¬('\x00' ∉ username.toList ∧ '\x00' ∉ password.toList)) :
    server.respond (message username password) =
      .fail .failedToDecodeMessage { server with ended := true } :=
  respond_of_error hended (message_ne_nil _ _) (Fields.ofMessage_of_count (count_message_ne h))

end Server

/-! ## Top theorem -/

/-- A fresh server takes exactly the messages that are three texts between zero bytes, and refuses
any other one for the first thing that is wrong with it. So it takes a client's message exactly
when neither text of it has a zero character, and then it holds these texts and no others. -/
theorem accepts_three_texts (credentials : Credentials) :
    (∀ payload : Bytes, payload ≠ [] →
      let step := ServerMechanism.respond (Server.ofCredentials credentials) payload
      (step.answer = .ok .inputNeeded ↔
        ∃ a u p, ThreeFields payload a u p ∧
          Utf8.WellFormed a ∧ Utf8.WellFormed u ∧ Utf8.WellFormed p) ∧
      (∀ authzid username password : String,
        ThreeFields payload (Utf8.encode authzid) (Utf8.encode username)
            (Utf8.encode password) →
          step.next.authzid = authzid ∧
            step.next.credentials = { credentials with username, password }) ∧
      (step.answer = .error .failedToDecodeMessage ↔
        payload.count separator ≠ 2 ∨
          ∃ a u p, ThreeFields payload a u p ∧ ¬Utf8.WellFormed a) ∧
      (step.answer = .error .errorDecodingUsername ↔
        ∃ a u p, ThreeFields payload a u p ∧ Utf8.WellFormed a ∧ ¬Utf8.WellFormed u) ∧
      (step.answer = .error .errorDecodingPassword ↔
        ∃ a u p, ThreeFields payload a u p ∧
          Utf8.WellFormed a ∧ Utf8.WellFormed u ∧ ¬Utf8.WellFormed p)) ∧
    ∀ (username password : String) (challenge : Bytes),
      ∃ message : Bytes,
        (ClientMechanism.respond ({ username, password } : Client) challenge).answer =
            .ok (.complete message) ∧
          (ClientMechanism.respond ({ username, token := password } : XOAuth2.Client)
              challenge).answer = .ok (.complete message) ∧
          let step := ServerMechanism.respond (Server.ofCredentials credentials) message
          let zeroFree := '\x00' ∉ username.toList ∧ '\x00' ∉ password.toList
          (step.answer = .ok .inputNeeded ↔ zeroFree) ∧
            (zeroFree → step.next.authzid = "" ∧
              step.next.credentials = { credentials with username, password }) ∧
            (¬zeroFree → step.answer = .error .failedToDecodeMessage ∧
              step.next.authzid = "" ∧ step.next.credentials = credentials) := by
  constructor
  · intro payload hpayload step
    have hok : step.answer = .ok .inputNeeded ↔ ∃ fields, Fields.ofMessage payload = .ok fields :=
      Server.answer_eq_inputNeeded_iff rfl hpayload
    have herror (cause : ServerError) :
        step.answer = .error cause ↔ Fields.ofMessage payload = .error cause :=
      Server.answer_eq_error_iff rfl hpayload
    refine ⟨?_, ?_, ?_, ?_, ?_⟩
    · rw [hok]
      constructor
      · rintro ⟨fields, hfields⟩
        exact ⟨_, _, _, Fields.ofMessage_eq_ok_iff.1 hfields, Utf8.wellFormed_encode _,
          Utf8.wellFormed_encode _, Utf8.wellFormed_encode _⟩
      · rintro ⟨_, _, _, hfields, ⟨authzid, rfl⟩, ⟨username, rfl⟩, ⟨password, rfl⟩⟩
        exact ⟨⟨authzid, username, password⟩, Fields.ofMessage_eq_ok_iff.2 hfields⟩
    · intro authzid username password hfields
      have hmessage : Fields.ofMessage payload = .ok ⟨authzid, username, password⟩ :=
        Fields.ofMessage_eq_ok_iff.2 hfields
      have hstep : step = _ := Server.respond_of_ok rfl hpayload hmessage
      rw [hstep]
      exact ⟨rfl, rfl⟩
    · rw [herror]
      by_cases hcount : payload.count separator = 2
      · obtain ⟨a, u, p, hfields⟩ := exists_threeFields_iff.2 hcount
        have hnot : ¬payload.count separator ≠ 2 := not_not.2 hcount
        rw [(Fields.ofMessage_eq_error_iff hfields).1, hfields.exists_and_iff, or_iff_right hnot]
      · simp only [Fields.ofMessage_of_count hcount, hcount, ne_eq, not_false_eq_true, true_or]
    · rw [herror]
      refine Fields.ofMessage_eq_error_iff_exists (by decide) ?_
      intro a u p hfields
      exact (Fields.ofMessage_eq_error_iff hfields).2.1
    · rw [herror]
      refine Fields.ofMessage_eq_error_iff_exists (by decide) ?_
      intro a u p hfields
      exact (Fields.ofMessage_eq_error_iff hfields).2.2
  · intro username password challenge
    refine ⟨message username password, rfl, rfl, ?_⟩
    intro step zeroFree
    have haccepts (hzero : zeroFree) : step = _ := Server.respond_message rfl hzero.1 hzero.2
    have hrejects (hzero : ¬zeroFree) : step = _ := Server.respond_message_of_zero rfl hzero
    refine ⟨⟨?_, ?_⟩, ?_, ?_⟩
    · intro hanswer
      by_contra hzero
      rw [hrejects hzero] at hanswer
      cases hanswer
    · intro hzero
      rw [haccepts hzero]
      rfl
    · intro hzero
      rw [haccepts hzero]
      exact ⟨rfl, rfl⟩
    · intro hzero
      rw [hrejects hzero]
      exact ⟨rfl, rfl, rfl⟩

/-- An identity to act as, a username with a letter beyond ASCII, and no password. -/
def actingMessage : Bytes := Utf8.encode "admin\x00jürgen\x00"

theorem accepts_three_texts_acting :
    let step := ServerMechanism.respond (Server.ofCredentials {}) actingMessage
    actingMessage ≠ [] ∧ step.answer = .ok .inputNeeded ∧ step.next.authzid = "admin" ∧
      step.next.credentials = { username := "jürgen" } := by
  intro step
  have hne : actingMessage ≠ [] := by decide
  have hfields : ThreeFields actingMessage (Utf8.encode "admin") (Utf8.encode "jürgen")
      (Utf8.encode "") := ⟨by decide, by decide, by decide, by decide⟩
  obtain ⟨haccepts, hholds, -⟩ := (accepts_three_texts {}).1 actingMessage hne
  have hanswer : step.answer = .ok .inputNeeded :=
    haccepts.2 ⟨_, _, _, hfields, ⟨_, rfl⟩, ⟨_, rfl⟩, ⟨_, rfl⟩⟩
  exact ⟨hne, hanswer, hholds "admin" "jürgen" "" hfields⟩

end Plain

end SaslExchange
