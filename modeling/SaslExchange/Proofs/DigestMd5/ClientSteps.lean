import SaslExchange.DigestMd5.Client
import SaslExchange.Proofs.DigestMd5.RoundTrip

/-!
# Steps of the DIGEST-MD5 client

What the client takes from a challenge, what it answers, and when it takes the server's last
message for a proof.

    the challenge is answered ↔ it has a nonce and offers `auth`      (meet_eq_ok_iff)
    the answer is read back as it was sent                            (parse_answer)
-/

namespace SaslExchange.DigestMd5

theorem offersAuth_iff {qops : Bytes} :
    offersAuth qops = true ↔
      ∃ qop ∈ qops.splitOn Ascii.comma, Bytes.trim qop = Utf8.encode "auth" := by
  simp [offersAuth]

theorem Challenge.ofAttributes_eq_ok_iff {attributes : Attributes} {challenge : Challenge} :
    ofAttributes attributes = .ok challenge ↔
      attributes.find? "nonce" = some challenge.nonce ∧
        offersAuth ((attributes.find? "qop").getD (Utf8.encode "auth")) = true ∧
        (attributes.find? "realm").getD [] = challenge.realm := by
  obtain ⟨nonce, realm⟩ := challenge
  unfold ofAttributes
  cases attributes.find? "nonce" with
  | none => simp
  | some found =>
    by_cases hqop : offersAuth ((attributes.find? "qop").getD (Utf8.encode "auth")) = true
    · simp [hqop]
    · simp [hqop]

namespace Client

theorem meet_eq_ok_iff {client : Client} {attributes : Attributes} {payload : Bytes}
    {state : State} :
    client.meet attributes = .ok (payload, state) ↔
      ∃ challenge cnonce, Challenge.ofAttributes attributes = .ok challenge ∧
        client.nonces = .ok cnonce ∧
        payload = AttributeList.serialize (client.answer challenge cnonce) ∧
        state = .awaitingProof (client.secret challenge) (client.context challenge cnonce) := by
  unfold meet
  cases Challenge.ofAttributes attributes with
  | error cause => simp
  | ok challenge =>
    cases client.nonces with
    | error cause => simp
    | ok cnonce => simp [eq_comm]

theorem objection_eq_none_iff {secret : Bytes} {context : Context} {attributes : Attributes} :
    objection secret context attributes = none ↔
      attributes.find? "rspauth" = some (serverProof secret context) := by
  unfold objection
  cases attributes.find? "rspauth" with
  | none => simp
  | some rspauth => simp

theorem objection_eq_noRspauth_iff (secret : Bytes) (context : Context)
    {attributes : Attributes} :
    objection secret context attributes = some .noRspauth ↔
      attributes.find? "rspauth" = none := by
  unfold objection
  cases attributes.find? "rspauth" with
  | none => simp
  | some rspauth => simp

theorem objection_eq_invalidRspauth_iff {secret : Bytes} {context : Context}
    {attributes : Attributes} :
    objection secret context attributes = some .invalidRspauth ↔
      ∃ rspauth, attributes.find? "rspauth" = some rspauth ∧
        rspauth ≠ serverProof secret context := by
  unfold objection
  cases attributes.find? "rspauth" with
  | none => simp
  | some rspauth => simp

theorem respond_of_start {client : Client} (hstate : client.state = .start) (challenge : Bytes) :
    client.respond challenge =
      .reply (.proceed []) { client with state := .awaitingChallenge } := by
  unfold respond
  rw [hstate]

theorem respond_of_meet {client : Client} {challenge payload : Bytes} {state : State}
    (hstate : client.state = .awaitingChallenge)
    (hmeet : client.meet (AttributeList.parse challenge) = .ok (payload, state)) :
    client.respond challenge =
      .reply (.proceed payload) { client with state } (AttributeList.read challenge).log := by
  unfold AttributeList.parse at hmeet
  unfold respond
  rw [hstate]
  dsimp only
  rw [hmeet]

theorem respond_of_meet_error {client : Client} {challenge : Bytes} {cause : ClientError}
    (hstate : client.state = .awaitingChallenge)
    (hmeet : client.meet (AttributeList.parse challenge) = .error cause) :
    client.respond challenge =
      .fail cause { client with state := .ended } (AttributeList.read challenge).log := by
  unfold AttributeList.parse at hmeet
  unfold respond
  rw [hstate]
  dsimp only
  rw [hmeet]

/-- A client that waits for a challenge goes on exactly when it can meet it. -/
theorem answer_eq_proceed_iff {client : Client} {challenge payload : Bytes}
    (hstate : client.state = .awaitingChallenge) :
    (client.respond challenge).answer = .ok (.proceed payload) ↔
      ∃ state, client.meet (AttributeList.parse challenge) = .ok (payload, state) := by
  unfold respond AttributeList.parse
  rw [hstate]
  dsimp only
  cases client.meet (AttributeList.read challenge).attributes with
  | error cause => simp [Step.fail]
  | ok result => simp [Step.reply, Prod.ext_iff]

/-- A client that waits for the server's proof is done, unless it has an objection. -/
theorem answer_of_awaitingProof {client : Client} {challenge secret : Bytes} {context : Context}
    (hstate : client.state = .awaitingProof secret context) :
    (client.respond challenge).answer =
      match objection secret context (AttributeList.parse challenge) with
      | some cause => .error cause
      | none => .ok (.complete []) := by
  unfold respond AttributeList.parse
  rw [hstate]
  dsimp only
  cases objection secret context (AttributeList.read challenge).attributes <;> rfl

theorem respond_of_no_objection {client : Client} {challenge secret : Bytes} {context : Context}
    (hstate : client.state = .awaitingProof secret context)
    (hproof : objection secret context (AttributeList.parse challenge) = none) :
    client.respond challenge =
      .reply (.complete []) { client with state := .ended } (AttributeList.read challenge).log := by
  unfold AttributeList.parse at hproof
  unfold respond
  rw [hstate]
  dsimp only
  rw [hproof]

/-- The answer is read back as it was sent, whatever the texts in it are. -/
theorem parse_answer (client : Client) (challenge : Challenge) (cnonce : String) :
    AttributeList.parse (AttributeList.serialize (client.answer challenge cnonce)) =
      client.answer challenge cnonce := by
  have hkeys : ∀ name ∈ ["username", "realm", "nonce", "qop", "cnonce", "nc", "digest-uri",
      "response", "charset"], PlainKey (Utf8.encode name) := by decide
  refine Attributes.parse_serialize_ofEntries ?_
  by_cases hrealm : challenge.realm.isEmpty = true
  · simp [hrealm, entry, hkeys]
  · simp [hrealm, entry, hkeys]

/-- The attributes of an answer, apart from the realm. -/
theorem find?_answer (client : Client) (challenge : Challenge) (cnonce : String) :
    (client.answer challenge cnonce).find? "username" = some (Utf8.encode client.username) ∧
      (client.answer challenge cnonce).find? "qop" = some (Utf8.encode "auth") ∧
      (client.answer challenge cnonce).find? "nonce" = some challenge.nonce ∧
      (client.answer challenge cnonce).find? "cnonce" = some (Utf8.encode cnonce) ∧
      (client.answer challenge cnonce).find? "nc" = some (Utf8.encode "00000001") ∧
      (client.answer challenge cnonce).find? "digest-uri" = some client.digestUri ∧
      (client.answer challenge cnonce).find? "response" =
        some (clientProof (client.secret challenge) (client.context challenge cnonce)) := by
  unfold answer
  simp only [Attributes.find?_ofEntries]
  by_cases hrealm : challenge.realm.isEmpty = true
  · simp [hrealm, entry, lastValue?_cons, context]
  · simp [hrealm, entry, lastValue?_cons, context]

/-- An answer without a realm stands for the empty one. -/
theorem getD_find?_realm_answer (client : Client) (challenge : Challenge) (cnonce : String) :
    ((client.answer challenge cnonce).find? "realm").getD [] = challenge.realm := by
  unfold answer
  rw [Attributes.find?_ofEntries]
  by_cases hrealm : challenge.realm.isEmpty = true
  · have hnil : challenge.realm = [] := List.isEmpty_iff.1 hrealm
    simp [hnil, entry, lastValue?_cons]
  · simp [hrealm, entry, lastValue?_cons]

end Client

end SaslExchange.DigestMd5
