import SaslExchange.Proofs.DigestMd5.ClientSteps
import SaslExchange.Proofs.Runs

/-!
# Runs of the DIGEST-MD5 client

What a client makes of any three messages. It answers a challenge that has a nonce and offers
`auth`, with the attributes that belong to it and no others, whatever bytes the server chose for
nonce and realm. It then takes one proof from the server, that of the secret and of the context
of its own answer.

    the second and the third answer of a client        (answers_exactly)
-/

namespace SaslExchange.DigestMd5

/-- A challenge has a nonce and offers `auth`, as one that names no quality of protection does. -/
def Offers (attributes : Attributes) (nonce : Bytes) : Prop :=
  attributes.find? "nonce" = some nonce ∧
    ∃ qop ∈ ((attributes.find? "qop").getD (Utf8.encode "auth")).splitOn Ascii.comma,
      Bytes.trim qop = Utf8.encode "auth"

theorem offers_iff {attributes : Attributes} {nonce : Bytes} :
    Offers attributes nonce ↔
      Challenge.ofAttributes attributes = .ok ⟨nonce, (attributes.find? "realm").getD []⟩ := by
  rw [Challenge.ofAttributes_eq_ok_iff, offersAuth_iff]
  simp [Offers]

namespace Client

/-- A client can meet exactly what is offered, once it has a nonce of its own. -/
theorem exists_meet_iff {client : Client} {attributes : Attributes} :
    (∃ payload state, client.meet attributes = .ok (payload, state)) ↔
      (∃ nonce, Offers attributes nonce) ∧ ∃ cnonce, client.nonces = .ok cnonce := by
  simp only [meet_eq_ok_iff, offers_iff]
  constructor
  · rintro ⟨_, _, challenge, cnonce, hchallenge, hcnonce, -, -⟩
    obtain ⟨-, -, hrealm⟩ := Challenge.ofAttributes_eq_ok_iff.1 hchallenge
    exact ⟨⟨challenge.nonce, by rw [hrealm, hchallenge]⟩, cnonce, hcnonce⟩
  · rintro ⟨⟨nonce, hchallenge⟩, cnonce, hcnonce⟩
    exact ⟨_, _, _, cnonce, hchallenge, hcnonce, rfl, rfl⟩

/-- A client that waits for the server's proof takes the one proof of its own secret and context. -/
theorem answer_of_rspauth {client : Client} {challenge secret : Bytes} {context : Context}
    (hstate : client.state = .awaitingProof secret context) :
    let rspauth := (AttributeList.parse challenge).find? "rspauth"
    ((client.respond challenge).answer = .ok (.complete []) ↔
        rspauth = some (serverProof secret context)) ∧
      ((client.respond challenge).answer = .error .noRspauth ↔ rspauth = none) ∧
      ((client.respond challenge).answer = .error .invalidRspauth ↔
        ∃ given, rspauth = some given ∧ given ≠ serverProof secret context) := by
  intro rspauth
  rw [answer_of_awaitingProof hstate, ← objection_eq_none_iff,
    ← objection_eq_noRspauth_iff secret context,
    ← objection_eq_invalidRspauth_iff]
  cases objection secret context (AttributeList.parse challenge) <;> simp

end Client

/-- The first step ignores its message. The second one succeeds exactly when the challenge has a
nonce and offers `auth` and the client has a nonce, and its answer is read as the attributes that
belong to both. The third one succeeds exactly when the server proves the same secret in the same
context. -/
theorem answers_exactly (username password serviceType host : String) (nonces : NonceSource)
    (c₀ c₁ c₂ : Bytes) :
    let client : Client := { username, password, serviceType, host, nonces }
    let offered := AttributeList.parse c₁
    let realm := (offered.find? "realm").getD []
    let secret := secret (Utf8.encode username) realm (Utf8.encode password)
    let rspauth := (AttributeList.parse c₂).find? "rspauth"
    ∃ second third,
      (ClientMechanism.run client [c₀, c₁, c₂]).map Step.answer =
          [.ok (.proceed []), second, third] ∧
        ((∃ data, second = .ok (.proceed data)) ↔
          (∃ nonce, Offers offered nonce) ∧ ∃ cnonce, nonces = .ok cnonce) ∧
        ∀ nonce cnonce, Offers offered nonce → nonces = .ok cnonce →
          let context : Context :=
            { digestUri := Utf8.encode (serviceType ++ "/" ++ host)
              nonce
              cnonce := Utf8.encode cnonce
              nonceCount := Utf8.encode "00000001" }
          (∃ data, second = .ok (.proceed data) ∧
              AttributeList.parse data = .ofEntries (
                entry "username" (Utf8.encode username) ::
                (if realm.isEmpty then [] else [entry "realm" realm]) ++
                [entry "nonce" nonce,
                  entry "qop" (Utf8.encode "auth"),
                  entry "cnonce" context.cnonce,
                  entry "nc" context.nonceCount,
                  entry "digest-uri" context.digestUri,
                  entry "response" (clientProof secret context),
                  entry "charset" (Utf8.encode "utf-8")])) ∧
            (third = .ok (.complete []) ↔ rspauth = some (serverProof secret context)) ∧
            (third = .error .noRspauth ↔ rspauth = none) ∧
            (third = .error .invalidRspauth ↔
              ∃ given, rspauth = some given ∧ given ≠ serverProof secret context) := by
  intro client offered realm secret rspauth
  let waiting : Client := { client with state := .awaitingChallenge }
  refine ⟨(waiting.respond c₁).answer, ((waiting.respond c₁).next.respond c₂).answer, ?_, ?_, ?_⟩
  · rw [ClientMechanism.map_answer_run_cons (Client.respond_of_start rfl c₀)]
    rfl
  · simp only [Client.answer_eq_proceed_iff (rfl : waiting.state = .awaitingChallenge)]
    exact Client.exists_meet_iff
  · intro nonce cnonce hoffers hcnonce context
    let challenge : Challenge := ⟨nonce, realm⟩
    have hmeet : waiting.meet offered =
        .ok (AttributeList.serialize (waiting.answer challenge cnonce),
          .awaitingProof secret context) :=
      Client.meet_eq_ok_iff.2 ⟨challenge, cnonce, offers_iff.1 hoffers, hcnonce, rfl, rfl⟩
    rw [Client.respond_of_meet rfl hmeet]
    refine ⟨⟨_, rfl, waiting.parse_answer challenge cnonce⟩, ?_⟩
    exact Client.answer_of_rspauth rfl

/-- A realm and a nonce that try to pass for attributes of the answer. -/
def hostileChallenge : Bytes :=
  Utf8.encode ("realm=\"a\\\",username=\\\"eve\",nonce=\"n,username=eve\"," ++
    "qop=\"auth-int, auth \"")

theorem answers_exactly_hostile :
    let client : Client :=
      { username := "romeo", password := "r0m30", serviceType := "xmpp", host := "example.org",
        nonces := .ok "c" }
    Offers (AttributeList.parse hostileChallenge) (Utf8.encode "n,username=eve") ∧
      ∃ data,
        (ClientMechanism.run client [[], hostileChallenge, []]).map Step.answer =
            [.ok (.proceed []), .ok (.proceed data), .error .noRspauth] ∧
          (AttributeList.parse data).find? "username" = some (Utf8.encode "romeo") := by
  intro client
  have hoffers : Offers (AttributeList.parse hostileChallenge) (Utf8.encode "n,username=eve") :=
    ⟨by decide +kernel, by decide +kernel⟩
  obtain ⟨second, third, hrun, -, hanswers⟩ :=
    answers_exactly "romeo" "r0m30" "xmpp" "example.org" (.ok "c") [] hostileChallenge []
  obtain ⟨⟨data, rfl, hdata⟩, -, hthird, -⟩ := hanswers _ "c" hoffers rfl
  obtain rfl := hthird.2 (by decide +kernel)
  refine ⟨hoffers, data, hrun, ?_⟩
  rw [hdata, Attributes.find?_ofEntries]
  decide +kernel

end SaslExchange.DigestMd5
