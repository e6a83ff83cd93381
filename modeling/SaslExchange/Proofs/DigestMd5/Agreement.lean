import SaslExchange.Proofs.DigestMd5.ClientSteps
import SaslExchange.Proofs.DigestMd5.ServerSteps
import SaslExchange.Proofs.Runs

/-!
# Client and server of DIGEST-MD5 agree

Each side reads what the other one wrote, and both hash the same bytes, whatever the texts are.
So they come to the end together once the server knows the password of the client or the digest
of it, whether from the start or after it asked.

    one exchange, both sides      (completes_together)
-/

namespace SaslExchange.DigestMd5

open ServerMechanism

/-! ## Knowledge -/

/-- The credentials hold the password, or in its place the digest of it in the realm. -/
def Knows (credentials : Credentials) (username password realm : String) : Prop :=
  (credentials.password = password ∧ password ≠ "") ∨
    (credentials.password = "" ∧
      credentials.passwordDigest =
        secret (Utf8.encode username) (Utf8.encode realm) (Utf8.encode password))

theorem Knows.yields {credentials : Credentials} {username password realm : String}
    (h : Knows credentials username password realm) :
    Yields credentials username (Utf8.encode realm)
      (secret (Utf8.encode username) (Utf8.encode realm) (Utf8.encode password)) := by
  rcases h with ⟨rfl, hpassword⟩ | ⟨hpassword, hdigest⟩
  · exact .inl ⟨hpassword, rfl⟩
  · refine .inr ⟨hpassword, ?_, hdigest.symm⟩
    intro hnil
    rw [hnil] at hdigest
    have hlength := congrArg List.length hdigest
    simp [secret, Digest.Algorithm.outputLength] at hlength

/-! ## The client's side -/

namespace Client

/-- The client takes nonce and realm from the server's challenge. -/
theorem ofAttributes_challenge (realm : String) (nonce : Bytes) :
    Challenge.ofAttributes (Server.challenge realm nonce) = .ok ⟨nonce, Utf8.encode realm⟩ := by
  have hauth : offersAuth (Utf8.encode "auth") = true := by decide
  rw [Challenge.ofAttributes_eq_ok_iff]
  unfold Server.challenge
  simp only [Attributes.find?_ofEntries]
  by_cases hrealm : realm.isEmpty = true
  · obtain rfl : realm = "" := String.isEmpty_iff.1 hrealm
    simp [entry, lastValue?_cons, hauth]
    rfl
  · simp [hrealm, entry, lastValue?_cons, hauth]

/-- The client completes when it is shown the server's challenge and proof. -/
theorem answers_of_server (client : Client) (hstate : client.state = .start) {cnonce : String}
    (hnonce : client.nonces = .ok cnonce) (realm nonce : String) (first : Bytes) :
    let challenge : Challenge := ⟨Utf8.encode nonce, Utf8.encode realm⟩
    (ClientMechanism.run client [first,
        AttributeList.serialize (Server.challenge realm (Utf8.encode nonce)),
        rspauth (client.secret challenge) (client.context challenge cnonce)]).map Step.answer =
      [.ok (.proceed []),
        .ok (.proceed (AttributeList.serialize (client.answer challenge cnonce))),
        .ok (.complete [])] := by
  intro challenge
  have hmeet : ({ client with state := .awaitingChallenge } : Client).meet
      (Server.challenge realm (Utf8.encode nonce)) =
      .ok (AttributeList.serialize (client.answer challenge cnonce),
        .awaitingProof (client.secret challenge) (client.context challenge cnonce)) :=
    meet_eq_ok_iff.2 ⟨challenge, cnonce, ofAttributes_challenge realm _, hnonce, rfl, rfl⟩
  have hproof : objection (client.secret challenge) (client.context challenge cnonce)
      (AttributeList.parse
        (rspauth (client.secret challenge) (client.context challenge cnonce))) = none := by
    rw [objection_eq_none_iff, find?_rspauth]
  rw [ClientMechanism.map_answer_run_cons (respond_of_start hstate first)]
  rw [← Server.parse_challenge] at hmeet
  rw [ClientMechanism.map_answer_run_cons (respond_of_meet rfl hmeet)]
  rw [ClientMechanism.map_answer_run_cons (respond_of_no_objection rfl hproof)]
  rfl

end Client

/-! ## The server's side -/

/-- The client's answer names its user. -/
theorem claimedUsername_answer (client : Client) (challenge : Challenge) (cnonce : String) :
    Server.claimedUsername (client.answer challenge cnonce) = .ok client.username := by
  obtain ⟨husername, hqop, -⟩ := client.find?_answer challenge cnonce
  rw [Server.claimedUsername_eq_ok_iff]
  exact ⟨⟨_, hqop, by decide⟩, husername⟩

/-- The client's answer authenticates it with a server that knows its secret. -/
theorem authenticates_answer {credentials : Credentials} (client : Client)
    (challenge : Challenge) (cnonce : String)
    (h : Yields credentials client.username challenge.realm (client.secret challenge)) :
    Authenticates credentials challenge.nonce (client.answer challenge cnonce)
      (client.secret challenge) (client.context challenge cnonce) := by
  obtain ⟨husername, hqop, hnonce, hcnonce, hnonceCount, hdigestUri, hresponse⟩ :=
    client.find?_answer challenge cnonce
  refine ⟨⟨rfl, hnonce, hcnonce, hnonceCount, hdigestUri, hresponse⟩, ⟨_, hqop, by decide⟩,
    client.username, husername, ?_⟩
  rw [client.getD_find?_realm_answer]
  exact h

namespace Server

/-- A waiting server goes to the end once it is shown a proof. -/
theorem completes_of_authenticates {server : Server} {nonce payload secret : Bytes}
    {username : String} {context : Context} (hstate : server.state = .awaitingResponse nonce)
    (hclaim : claimedUsername (AttributeList.parse payload) = .ok username)
    (hclient : Authenticates server.credentials nonce (AttributeList.parse payload) secret context)
    (last : Bytes) :
    (run server [.payload payload, .payload last]).map Step.answer =
        [.ok (.challenge (rspauth secret context)), .ok (.success [])] ∧
      (after server [.payload payload, .payload last]).credentials =
        { server.credentials with username } := by
  have hrespond := respond_of_awaiting payload hstate
  rw [receive_of_authenticates hclaim hclient] at hrespond
  constructor
  · rw [map_answer_run_payload hrespond]
    rfl
  · rw [after_payload hrespond]
    rfl

/-- A waiting server without a secret asks for one, and holds the name of the user. -/
theorem respond_of_lacks {server : Server} {nonce payload : Bytes} {username : String}
    (hstate : server.state = .awaitingResponse nonce)
    (hclaim : claimedUsername (AttributeList.parse payload) = .ok username)
    (hlacks : lacksSecret { server.credentials with username } = true) :
    server.respond payload =
      .reply .inputNeeded { server with credentials := { server.credentials with username } }
        ((AttributeList.read payload).log ++ qopLog (AttributeList.parse payload)) := by
  rw [respond_of_awaiting payload hstate, receive_of_lacks hclaim hlacks]
  rfl

end Server

/-! ## Top theorems -/

/-- Fed with each other's messages, client and server come to the end together when the server
knows the password or the digest of it, be it from the start or from the moment it asked. The
server then holds the client's username. -/
theorem completes_together (username password host serviceType cnonce nonce : String)
    (credentials : Credentials) (p₀ p₁ p₂ : Bytes) :
    let client : Client := { username, password, serviceType, host, nonces := .ok cnonce }
    let server := Server.ofCredentials credentials (.ok nonce)
    ∃ challenge response proof,
      (ClientMechanism.run client [p₀, challenge, proof]).map Step.answer =
          [.ok (.proceed []), .ok (.proceed response), .ok (.complete [])] ∧
        (Knows credentials username password credentials.realm →
          let events := [.payload p₁, .payload response, .payload p₂]
          (run server events).map Step.answer =
              [.ok (.challenge challenge), .ok (.challenge proof), .ok (.success [])] ∧
            (after server events).credentials = { credentials with username }) ∧
        (credentials.password = "" → credentials.passwordDigest = [] →
          let asked := { credentials with username }
          (after server [.payload p₁, .payload response]).credentials = asked ∧
            ∀ change, Knows (change asked) username password credentials.realm →
              let events := [.payload p₁, .payload response, .edit change, .payload response,
                .payload p₂]
              (run server events).map Step.answer =
                  [.ok (.challenge challenge), .ok .inputNeeded, .ok (.challenge proof),
                    .ok (.success [])] ∧
                (after server events).credentials = { change asked with username }) := by
  intro client server
  let offer : Challenge := ⟨Utf8.encode nonce, Utf8.encode credentials.realm⟩
  let challenge := AttributeList.serialize
    (Server.challenge credentials.realm (Utf8.encode nonce))
  let response := AttributeList.serialize (client.answer offer cnonce)
  let waiting : Server := { server with state := .awaitingResponse (Utf8.encode nonce) }
  have hstart : ServerMechanism.respond server p₁ = .reply (.challenge challenge) waiting :=
    Server.respond_of_start rfl rfl p₁
  have hclaim : Server.claimedUsername (AttributeList.parse response) = .ok username := by
    rw [client.parse_answer, claimedUsername_answer]
  have hclient : ∀ known, Knows known username password credentials.realm →
      Authenticates known (Utf8.encode nonce) (AttributeList.parse response)
        (client.secret offer) (client.context offer cnonce) := by
    intro known hknows
    rw [client.parse_answer]
    exact authenticates_answer client offer cnonce hknows.yields
  refine ⟨challenge, response, rspauth (client.secret offer) (client.context offer cnonce),
    client.answers_of_server rfl rfl credentials.realm nonce p₀, ?_, ?_⟩
  · intro hknows
    obtain ⟨hrun, hcredentials⟩ := Server.completes_of_authenticates
      (rfl : waiting.state = _) hclaim (hclient credentials hknows) p₂
    dsimp only
    rw [map_answer_run_payload hstart, after_payload hstart, hrun, hcredentials]
    exact ⟨rfl, rfl⟩
  · intro hpassword hdigest asked
    have hlacks : Server.lacksSecret asked = true := by
      simp [asked, Server.lacksSecret, hpassword, hdigest]
    let asking : Server := { waiting with credentials := asked }
    have hasked : ServerMechanism.respond waiting response = .reply .inputNeeded asking _ :=
      Server.respond_of_lacks rfl hclaim hlacks
    constructor
    · rw [after_payload hstart, after_payload hasked]
      rfl
    · intro change hknows
      let supplied : Server := { asking with credentials := change asked }
      have hedit : ServerMechanism.next asking (.edit change) = supplied := rfl
      obtain ⟨hrun, hcredentials⟩ := Server.completes_of_authenticates
        (rfl : supplied.state = _) hclaim (hclient (change asked) hknows) p₂
      dsimp only
      rw [map_answer_run_payload hstart, map_answer_run_payload hasked, run_edit hedit, hrun,
        after_payload hstart, after_payload hasked, after_edit hedit, hcredentials]
      exact ⟨rfl, rfl⟩

/-- Separators in the texts are no obstacle, neither with the password at hand nor with a digest
that is supplied when the server asks. -/
theorem completes_together_separators :
    (∃ challenge response proof,
      (run (Server.ofCredentials { password := "r0m30", realm := "a=\"b\\" } (.ok "n,1"))
          [.payload [], .payload response, .payload []]).map Step.answer =
        [.ok (.challenge challenge), .ok (.challenge proof), .ok (.success [])]) ∧
      ∃ challenge response proof,
        (run (Server.ofCredentials { realm := "a=\"b\\" } (.ok "n,1"))
            [.payload [], .payload response,
              .edit fun c => c.withPasswordDigest
                (secret (Utf8.encode "ro,meo") (Utf8.encode "a=\"b\\") (Utf8.encode "r0m30")),
              .payload response, .payload []]).map Step.answer =
          [.ok (.challenge challenge), .ok .inputNeeded, .ok (.challenge proof),
            .ok (.success [])] := by
  constructor
  · obtain ⟨challenge, response, proof, -, hknown, -⟩ :=
      completes_together "ro,meo" "r0m30" "example.org" "xmpp" "c 1" "n,1"
        { password := "r0m30", realm := "a=\"b\\" } [] [] []
    exact ⟨challenge, response, proof, (hknown (.inl ⟨rfl, by decide⟩)).1⟩
  · obtain ⟨challenge, response, proof, -, -, hasked⟩ :=
      completes_together "ro,meo" "r0m30" "example.org" "xmpp" "c 1" "n,1"
        { realm := "a=\"b\\" } [] [] []
    exact ⟨challenge, response, proof, ((hasked rfl rfl).2 _ (.inr ⟨rfl, rfl⟩)).1⟩

end SaslExchange.DigestMd5
