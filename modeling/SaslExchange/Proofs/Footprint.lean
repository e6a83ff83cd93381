import SaslExchange.Anonymous
import SaslExchange.Proofs.DigestMd5.Reception
import SaslExchange.Proofs.DigestMd5.ServerRuns
import SaslExchange.Proofs.PlainMessages

/-!
# What a step writes into the credentials

The owner of a server reads off the credentials whom to authenticate, so a step must not leave half
of an identity there. It writes what the client claims to be, all of it at once, and nothing that
only the owner may set.

    a DIGEST-MD5 server notes the claimed user while it waits    (credentials_respond_of_claims)
    and nothing at any other time                            (credentials_respond_of_not_claims)
    a PLAIN server notes three fields or nothing                        (respond_fields_or_none)
    what a step of any server writes                              (writes_claimed_identity_only)
-/

namespace SaslExchange

open ServerMechanism

/-- What only the owner may set is as before. -/
structure Credentials.Keeps (before after : Credentials) : Prop where
  passwordDigest : after.passwordDigest = before.passwordDigest
  host : after.host = before.host
  serviceType : after.serviceType = before.serviceType
  realm : after.realm = before.realm

theorem Credentials.Keeps.refl (credentials : Credentials) : credentials.Keeps credentials :=
  ⟨rfl, rfl, rfl, rfl⟩

/-- A claimed identity is not the owner's to set. -/
theorem Credentials.keeps_identity (credentials : Credentials) (username password : String) :
    credentials.Keeps { credentials with username, password } :=
  ⟨rfl, rfl, rfl, rfl⟩

/-! ## ANONYMOUS -/

theorem Anonymous.Server.credentials_respond (server : Server) (payload : Bytes) :
    (server.respond payload).next.credentials = server.credentials := by
  unfold respond
  by_cases hended : server.ended = true
  · rw [if_pos hended]
    rfl
  · rw [if_neg hended]
    rfl

/-! ## DIGEST-MD5 -/

namespace DigestMd5.Server

/-- A server waits for an answer when its history says so. -/
theorem awaits_iff {credentials : Credentials} {nonces : NonceSource} {events : List ServerEvent}
    {nonce : Bytes} :
    Awaits nonce (run (ofCredentials credentials nonces) events) ↔
      (after (ofCredentials credentials nonces) events).state = .awaitingResponse nonce := by
  constructor
  · exact state_of_awaits
  · intro hstate
    have hreached := reached_after credentials nonces events
    rw [hstate] at hreached
    cases hreached with
    | awaiting _ hawaits => exact hawaits

theorem credentials_respond_of_claims {server : Server} {nonce payload : Bytes}
    {username : String} (hstate : server.state = .awaitingResponse nonce)
    (h : Claims (AttributeList.parse payload) username) :
    (server.respond payload).next.credentials = server.credentials.withUsername username := by
  rw [respond_of_claims hstate h]
  exact credentials_settle

/-- Before the challenge is out, after the proof, and on an answer that claims no user. -/
theorem credentials_respond_of_not_claims {server : Server} {payload : Bytes}
    (h : ∀ nonce username, server.state = .awaitingResponse nonce →
      ¬Claims (AttributeList.parse payload) username) :
    (server.respond payload).next.credentials = server.credentials := by
  cases hstate : server.state with
  | start =>
    unfold respond
    rw [hstate]
    dsimp only
    cases server.nonces with
    | error cause => rfl
    | ok text => rfl
  | awaitingResponse nonce =>
    obtain ⟨cause, hfails⟩ := exists_respond_of_not_claims fun username => h nonce username hstate
    rw [(hfails server nonce hstate).2]
  | sentProof =>
    unfold respond
    rw [hstate]
    rfl
  | ended =>
    unfold respond
    rw [hstate]
    rfl

/-- A step leaves alone what only the owner may set, and the password. -/
theorem keeps_respond (server : Server) (payload : Bytes) :
    server.credentials.Keeps (server.respond payload).next.credentials ∧
      (server.respond payload).next.credentials.password = server.credentials.password := by
  by_cases h : ∃ nonce username, server.state = .awaitingResponse nonce ∧
      Claims (AttributeList.parse payload) username
  · obtain ⟨nonce, username, hstate, hclaims⟩ := h
    rw [credentials_respond_of_claims hstate hclaims]
    exact ⟨server.credentials.keeps_identity username server.credentials.password, rfl⟩
  · have hnot : (server.respond payload).next.credentials = server.credentials := by
      apply credentials_respond_of_not_claims
      intro nonce username hstate hclaims
      exact h ⟨nonce, username, hstate, hclaims⟩
    rw [hnot]
    exact ⟨.refl _, rfl⟩

end DigestMd5.Server

/-! ## PLAIN -/

/-- A step asks the owner to check the three fields of the message, or notes none of them. -/
theorem Plain.Server.respond_fields_or_none (server : Server) (payload : Bytes) :
    (∃ fields : Fields,
      ThreeFields payload (Utf8.encode fields.authzid) (Utf8.encode fields.username)
          (Utf8.encode fields.password) ∧
        server.respond payload =
          .reply .inputNeeded
            { credentials := { server.credentials with
                username := fields.username, password := fields.password }
              authzid := fields.authzid
              ended := true }) ∨
      (server.respond payload).answer ≠ .ok .inputNeeded ∧
        (server.respond payload).next.authzid = server.authzid ∧
        (server.respond payload).next.credentials = server.credentials := by
  cases hended : server.ended with
  | true =>
    right
    unfold respond
    rw [if_pos hended]
    exact ⟨nofun, rfl, rfl⟩
  | false =>
    by_cases hpayload : payload = []
    · right
      have hrespond : server.respond [] = .reply (.challenge []) server := by
        unfold respond
        rw [if_neg (by simp [hended])]
        rfl
      rw [hpayload, hrespond]
      exact ⟨nofun, rfl, rfl⟩
    · cases hfields : Fields.ofMessage payload with
      | error cause =>
        right
        rw [respond_of_error hended hpayload hfields]
        exact ⟨nofun, rfl, rfl⟩
      | ok fields =>
        left
        exact ⟨fields, Fields.ofMessage_eq_ok_iff.1 hfields, respond_of_ok hended hpayload hfields⟩

/-! ## Top theorem -/

/-- Whatever happened to a server before, a step leaves alone what only the owner may set. An
ANONYMOUS server writes nothing. A DIGEST-MD5 server writes the username that an answer claims while
it waits for one, whatever comes of the answer. A PLAIN server writes the three fields of a message
together when it asks for their check, and otherwise none. -/
theorem writes_claimed_identity_only (credentials : Credentials) (nonces : NonceSource)
    (events : List ServerEvent) (payload : Bytes) :
    let anonymous := after (Anonymous.Server.ofCredentials credentials) events
    let fresh := DigestMd5.Server.ofCredentials credentials nonces
    let digestMd5 := after fresh events
    let written := (respond digestMd5 payload).next.credentials
    let claims (username : String) : Prop :=
      (∃ nonce, DigestMd5.Server.Awaits nonce (run fresh events)) ∧
        DigestMd5.Claims (DigestMd5.AttributeList.parse payload) username
    let plain := after (Plain.Server.ofCredentials credentials) events
    let step := respond plain payload
    (respond anonymous payload).next.credentials = anonymous.credentials ∧
      (digestMd5.credentials.Keeps written ∧
        written.password = digestMd5.credentials.password ∧
        (∀ username, claims username → written.username = username) ∧
        ((∀ username, ¬claims username) →
          written.username = digestMd5.credentials.username)) ∧
      plain.credentials.Keeps step.next.credentials ∧
        (step.answer = .ok .inputNeeded →
          Plain.ThreeFields payload (Utf8.encode step.next.authzid)
            (Utf8.encode step.next.credentials.username)
            (Utf8.encode step.next.credentials.password)) ∧
        (step.answer ≠ .ok .inputNeeded →
          step.next.authzid = plain.authzid ∧
            step.next.credentials.username = plain.credentials.username ∧
            step.next.credentials.password = plain.credentials.password) := by
  intro anonymous fresh digestMd5 written claims plain step
  refine ⟨anonymous.credentials_respond payload, ?_, ?_⟩
  · obtain ⟨hkeeps, hpassword⟩ := digestMd5.keeps_respond payload
    refine ⟨hkeeps, hpassword, ?_, ?_⟩
    · rintro username ⟨⟨nonce, hawaits⟩, hclaim⟩
      have hwritten : written = digestMd5.credentials.withUsername username :=
        DigestMd5.Server.credentials_respond_of_claims (DigestMd5.Server.awaits_iff.1 hawaits)
          hclaim
      rw [hwritten]
      rfl
    · intro h
      have hwritten : written = digestMd5.credentials := by
        apply DigestMd5.Server.credentials_respond_of_not_claims
        intro nonce username hstate hclaim
        exact h username ⟨⟨nonce, DigestMd5.Server.awaits_iff.2 hstate⟩, hclaim⟩
      rw [hwritten]
  · rcases plain.respond_fields_or_none payload with
      ⟨fields, hfields, hstep⟩ | ⟨hanswer, hauthzid, hcredentials⟩
    · have hstep : step = _ := hstep
      rw [hstep]
      refine ⟨plain.credentials.keeps_identity fields.username fields.password, ?_, ?_⟩
      · intro _
        exact hfields
      · intro hanswer
        exact absurd rfl hanswer
    · have hcredentials : step.next.credentials = plain.credentials := hcredentials
      rw [hcredentials]
      refine ⟨.refl _, ?_, ?_⟩
      · intro h
        exact absurd h hanswer
      · intro _
        exact ⟨hauthzid, rfl, rfl⟩

/-- An answer without a proof leaves the name that it claims, one that doesn't pick `auth` leaves
none. -/
theorem writes_claimed_identity_only_unproved :
    let fresh := DigestMd5.Server.ofCredentials { username := "eve", password := "fyko" } (.ok "n")
    let waiting := after fresh [.payload []]
    let plain := Plain.Server.ofCredentials { username := "eve", realm := "elwood" }
    (respond waiting (Utf8.encode "qop=auth,username=tim")).answer =
        .error (.missingAttribute "nonce") ∧
      (respond waiting (Utf8.encode "qop=auth,username=tim")).next.credentials.username = "tim" ∧
      (respond waiting (Utf8.encode "username=tim")).next.credentials.username = "eve" ∧
      Plain.ThreeFields (Utf8.encode "a\x00tim\x00p")
        (Utf8.encode (respond plain (Utf8.encode "a\x00tim\x00p")).next.authzid)
        (Utf8.encode (respond plain (Utf8.encode "a\x00tim\x00p")).next.credentials.username)
        (Utf8.encode (respond plain (Utf8.encode "a\x00tim\x00p")).next.credentials.password) ∧
      (respond plain (Utf8.encode "tim\x00p")).next.credentials.username = "eve" := by
  intro fresh waiting plain
  have hawaits : ∃ nonce, DigestMd5.Server.Awaits nonce (run fresh [.payload []]) :=
    ⟨_, _, [], _, rfl, rfl, DigestMd5.Server.find?_nonce_challenge _ _, by simp⟩
  have hclaims : DigestMd5.Claims
      (DigestMd5.AttributeList.parse (Utf8.encode "qop=auth,username=tim")) "tim" :=
    ⟨⟨Utf8.encode "auth", by decide +kernel, by decide +kernel⟩, by decide +kernel⟩
  have hnone (username : String) :
      ¬DigestMd5.Claims (DigestMd5.AttributeList.parse (Utf8.encode "username=tim")) username := by
    rintro ⟨⟨qop, hqop, -⟩, -⟩
    have hmissing : (DigestMd5.AttributeList.parse (Utf8.encode "username=tim")).find? "qop" =
        none := by decide +kernel
    rw [hmissing] at hqop
    cases hqop
  have hproved := writes_claimed_identity_only { username := "eve", password := "fyko" } (.ok "n")
    [.payload []]
  have hplain := fun payload => (writes_claimed_identity_only
    { username := "eve", realm := "elwood" } (.ok "n") [] payload).2.2
  refine ⟨by decide +kernel, ?_, ?_, ?_, ?_⟩
  · exact (hproved (Utf8.encode "qop=auth,username=tim")).2.1.2.2.1 "tim" ⟨hawaits, hclaims⟩
  · exact (hproved (Utf8.encode "username=tim")).2.1.2.2.2 fun username h => hnone username h.2
  · exact (hplain _).2.1 (by decide +kernel)
  · exact ((hplain (Utf8.encode "tim\x00p")).2.2 (by decide +kernel)).2.1

end SaslExchange
