import SaslExchange.Proofs.DigestMd5.ServerSteps

/-!
# What a waiting server makes of an answer

An answer that claims no user is refused as it is. Any other one puts the claimed user into the
credentials and is settled with them. They count in the secret that they yield, and only for the
last of the checks.

    an answer that claims a user is settled in the user's name         (receive_of_claims)
    settling touches no credentials                                   (credentials_settle)
    whether the proof is the right one is asked last                  (verify_eq_error_iff)
-/

namespace SaslExchange.DigestMd5

/-- The attributes pick `auth` and name a user. -/
structure Claims (attributes : Attributes) (username : String) : Prop where
  qop : ∃ qop, attributes.find? "qop" = some qop ∧ Bytes.trim qop = Utf8.encode "auth"
  username : attributes.find? "username" = some (Utf8.encode username)

namespace Server

theorem claims_iff {attributes : Attributes} {username : String} :
    Claims attributes username ↔ claimedUsername attributes = .ok username := by
  rw [claimedUsername_eq_ok_iff]
  constructor
  · rintro ⟨hqop, hname⟩
    exact ⟨hqop, hname⟩
  · rintro ⟨hqop, hname⟩
    exact ⟨hqop, hname⟩

/-! ## Settling -/

/-- The server with the claimed user in its credentials. -/
def withClaim (server : Server) (username : String) : Server :=
  { server with credentials := server.credentials.withUsername username }

/-- Asks for a secret or checks the proof, with the claimed user in the credentials. -/
def settle (server : Server) (nonce : Bytes) (attributes : Attributes) : ServerStep Server :=
  if lacksSecret server.credentials then .reply .inputNeeded server
  else
    match verify server.credentials nonce attributes with
    | .error cause => .fail cause { server with state := .ended }
    | .ok proof => .reply (.challenge (proofMessage proof)) { server with state := .sentProof }

theorem withClaim_withClaim (server : Server) (first second : String) :
    (server.withClaim first).withClaim second = server.withClaim second := rfl

theorem receive_of_claims {server : Server} {nonce : Bytes} {attributes : Attributes}
    {username : String} (h : Claims attributes username) :
    server.receive nonce attributes = (server.withClaim username).settle nonce attributes := by
  unfold receive
  rw [claims_iff.1 h]
  rfl

/-- Without a claim, the cause can be told from the attributes. -/
theorem exists_receive_of_not_claims {attributes : Attributes}
    (h : ∀ username, ¬Claims attributes username) :
    ∃ cause, ∀ (server : Server) (nonce : Bytes),
      server.receive nonce attributes = .fail cause { server with state := .ended } := by
  cases hclaim : claimedUsername attributes with
  | ok username => exact absurd (claims_iff.2 hclaim) (h username)
  | error cause =>
    refine ⟨cause, ?_⟩
    intro server nonce
    unfold receive
    rw [hclaim]

theorem respond_of_claims {server : Server} {nonce payload : Bytes} {username : String}
    (hstate : server.state = .awaitingResponse nonce)
    (h : Claims (AttributeList.parse payload) username) :
    server.respond payload =
      { (server.withClaim username).settle nonce (AttributeList.parse payload) with
        log := (AttributeList.read payload).log ++ qopLog (AttributeList.parse payload) } := by
  rw [respond_of_awaiting payload hstate, receive_of_claims h]

/-- Any waiting server refuses an answer that claims no user, for one cause. -/
theorem exists_respond_of_not_claims {payload : Bytes}
    (h : ∀ username, ¬Claims (AttributeList.parse payload) username) :
    ∃ cause, ∀ (server : Server) (nonce : Bytes), server.state = .awaitingResponse nonce →
      (server.respond payload).answer = .error cause ∧
        (server.respond payload).next = { server with state := .ended } := by
  obtain ⟨cause, hreceive⟩ := exists_receive_of_not_claims h
  refine ⟨cause, ?_⟩
  intro server nonce hstate
  rw [respond_of_awaiting payload hstate, hreceive server nonce]
  exact ⟨rfl, rfl⟩

section

variable {server : Server} {nonce : Bytes} {attributes : Attributes}

theorem settle_of_lacks (h : lacksSecret server.credentials = true) :
    server.settle nonce attributes = .reply .inputNeeded server := if_pos h

theorem settle_of_error (h : lacksSecret server.credentials = false) {cause : ServerError}
    (hverify : verify server.credentials nonce attributes = .error cause) :
    server.settle nonce attributes = .fail cause { server with state := .ended } := by
  unfold settle
  rw [h, hverify]
  rfl

theorem settle_of_ok (h : lacksSecret server.credentials = false) {proof : Bytes}
    (hverify : verify server.credentials nonce attributes = .ok proof) :
    server.settle nonce attributes =
      .reply (.challenge (proofMessage proof)) { server with state := .sentProof } := by
  unfold settle
  rw [h, hverify]
  rfl

theorem credentials_settle : (server.settle nonce attributes).next.credentials =
    server.credentials := by
  cases hlacks : lacksSecret server.credentials with
  | true => rw [settle_of_lacks hlacks]; rfl
  | false =>
    cases hverify : verify server.credentials nonce attributes with
    | error cause => rw [settle_of_error hlacks hverify]; rfl
    | ok proof => rw [settle_of_ok hlacks hverify]; rfl

/-- A server asks for input exactly when it knows no secret, and then it waits as before. -/
theorem settle_of_inputNeeded
    (h : (server.settle nonce attributes).answer = .ok .inputNeeded) :
    server.settle nonce attributes = .reply .inputNeeded server := by
  cases hlacks : lacksSecret server.credentials with
  | true => exact settle_of_lacks hlacks
  | false =>
    cases hverify : verify server.credentials nonce attributes with
    | error cause =>
      rw [settle_of_error hlacks hverify] at h
      cases h
    | ok proof =>
      rw [settle_of_ok hlacks hverify] at h
      cases h

end

/-! ## What the credentials count for -/

/-- The credentials count in the secret that they yield. -/
theorem verify_congr {a b : Credentials} (nonce : Bytes) {attributes : Attributes}
    (h : knownSecret a ((attributes.find? "realm").getD []) =
      knownSecret b ((attributes.find? "realm").getD [])) :
    verify a nonce attributes = verify b nonce attributes := by
  unfold verify
  rw [h]

/-- Whatever the secret is, all but the last check come out the same. -/
theorem verify_eq_error_iff (a b : Credentials) {nonce : Bytes} {attributes : Attributes}
    {cause : ServerError} (hcause : cause ≠ .authenticationFailed) :
    verify a nonce attributes = .error cause ↔ verify b nonce attributes = .error cause := by
  unfold verify
  refine bind_eq_error_congr fun echoed => guard_eq_error_congr ?_
  refine bind_eq_error_congr fun cnonce => ?_
  refine bind_eq_error_congr fun nonceCount => ?_
  refine bind_eq_error_congr fun digestUri => ?_
  refine bind_eq_error_congr fun response => ?_
  exact Avoids.eq_error_iff (.guard hcause.symm (.pure _)) (.guard hcause.symm (.pure _))

end Server

end SaslExchange.DigestMd5
