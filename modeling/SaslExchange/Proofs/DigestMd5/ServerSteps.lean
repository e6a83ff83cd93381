import SaslExchange.DigestMd5.Server
import SaslExchange.Proofs.DigestMd5.RoundTrip
import SaslExchange.Proofs.Guards

/-!
# Steps of the DIGEST-MD5 server

What each step of the server answers, and when it takes an answer for a proof.

    the server sends its own proof ↔ the answer authenticates      (answer_eq_challenge_iff)
    what a step answers and where it leads                         (outcome_respond)
    only a server that is over says so                              (respond_avoids)
-/

namespace SaslExchange.DigestMd5

/-! ## Proofs of the client -/

/-- The digits of a proof. -/
def proofDigits : Bytes := Utf8.encode "0123456789abcdef"

/-- The attributes prove knowledge of the secret in the exchange with the given nonce. -/
structure Proves (nonce : Bytes) (attributes : Attributes) (secret : Bytes) (context : Context) :
    Prop where
  issued : context.nonce = nonce
  nonce : attributes.find? "nonce" = some context.nonce
  cnonce : attributes.find? "cnonce" = some context.cnonce
  nonceCount : attributes.find? "nc" = some context.nonceCount
  digestUri : attributes.find? "digest-uri" = some context.digestUri
  response : attributes.find? "response" = some (clientProof secret context)

/-- The secret of a user in a realm that the credentials yield: that of the password if there is
one, else the stored one. -/
def Yields (credentials : Credentials) (username : String) (realm secret : Bytes) : Prop :=
  (credentials.password ≠ "" ∧
      secret =
        DigestMd5.secret (Utf8.encode username) realm (Utf8.encode credentials.password)) ∨
    (credentials.password = "" ∧ credentials.passwordDigest ≠ [] ∧
      secret = credentials.passwordDigest)

/-- The attributes pick `auth`, name a user, and prove knowledge of the user's secret. -/
structure Authenticates (credentials : Credentials) (nonce : Bytes) (attributes : Attributes)
    (secret : Bytes) (context : Context) : Prop extends
    Proves nonce attributes secret context where
  qop : ∃ qop, attributes.find? "qop" = some qop ∧ Bytes.trim qop = Utf8.encode "auth"
  known : ∃ username, attributes.find? "username" = some (Utf8.encode username) ∧
    Yields credentials username ((attributes.find? "realm").getD []) secret

/-- The server's proof as a message. -/
def rspauth (secret : Bytes) (context : Context) : Bytes :=
  Utf8.encode "rspauth=" ++ serverProof secret context

/-! ## The text of a proof -/

theorem utf8EncodeChar_digit : ∀ n < 16,
    String.utf8EncodeChar (Hex.digit n) = [(Hex.digit n).toUInt8] ∧
      (Hex.digit n).toUInt8 ∈ proofDigits := by
  decide

theorem encode_hex (bytes : Bytes) :
    Utf8.encode (Hex.encode bytes) = bytes.flatMap fun b =>
      [(Hex.digit (b.toNat / 16)).toUInt8, (Hex.digit (b.toNat % 16)).toUInt8] := by
  rw [Hex.encode, Utf8.encode_ofList]
  induction bytes with
  | nil => rfl
  | cons b bytes ih =>
    have hb : b.toNat < 256 := b.toNat_lt
    have hhigh := (utf8EncodeChar_digit (b.toNat / 16) (by omega)).1
    have hlow := (utf8EncodeChar_digit (b.toNat % 16) (by omega)).1
    simp only [Hex.encodeChars, List.flatMap_cons, List.flatMap_append, List.flatMap_nil] at ih ⊢
    rw [ih, hhigh, hlow]
    rfl

theorem mem_proofDigits_of_mem {bytes : Bytes} {b : UInt8}
    (h : b ∈ Utf8.encode (Hex.encode bytes)) : b ∈ proofDigits := by
  rw [encode_hex, List.mem_flatMap] at h
  obtain ⟨c, -, hb⟩ := h
  have hc : c.toNat < 256 := c.toNat_lt
  simp only [List.mem_cons, List.not_mem_nil, or_false] at hb
  rcases hb with rfl | rfl
  · exact (utf8EncodeChar_digit (c.toNat / 16) (by omega)).2
  · exact (utf8EncodeChar_digit (c.toNat % 16) (by omega)).2

theorem length_encode_hex (bytes : Bytes) :
    (Utf8.encode (Hex.encode bytes)).length = 2 * bytes.length := by
  rw [encode_hex]
  induction bytes with
  | nil => rfl
  | cons b bytes ih =>
    simp only [List.flatMap_cons, List.length_append, List.length_cons, List.length_nil, ih]
    omega

theorem length_proof (method secret : Bytes) (context : Context) :
    (proof method secret context).length = 32 := by
  unfold proof md5Hex
  rw [length_encode_hex, Digest.length_hash]
  rfl

theorem length_serverProof (secret : Bytes) (context : Context) :
    (serverProof secret context).length = 32 := length_proof [] secret context

theorem mem_proofDigits_of_mem_serverProof {secret : Bytes} {context : Context} {b : UInt8}
    (h : b ∈ serverProof secret context) : b ∈ proofDigits := mem_proofDigits_of_mem h

/-- Digits need no quotes. -/
theorem writeValue_proof (method secret : Bytes) (context : Context) :
    AttributeList.writeValue (proof method secret context) = proof method secret context := by
  have hquote : ¬(proof method secret context).any AttributeList.separators.contains = true := by
    rw [List.any_eq_true]
    rintro ⟨b, hb, hseparator⟩
    have hdigits : ∀ b ∈ proofDigits, AttributeList.separators.contains b = false := by
      decide +kernel
    rw [hdigits b (mem_proofDigits_of_mem hb)] at hseparator
    exact absurd hseparator (by decide)
  exact if_neg hquote

theorem toList_ofEntries_singleton (entry : Entry) :
    (Attributes.ofEntries [entry]).toList = [entry] := by
  have hmem : entry ∈ (Attributes.ofEntries [entry]).toList := by
    obtain ⟨key, value⟩ := entry
    rw [Std.ExtTreeMap.mem_toList_iff_getElem?_eq_some,
      Attributes.getElem?_ofEntries, lastValue?_cons]
    simp
  have hlength : (Attributes.ofEntries [entry]).toList.length = 1 := by
    rw [Std.ExtTreeMap.length_toList]
    simp [Attributes.ofEntries, Std.ExtTreeMap.size_insert]
  obtain ⟨other, hother⟩ := List.length_eq_one_iff.1 hlength
  rw [hother, List.mem_singleton] at hmem
  rw [hother, hmem]

theorem proofMessage_serverProof (secret : Bytes) (context : Context) :
    Server.proofMessage (serverProof secret context) = rspauth secret context := by
  have hname : Utf8.encode "rspauth=" = Utf8.encode "rspauth" ++ [Ascii.equals] := by decide
  have hvalue : AttributeList.writeValue (serverProof secret context) =
      serverProof secret context := writeValue_proof [] secret context
  unfold Server.proofMessage AttributeList.serialize
  rw [toList_ofEntries_singleton, rspauth, hname]
  simp [Bytes.joinWith, AttributeList.writeEntry, entry, hvalue]

/-- The server's proof is read back. -/
theorem find?_rspauth (secret : Bytes) (context : Context) :
    (AttributeList.parse (rspauth secret context)).find? "rspauth" =
      some (serverProof secret context) := by
  have hkey : PlainKey (Utf8.encode "rspauth") := by decide
  rw [← proofMessage_serverProof, Server.proofMessage, Attributes.parse_serialize_ofEntries,
    Attributes.find?_ofEntries]
  · simp [entry, lastValue?_cons]
  · simp [entry, hkey]

/-! ## Steps -/

namespace Server

/-- The challenge is read back as it was sent. -/
theorem parse_challenge (realm : String) (nonce : Bytes) :
    AttributeList.parse (AttributeList.serialize (challenge realm nonce)) =
      challenge realm nonce := by
  have hkeys : ∀ name ∈ ["nonce", "realm", "qop", "charset", "algorithm"],
      PlainKey (Utf8.encode name) := by decide
  refine Attributes.parse_serialize_ofEntries ?_
  by_cases hrealm : realm.isEmpty = true
  · simp [hrealm, entry, hkeys]
  · simp [hrealm, entry, hkeys]

theorem required_eq_ok_iff {attributes : Attributes} {name : String} {value : Bytes} :
    required attributes name = .ok value ↔ attributes.find? name = some value := by
  unfold required
  cases attributes.find? name <;> simp

theorem verify_eq_ok_iff {credentials : Credentials} {nonce : Bytes} {attributes : Attributes}
    {proof : Bytes} :
    verify credentials nonce attributes = .ok proof ↔
      ∃ context,
        Proves nonce attributes
          (knownSecret credentials ((attributes.find? "realm").getD [])) context ∧
        proof = serverProof (knownSecret credentials ((attributes.find? "realm").getD []))
          context := by
  unfold verify
  simp only [bind_eq_ok_iff, required_eq_ok_iff, pure_eq_ok_iff, ite_throw_eq_ok_iff, ne_eq,
    Decidable.not_not]
  constructor
  · rintro ⟨_, hnonce, rfl, cnonce, hcnonce, nonceCount, hnonceCount, digestUri, hdigestUri, _,
      hresponse, rfl, rfl⟩
    exact ⟨⟨digestUri, _, cnonce, nonceCount⟩,
      ⟨rfl, hnonce, hcnonce, hnonceCount, hdigestUri, hresponse⟩, rfl⟩
  · rintro ⟨context, ⟨rfl, hnonce, hcnonce, hnonceCount, hdigestUri, hresponse⟩, rfl⟩
    exact ⟨_, hnonce, rfl, _, hcnonce, _, hnonceCount, _, hdigestUri, _, hresponse, rfl, rfl⟩

theorem yields_iff {credentials : Credentials} {username : String} {realm secret : Bytes} :
    Yields credentials username realm secret ↔
      lacksSecret { credentials with username } = false ∧
        secret = knownSecret { credentials with username } realm := by
  unfold Yields lacksSecret knownSecret
  by_cases hpassword : credentials.password = ""
  · simp [hpassword]
  · simp [hpassword]

theorem picksAuth_iff {attributes : Attributes} :
    picksAuth attributes = true ↔
      ∃ qop, attributes.find? "qop" = some qop ∧ Bytes.trim qop = Utf8.encode "auth" := by
  simp [picksAuth]

theorem claimedUsername_eq_ok_iff {attributes : Attributes} {username : String} :
    claimedUsername attributes = .ok username ↔
      (∃ qop, attributes.find? "qop" = some qop ∧ Bytes.trim qop = Utf8.encode "auth") ∧
        attributes.find? "username" = some (Utf8.encode username) := by
  rw [← picksAuth_iff]
  unfold claimedUsername
  by_cases hqop : picksAuth attributes = true
  · rw [if_pos hqop]
    cases attributes.find? "username" with
    | none => simp
    | some raw =>
      dsimp only
      rw [Option.some.injEq, @eq_comm _ raw, ← Utf8.decode?_eq_some_iff]
      cases Utf8.decode? raw with
      | none => simp
      | some found => simp [hqop]
  · simp [hqop]

theorem required_avoids (attributes : Attributes) (name : String) :
    Avoids ServerError.IsOwn (required attributes name) := by
  unfold required
  cases attributes.find? name with
  | none => exact nofun
  | some value => exact nofun

theorem verify_avoids (credentials : Credentials) (nonce : Bytes) (attributes : Attributes) :
    Avoids ServerError.IsOwn (verify credentials nonce attributes) := by
  unfold verify
  refine (required_avoids attributes "nonce").bind fun echoed => .guard nofun ?_
  refine (required_avoids attributes "cnonce").bind fun cnonce => ?_
  refine (required_avoids attributes "nc").bind fun nonceCount => ?_
  refine (required_avoids attributes "digest-uri").bind fun digestUri => ?_
  refine (required_avoids attributes "response").bind fun response => ?_
  exact .guard nofun (.pure _)

theorem claimedUsername_avoids (attributes : Attributes) :
    Avoids ServerError.IsOwn (claimedUsername attributes) := by
  unfold claimedUsername
  by_cases hqop : picksAuth attributes = true
  · rw [if_pos hqop]
    cases attributes.find? "username" with
    | none => exact nofun
    | some raw =>
      dsimp only
      cases Utf8.decode? raw with
      | none => exact nofun
      | some username => exact nofun
  · rw [if_neg hqop]
    exact nofun

/-- A server without a secret asks for one. -/
theorem receive_of_lacks {server : Server} {nonce : Bytes} {attributes : Attributes}
    {username : String} (hclaim : claimedUsername attributes = .ok username)
    (hlacks : lacksSecret { server.credentials with username } = true) :
    server.receive nonce attributes =
      .reply .inputNeeded
        { server with credentials := { server.credentials with username } } := by
  unfold receive
  rw [hclaim]
  exact if_pos hlacks

/-- A server that is shown a proof answers with its own. -/
theorem receive_of_authenticates {server : Server} {nonce : Bytes} {attributes : Attributes}
    {username : String} {secret : Bytes} {context : Context}
    (hclaim : claimedUsername attributes = .ok username)
    (h : Authenticates server.credentials nonce attributes secret context) :
    server.receive nonce attributes =
      .reply (.challenge (rspauth secret context))
        { server with
          credentials := { server.credentials with username }
          state := .sentProof } := by
  obtain ⟨name, hname, hyields⟩ := h.known
  obtain rfl : name = username := by
    rw [(claimedUsername_eq_ok_iff.1 hclaim).2] at hname
    exact (Utf8.encode_injective (Option.some.inj hname)).symm
  obtain ⟨hlacks, rfl⟩ := yields_iff.1 hyields
  have hverify : verify { server.credentials with username := name } nonce attributes =
      .ok (serverProof (knownSecret { server.credentials with username := name }
        ((attributes.find? "realm").getD [])) context) :=
    verify_eq_ok_iff.2 ⟨context, h.toProves, rfl⟩
  unfold receive
  rw [hclaim]
  dsimp only
  rw [hlacks, hverify, ← proofMessage_serverProof]
  rfl

/-- What an answer comes to, in the state that waits for it. -/
theorem receive_cases (server : Server) (nonce : Bytes) (attributes : Attributes) :
    (∃ username secret context, claimedUsername attributes = .ok username ∧
        Authenticates server.credentials nonce attributes secret context) ∨
      (∃ username, claimedUsername attributes = .ok username ∧
        lacksSecret { server.credentials with username } = true) ∨
      ∃ cause, (server.receive nonce attributes).answer = .error cause ∧
        (server.receive nonce attributes).next.state = .ended := by
  cases hclaim : claimedUsername attributes with
  | error cause =>
    right; right
    refine ⟨cause, ?_⟩
    unfold receive
    rw [hclaim]
    exact ⟨rfl, rfl⟩
  | ok username =>
    by_cases hlacks : lacksSecret { server.credentials with username } = true
    · exact .inr (.inl ⟨username, rfl, hlacks⟩)
    · rw [Bool.not_eq_true] at hlacks
      cases hverify : verify { server.credentials with username } nonce attributes with
      | error cause =>
        right; right
        refine ⟨cause, ?_⟩
        unfold receive
        rw [hclaim]
        dsimp only
        rw [hlacks, hverify]
        exact ⟨rfl, rfl⟩
      | ok proof =>
        left
        obtain ⟨context, hproves, -⟩ := verify_eq_ok_iff.1 hverify
        obtain ⟨hqop, hname⟩ := claimedUsername_eq_ok_iff.1 hclaim
        exact ⟨username, _, context, rfl, hproves, hqop, username, hname,
          yields_iff.2 ⟨hlacks, rfl⟩⟩

theorem respond_of_start {server : Server} {nonce : String} (hstate : server.state = .start)
    (hnonce : server.nonces = .ok nonce) (payload : Bytes) :
    server.respond payload =
      .reply
        (.challenge
          (AttributeList.serialize (challenge server.credentials.realm (Utf8.encode nonce))))
        { server with state := .awaitingResponse (Utf8.encode nonce) } := by
  unfold respond
  rw [hstate]
  dsimp only
  rw [hnonce]

/-- A waiting server logs what was wrong with the answer, and takes it as it was read. -/
theorem respond_of_awaiting {server : Server} {nonce : Bytes} (payload : Bytes)
    (hstate : server.state = .awaitingResponse nonce) :
    server.respond payload =
      { server.receive nonce (AttributeList.parse payload) with
        log := (AttributeList.read payload).log ++ qopLog (AttributeList.parse payload) } := by
  unfold respond
  rw [hstate]
  rfl

/-- What a step answers, and the state that it leads to. -/
inductive Outcome (server : Server) (payload : Bytes) :
    Except ServerError ServerReply → State → Prop
  | issues (text : String) (hstate : server.state = .start) :
      Outcome server payload
        (.ok (.challenge
          (AttributeList.serialize (challenge server.credentials.realm (Utf8.encode text)))))
        (.awaitingResponse (Utf8.encode text))
  | asks (nonce : Bytes) (hstate : server.state = .awaitingResponse nonce) :
      Outcome server payload (.ok .inputNeeded) (.awaitingResponse nonce)
  | proves (nonce secret : Bytes) (context : Context)
      (hstate : server.state = .awaitingResponse nonce)
      (hclient : Authenticates server.credentials nonce (AttributeList.parse payload) secret
        context) :
      Outcome server payload (.ok (.challenge (rspauth secret context))) .sentProof
  | succeeds (hstate : server.state = .sentProof) :
      Outcome server payload (.ok (.success [])) .ended
  | fails (cause : ServerError) : Outcome server payload (.error cause) .ended

theorem outcome_respond (server : Server) (payload : Bytes) :
    Outcome server payload (server.respond payload).answer
      (server.respond payload).next.state := by
  cases hstate : server.state with
  | start =>
    unfold respond
    rw [hstate]
    dsimp only
    cases server.nonces with
    | error cause => exact .fails (.crypto cause)
    | ok text => exact .issues text hstate
  | awaitingResponse nonce =>
    rw [respond_of_awaiting payload hstate]
    dsimp only
    rcases receive_cases server nonce (AttributeList.parse payload) with
      ⟨username, secret, context, hclaim, hclient⟩ | ⟨username, hclaim, hlacks⟩ |
        ⟨cause, hcause, hover⟩
    · rw [receive_of_authenticates hclaim hclient]
      exact .proves nonce secret context hstate hclient
    · rw [receive_of_lacks hclaim hlacks]
      dsimp only [Step.reply]
      rw [hstate]
      exact .asks nonce hstate
    · rw [hcause, hover]
      exact .fails cause
  | sentProof =>
    unfold respond
    rw [hstate]
    exact .succeeds hstate
  | ended =>
    unfold respond
    rw [hstate]
    dsimp only [Step.fail]
    rw [hstate]
    exact .fails .sessionAlreadyOver

theorem receive_avoids (server : Server) (nonce : Bytes) (attributes : Attributes) :
    Avoids ServerError.IsOwn (server.receive nonce attributes).answer := by
  unfold receive
  cases hclaim : claimedUsername attributes with
  | error cause => exact .throw (claimedUsername_avoids attributes cause hclaim)
  | ok username =>
    dsimp only
    by_cases hlacks : lacksSecret { server.credentials with username } = true
    · rw [if_pos hlacks]
      exact nofun
    · rw [if_neg hlacks]
      cases hverify : verify { server.credentials with username } nonce attributes with
      | error cause => exact .throw (verify_avoids _ nonce attributes cause hverify)
      | ok proof => exact nofun

/-- Only a server whose exchange is over says so. -/
theorem respond_avoids {server : Server} (hstate : server.state ≠ .ended) (payload : Bytes) :
    Avoids (· = .sessionAlreadyOver) (server.respond payload).answer := by
  cases hcase : server.state with
  | start =>
    unfold respond
    rw [hcase]
    dsimp only
    cases server.nonces with
    | error cause => exact nofun
    | ok text => exact nofun
  | awaitingResponse nonce =>
    rw [respond_of_awaiting payload hcase]
    exact (server.receive_avoids nonce _).weaken fun _ => (· ▸ .sessionAlreadyOver)
  | sentProof =>
    unfold respond
    rw [hcase]
    exact nofun
  | ended => exact absurd hcase hstate

/-- A server that waits for an answer sends its proof exactly when the answer is one. -/
theorem answer_eq_challenge_iff {server : Server} {nonce payload data : Bytes}
    (hstate : server.state = .awaitingResponse nonce) :
    (server.respond payload).answer = .ok (.challenge data) ↔
      ∃ secret context,
        Authenticates server.credentials nonce (AttributeList.parse payload) secret context ∧
          data = rspauth secret context := by
  constructor
  · intro hanswer
    have houtcome := outcome_respond server payload
    rw [hanswer] at houtcome
    generalize (server.respond payload).next.state = state at houtcome
    cases houtcome with
    | issues text hstart => simp [hstate] at hstart
    | proves issued secret context hissued hclient =>
      rw [hstate] at hissued
      obtain rfl := State.awaitingResponse.inj hissued
      exact ⟨secret, context, hclient, rfl⟩
  · rintro ⟨secret, context, hclient, rfl⟩
    obtain ⟨username, hname, -⟩ := hclient.known
    have hclaim := claimedUsername_eq_ok_iff.2 ⟨hclient.qop, hname⟩
    rw [respond_of_awaiting payload hstate, receive_of_authenticates hclaim hclient]
    rfl

end Server

end SaslExchange.DigestMd5
