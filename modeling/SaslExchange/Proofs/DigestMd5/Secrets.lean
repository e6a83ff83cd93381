import SaslExchange.Proofs.DigestMd5.Reception
import SaslExchange.Proofs.DigestMd5.ServerRuns
import SaslExchange.Proofs.Finality

/-!
# Where the secret comes from

An owner may supply the secret before the exchange or when the server asks for it, and may supply
the password or the digest that is stored in its place. The client's answer is taken in the same
way. All that asking leaves behind is the user that was claimed, and the next claim replaces it.

    asking leaves a waiting server with the claimed user                     (after_asked)
    the user that was claimed before is of no account                  (answers_withClaim)
    a secret that is supplied late counts as one supplied early            (late_as_early)
    the stored digest counts as the password                             (stored_as_plain)
-/

namespace SaslExchange.DigestMd5.Server

open ServerMechanism

/-! ## A waiting server -/

section

variable {server : Server} {nonce payload : Bytes}

/-- All that asking leaves behind is the claimed user. -/
theorem next_of_inputNeeded (hstate : server.state = .awaitingResponse nonce)
    (h : (server.respond payload).answer = .ok .inputNeeded) :
    ∃ username, (server.respond payload).next = server.withClaim username := by
  by_cases hclaims : ∃ username, Claims (AttributeList.parse payload) username
  · obtain ⟨username, hclaims⟩ := hclaims
    refine ⟨username, ?_⟩
    rw [respond_of_claims hstate hclaims] at h ⊢
    dsimp only at h ⊢
    rw [settle_of_inputNeeded h]
    rfl
  · obtain ⟨cause, hfails⟩ := exists_respond_of_not_claims (not_exists.1 hclaims)
    rw [(hfails server nonce hstate).1] at h
    cases h

/-- The same of any number of payloads. -/
theorem after_asked (hstate : server.state = .awaitingResponse nonce) {asked : List Bytes}
    (h : ∀ step ∈ run server (asked.map .payload), step.answer = .ok .inputNeeded) :
    (run server (asked.map .payload)).map Step.answer =
        List.replicate asked.length (.ok .inputNeeded) ∧
      ∃ username, after server (asked.map .payload) = server.withClaim username := by
  induction asked generalizing server with
  | nil => exact ⟨rfl, server.credentials.username, rfl⟩
  | cons payload asked ih =>
    have hfirst : (server.respond payload).answer = .ok .inputNeeded := h _ List.mem_cons_self
    obtain ⟨first, hnext⟩ := next_of_inputNeeded hstate hfirst
    have hwaits : (server.respond payload).next.state = .awaitingResponse nonce := by
      rw [hnext]
      exact hstate
    obtain ⟨hanswers, last, hafter⟩ :=
      ih hwaits fun step hstep => h step (List.mem_cons_of_mem _ hstep)
    refine ⟨congrArg₂ List.cons hfirst hanswers, last, hafter.trans ?_⟩
    rw [hnext, withClaim_withClaim]

/-- A claim replaces the one before it. -/
theorem respond_withClaim {username : String} (hstate : server.state = .awaitingResponse nonce)
    (h : Claims (AttributeList.parse payload) username) (before : String) :
    (server.withClaim before).respond payload = server.respond payload := by
  have hbefore : (server.withClaim before).state = .awaitingResponse nonce := hstate
  rw [respond_of_claims hstate h, respond_of_claims hbefore h, withClaim_withClaim]

end

/-! ## Two servers -/

section

variable {a b : Server} {nonce payload : Bytes}

/-- Once a proof is out or the exchange is over, the credentials are of no account. -/
theorem answers_of_state_eq (hstate : a.state = b.state)
    (hover : a.state = .sentProof ∨ a.state = .ended) (events : List ServerEvent) :
    (run a events).map Step.answer = (run b events).map Step.answer := by
  induction events generalizing a b with
  | nil => rfl
  | cons event events ih =>
    cases event with
    | payload bytes =>
      have hstep : (a.respond bytes).answer = (b.respond bytes).answer ∧
          (a.respond bytes).next.state = (b.respond bytes).next.state ∧
          (a.respond bytes).next.state = .ended := by
        unfold respond
        rw [← hstate]
        rcases hover with h | h
        · rw [h]
          exact ⟨rfl, rfl, rfl⟩
        · rw [h]
          exact ⟨rfl, hstate, h⟩
      obtain ⟨hanswer, hnext, hended⟩ := hstep
      exact congrArg₂ List.cons hanswer (ih hnext (.inr hended))
    | edit change => exact ih hstate hover

theorem answers_of_answer_eq (hanswer : (a.respond payload).answer = (b.respond payload).answer)
    (hstate : (a.respond payload).next.state = (b.respond payload).next.state)
    (hover : (a.respond payload).next.state = .sentProof ∨ (a.respond payload).next.state = .ended)
    (later : List ServerEvent) :
    (run a (.payload payload :: later)).map Step.answer =
      (run b (.payload payload :: later)).map Step.answer :=
  congrArg₂ List.cons hanswer (answers_of_state_eq hstate hover later)

/-- Waiting servers refuse alike an answer that claims no user. -/
theorem answers_of_not_claims (ha : a.state = .awaitingResponse nonce)
    (hb : b.state = .awaitingResponse nonce)
    (h : ∀ username, ¬Claims (AttributeList.parse payload) username)
    (later : List ServerEvent) :
    (run a (.payload payload :: later)).map Step.answer =
      (run b (.payload payload :: later)).map Step.answer := by
  obtain ⟨cause, hfails⟩ := exists_respond_of_not_claims h
  obtain ⟨hanswer, hnext⟩ := hfails a nonce ha
  obtain ⟨hanswer', hnext'⟩ := hfails b nonce hb
  refine answers_of_answer_eq ?_ ?_ ?_ later
  · rw [hanswer, hanswer']
  · rw [hnext, hnext']
  · rw [hnext]
    exact .inr rfl

end

/-- Whom the client claimed to be before makes no difference to what it is answered. -/
theorem answers_withClaim {server : Server} {nonce : Bytes}
    (hstate : server.state = .awaitingResponse nonce) (before : String) (payload : Bytes)
    (later : List ServerEvent) :
    (run (server.withClaim before) (.payload payload :: later)).map Step.answer =
      (run server (.payload payload :: later)).map Step.answer := by
  by_cases hclaims : ∃ username, Claims (AttributeList.parse payload) username
  · obtain ⟨username, hclaims⟩ := hclaims
    rw [run_eq_of_respond_eq (respond_withClaim hstate hclaims before)]
  · have hbefore : (server.withClaim before).state = .awaitingResponse nonce := hstate
    exact answers_of_not_claims hbefore hstate (not_exists.1 hclaims) later

/-! ## Equal secrets -/

/-- A server with a secret fails for the cause for which the checks do. -/
theorem answer_settle_eq_error_iff {server : Server} {nonce : Bytes} {attributes : Attributes}
    {cause : ServerError} (h : lacksSecret server.credentials = false) :
    (server.settle nonce attributes).answer = .error cause ↔
      verify server.credentials nonce attributes = .error cause := by
  cases hverify : verify server.credentials nonce attributes with
  | error other =>
    rw [settle_of_error h hverify]
    simp [Step.fail]
  | ok proof =>
    rw [settle_of_ok h hverify]
    simp [Step.reply]

/-- Servers that know one secret settle an answer alike, and wait no more. -/
theorem settle_congr {a b : Server} (nonce : Bytes) {attributes : Attributes}
    (ha : lacksSecret a.credentials = false) (hb : lacksSecret b.credentials = false)
    (hsecret : knownSecret a.credentials ((attributes.find? "realm").getD []) =
      knownSecret b.credentials ((attributes.find? "realm").getD [])) :
    (a.settle nonce attributes).answer = (b.settle nonce attributes).answer ∧
      (a.settle nonce attributes).next.state = (b.settle nonce attributes).next.state ∧
      ((a.settle nonce attributes).next.state = .sentProof ∨
        (a.settle nonce attributes).next.state = .ended) := by
  have hcongr := verify_congr nonce hsecret
  cases hverify : verify a.credentials nonce attributes with
  | error cause =>
    rw [settle_of_error ha hverify, settle_of_error hb (hcongr.symm.trans hverify)]
    exact ⟨rfl, rfl, .inr rfl⟩
  | ok proof =>
    rw [settle_of_ok ha hverify, settle_of_ok hb (hcongr.symm.trans hverify)]
    exact ⟨rfl, rfl, .inl rfl⟩

theorem secret_ne_nil (username realm password : Bytes) :
    DigestMd5.secret username realm password ≠ [] := by
  intro h
  have hlength := congrArg List.length h
  rw [DigestMd5.secret, Digest.length_hash] at hlength
  exact absurd hlength (by decide)

/-! ## Top theorems -/

/-- A server that does nothing but ask for input, and is then given a password or a stored secret,
sends the challenge and the later answers of one that had them from the start and never asked. If
the next answer claims a user, the credentials are the same from then on. -/
theorem late_as_early (credentials : Credentials) (nonce : String) (x : Bytes)
    (asked : List Bytes) (password : String) (passwordDigest : Bytes)
    (hasked : ∀ step ∈ run (respond (ofCredentials credentials (.ok nonce)) x).next
      (asked.map .payload), step.answer = .ok .inputNeeded)
    (payload : Bytes) (later : List ServerEvent) :
    let supply (credentials : Credentials) : Credentials :=
      { credentials with password, passwordDigest }
    let unknowing := ofCredentials credentials (.ok nonce)
    let late : List ServerEvent :=
      .payload x :: asked.map .payload ++ .edit supply :: .payload payload :: later
    let knowing := ofCredentials (supply credentials) (.ok nonce)
    let early : List ServerEvent := .payload x :: .payload payload :: later
    let issued := AttributeList.serialize (challenge credentials.realm (Utf8.encode nonce))
    (∃ answers,
      (run unknowing late).map Step.answer =
          .ok (.challenge issued) :: List.replicate asked.length (.ok .inputNeeded) ++ answers ∧
        (run knowing early).map Step.answer = .ok (.challenge issued) :: answers) ∧
      ((∃ username, Claims (AttributeList.parse payload) username) →
        (after unknowing late).credentials = (after knowing early).credentials) := by
  intro supply unknowing late knowing early issued
  let waiting : Server := { unknowing with state := .awaitingResponse (Utf8.encode nonce) }
  let ready : Server := { knowing with state := .awaitingResponse (Utf8.encode nonce) }
  have hwaiting : respond unknowing x = .reply (.challenge issued) waiting :=
    respond_of_start rfl rfl x
  have hready : respond knowing x = .reply (.challenge issued) ready := respond_of_start rfl rfl x
  rw [hwaiting] at hasked
  have hwaits : waiting.state = .awaitingResponse (Utf8.encode nonce) := rfl
  obtain ⟨hanswers, before, hafter⟩ := after_asked hwaits hasked
  have hsupplied : next (after waiting (asked.map .payload)) (.edit supply) =
      ready.withClaim before := by
    rw [hafter]
    rfl
  let rest : List ServerEvent := .edit supply :: .payload payload :: later
  have hrest : (run (after waiting (asked.map .payload)) rest).map Step.answer =
      (run ready (.payload payload :: later)).map Step.answer := by
    rw [run_edit hsupplied]
    exact answers_withClaim rfl before payload later
  refine ⟨⟨(run ready (.payload payload :: later)).map Step.answer, ?_, ?_⟩, ?_⟩
  · calc (run unknowing late).map Step.answer
        = .ok (.challenge issued) ::
            (run waiting (asked.map .payload ++ rest)).map Step.answer :=
            map_answer_run_payload hwaiting _
      _ = .ok (.challenge issued) :: (List.replicate asked.length (.ok .inputNeeded) ++
            (run ready (.payload payload :: later)).map Step.answer) := by
            rw [run_append, List.map_append, hanswers, hrest]
  · exact map_answer_run_payload hready _
  · rintro ⟨username, hclaims⟩
    have hlate : after unknowing late = after ready (.payload payload :: later) := by
      calc after unknowing late
          = after waiting (asked.map .payload ++ rest) := after_payload hwaiting _
        _ = after (ready.withClaim before) (.payload payload :: later) := by
            rw [after_append, after_edit hsupplied]
        _ = after ready (.payload payload :: later) :=
            after_eq_of_respond_eq (respond_withClaim rfl hclaims before) later
    have hearly : after knowing early = after ready (.payload payload :: later) :=
      after_payload hready _
    rw [hlate, hearly]

/-- The client claims to be one user, and then another one without a proof. -/
theorem late_as_early_other_user :
    let unknowing := ofCredentials { host := "elwood" } (.ok "n")
    let late : List ServerEvent :=
      [.payload [], .payload (Utf8.encode "qop=auth,username=eve"),
        .edit fun credentials => { credentials with password := "fyko", passwordDigest := [] },
        .payload (Utf8.encode "qop=auth,username=tim"), .payload []]
    (∃ issued, (run unknowing late).map Step.answer =
        [.ok (.challenge issued), .ok .inputNeeded, .error (.missingAttribute "nonce"),
          .error .sessionAlreadyOver]) ∧
      (after unknowing late).credentials =
        { username := "tim", password := "fyko", host := "elwood" } := by
  intro unknowing late
  let asked := [Utf8.encode "qop=auth,username=eve"]
  have hasked : ∀ step ∈ run (respond unknowing []).next (asked.map .payload),
      step.answer = .ok .inputNeeded := by decide +kernel
  obtain ⟨⟨answers, hlate, hearly⟩, hcredentials⟩ := late_as_early { host := "elwood" } "n" [] asked
    "fyko" [] hasked (Utf8.encode "qop=auth,username=tim") [.payload []]
  have hanswers : answers = [.error (.missingAttribute "nonce"), .error .sessionAlreadyOver] := by
    have htail := congrArg List.tail hearly
    refine htail.symm.trans ?_
    decide +kernel
  have hclaims : Claims (AttributeList.parse (Utf8.encode "qop=auth,username=tim")) "tim" :=
    ⟨⟨Utf8.encode "auth", by decide +kernel, by decide +kernel⟩, by decide +kernel⟩
  constructor
  · exact ⟨_, hlate.trans (congrArg (List.append _) hanswers)⟩
  · refine (hcredentials ⟨_, hclaims⟩).trans ?_
    decide +kernel

/-- A server that knows the password and one that stores the secret of a user in a realm give the
same answers to a client that claims to be this user in this realm. Whatever the answer claims, they
fail alike, unless it is for a wrong proof. -/
theorem stored_as_plain (credentials : Credentials) (username : String) (realm : Bytes)
    (password : String) (hpassword : password ≠ "") (nonces : NonceSource)
    (nonce payload : Bytes) :
    let waiting (credentials : Credentials) : Server :=
      { credentials, nonces, state := .awaitingResponse nonce }
    let plain := waiting { credentials with password }
    let stored := waiting { credentials with
      password := ""
      passwordDigest :=
        DigestMd5.secret (Utf8.encode username) realm (Utf8.encode password) }
    let attributes := AttributeList.parse payload
    (attributes.find? "username" = some (Utf8.encode username) →
        (attributes.find? "realm").getD [] = realm →
        ∀ later : List ServerEvent,
          (run plain (.payload payload :: later)).map Step.answer =
            (run stored (.payload payload :: later)).map Step.answer) ∧
      ∀ cause ≠ .authenticationFailed,
        (respond plain payload).answer = .error cause ↔
          (respond stored payload).answer = .error cause := by
  intro waiting plain stored attributes
  have hplain (name : String) : lacksSecret (plain.withClaim name).credentials = false := by
    simp [plain, waiting, withClaim, Credentials.withUsername, lacksSecret, hpassword]
  have hstored (name : String) : lacksSecret (stored.withClaim name).credentials = false := by
    simp [stored, waiting, withClaim, Credentials.withUsername, lacksSecret, secret_ne_nil]
  constructor
  · intro husername hrealm later
    by_cases hclaims : ∃ name, Claims attributes name
    · obtain ⟨name, hclaims⟩ := hclaims
      obtain rfl : name = username := by
        have hname := hclaims.username.symm.trans husername
        exact Utf8.encode_injective (Option.some.inj hname)
      have hsecret : knownSecret (plain.withClaim name).credentials realm =
          knownSecret (stored.withClaim name).credentials realm := by
        simp [plain, stored, waiting, withClaim, Credentials.withUsername, knownSecret, hpassword]
      rw [← hrealm] at hsecret
      obtain ⟨hanswer, hstate, hover⟩ := settle_congr nonce (hplain name) (hstored name) hsecret
      refine answers_of_answer_eq ?_ ?_ ?_ later
      · rwa [respond_of_claims rfl hclaims, respond_of_claims rfl hclaims]
      · rwa [respond_of_claims rfl hclaims, respond_of_claims rfl hclaims]
      · rwa [respond_of_claims rfl hclaims]
    · exact answers_of_not_claims rfl rfl (not_exists.1 hclaims) later
  · intro cause hcause
    by_cases hclaims : ∃ name, Claims attributes name
    · obtain ⟨name, hclaims⟩ := hclaims
      rw [respond_of_claims rfl hclaims, respond_of_claims rfl hclaims]
      exact (answer_settle_eq_error_iff (hplain name)).trans
        ((verify_eq_error_iff _ _ hcause).trans
          (answer_settle_eq_error_iff (hstored name)).symm)
    · obtain ⟨other, hfails⟩ := exists_respond_of_not_claims (not_exists.1 hclaims)
      rw [(hfails plain nonce rfl).1, (hfails stored nonce rfl).1]

/-- The stored secret proves the user whom it belongs to. An answer of another user without a nonce
fails for that. -/
theorem stored_as_plain_known :
    let stored : Server :=
      { credentials :=
          { passwordDigest :=
              DigestMd5.secret (Utf8.encode "qxmpp1") [] (Utf8.encode "qxmpp123") }
        nonces := .ok ""
        state := .awaitingResponse (Utf8.encode "2530347127") }
    (run stored [.payload knownAnswer, .payload []]).map Step.answer =
        [.ok (.challenge (Utf8.encode "rspauth=d92bf7f4331700c24799cbab364a14b7")),
          .ok (.success [])] ∧
      (respond stored (Utf8.encode "qop=auth,username=eve")).answer =
        .error (.missingAttribute "nonce") := by
  intro stored
  have halike := stored_as_plain {} "qxmpp1" [] "qxmpp123" (by decide) (.ok "")
    (Utf8.encode "2530347127")
  have hclaimed : (AttributeList.parse knownAnswer).find? "username" =
        some (Utf8.encode "qxmpp1") ∧
      ((AttributeList.parse knownAnswer).find? "realm").getD [] = [] := by decide +kernel
  have hanswers := (halike knownAnswer).1 hclaimed.1 hclaimed.2 [.payload []]
  have hfails := (halike (Utf8.encode "qop=auth,username=eve")).2 (.missingAttribute "nonce")
    nofun
  constructor
  · refine hanswers.symm.trans ?_
    decide +kernel
  · refine hfails.1 ?_
    decide +kernel

end SaslExchange.DigestMd5.Server
