import SaslExchange.Calls
import SaslExchange.Proofs.DigestMd5.Scanning
import SaslExchange.Proofs.Finality

/-!
# No session stops at a fault

A party that carries out its steps operation by operation takes the steps that it should: no
position lies outside a message, no two lengths differ where they must not, and no key is refused.
What is left to fail is the source of nonces, which a session asks at most once.

    an attribute list is scanned to its end                  (DigestMd5.AttributeList.scan_eq)
    the key fits the signature that hides it                       (Scram.Client.actProve_eq)
    each call comes to its step, and fails for a primitive
      exactly when it asked and the source failed               (call_settles of each mechanism)
    so does each call of a session                            (session_carriesOut of either side)
-/

namespace SaslExchange

/-! ## Operations -/

namespace Act

variable {Failure α β : Type}

@[simp] theorem ofExcept_ok_bind (a : α) (f : α → Act Failure β) :
    (ofExcept (.ok a) >>= f) = f a := rfl

@[simp] theorem lift_ok_bind (a : α) (f : α → Act Failure β) :
    ((liftM (Except.ok a : Except Fault α) : Act Failure α) >>= f) = f a := rfl

@[simp] theorem perform_ofExcept (result : Except Failure α) :
    (ofExcept result).perform = .ok (result, []) := rfl

/-- What follows a nonce that was asked for takes what the source gave. -/
theorem perform_ask_bind (source : NonceSource) (crypto : CryptoError → Failure)
    (result : String → α) :
    (ask source crypto >>= fun nonce => pure (result nonce)).perform =
      .ok ((source.map result).mapError crypto, [source]) := by
  cases source with
  | error cause => rfl
  | ok nonce => rfl

end Act

/-! ## Calls and sessions of any party -/

/-- The failure of a primitive is behind the cause. -/
def FromPrimitive {Failure : Type} (crypto : CryptoError → Failure) (e : Failure) : Prop :=
  ∃ cause, e = crypto cause

/-- The call comes to the step. The party may ask for `before` ahead of it and for `after` once it
is done, and a primitive fails in it exactly when the source was asked and failed. -/
structure Settles {State Failure Reply : Type} (crypto : CryptoError → Failure)
    (call : Call State Failure Reply) (step : Step State Failure Reply)
    (before after : List NonceSource) : Prop where
  step_eq : call.step = step
  asks : (call.asked ++ after).Sublist before
  crypto_iff : ∀ cause, step.answer = .error (crypto cause) ↔ call.asked = [.error cause]

namespace Settles

variable {State Failure Reply : Type} {crypto : CryptoError → Failure}
  {call : Call State Failure Reply} {step : Step State Failure Reply}
  {before after : List NonceSource}

/-- A step that asks for nothing. -/
theorem of_avoids (hsublist : after.Sublist before)
    (hanswer : Avoids (FromPrimitive crypto) step.answer) :
    Settles crypto ⟨step, []⟩ step before after where
  step_eq := rfl
  asks := hsublist
  crypto_iff cause := by
    constructor
    · intro hfail
      exact absurd ⟨cause, rfl⟩ (hanswer _ hfail)
    · intro hasked
      cases hasked

/-- A party that holds the state of another one settles its calls. -/
theorem exists_map {State' : Type} {result : Except Fault (Call State Failure Reply)}
    (h : ∃ call, result = .ok call ∧ Settles crypto call step before after) (f : State → State') :
    ∃ call, result.map (·.map f) = .ok call ∧ Settles crypto call (step.map f) before after := by
  obtain ⟨call, rfl, hcall⟩ := h
  have hmap : Settles crypto (call.map f) (step.map f) before after :=
    ⟨congrArg (Step.map f) hcall.step_eq, hcall.asks, hcall.crypto_iff⟩
  exact ⟨call.map f, rfl, hmap⟩

theorem andLog (h : Settles crypto call step before after) (lines : List Log.Line) :
    Settles crypto (call.andLog lines) (step.andLog lines) before after where
  step_eq := congrArg (Step.andLog · lines) h.step_eq
  asks := h.asks
  crypto_iff := h.crypto_iff

end Settles

/-- The calls go as the steps do, they ask for no more than the party may, and a primitive fails in
one of them exactly when the source was asked and failed. -/
structure CarriesOut {State Failure Reply : Type} (crypto : CryptoError → Failure)
    (calls : List (Call State Failure Reply)) (steps : List (Step State Failure Reply))
    (before : List NonceSource) : Prop where
  steps_eq : calls.map Call.step = steps
  asks : (calls.flatMap Call.asked).Sublist before
  crypto_iff : ∀ call ∈ calls, ∀ cause,
    call.step.answer = .error (crypto cause) ↔ call.asked = [.error cause]

namespace CarriesOut

variable {State Failure Reply : Type} {crypto : CryptoError → Failure}
  {call : Call State Failure Reply} {step : Step State Failure Reply}
  {calls : List (Call State Failure Reply)} {steps : List (Step State Failure Reply)}
  {before after : List NonceSource}

theorem nil : CarriesOut crypto ([] : List (Call State Failure Reply)) [] before where
  steps_eq := rfl
  asks := List.nil_sublist _
  crypto_iff := nofun

/-- What the first call leaves may be asked for in the rest. -/
theorem cons (hcall : Settles crypto call step before after)
    (hcalls : CarriesOut crypto calls steps after) :
    CarriesOut crypto (call :: calls) (step :: steps) before where
  steps_eq := by rw [List.map_cons, hcall.step_eq, hcalls.steps_eq]
  asks := by
    rw [List.flatMap_cons]
    exact ((List.Sublist.refl call.asked).append hcalls.asks).trans hcall.asks
  crypto_iff := by
    intro found hfound
    rcases List.mem_cons.1 hfound with rfl | hrest
    · rw [hcall.step_eq]
      exact hcall.crypto_iff
    · exact hcalls.crypto_iff found hrest

theorem mono {larger : List NonceSource} (h : CarriesOut crypto calls steps before)
    (hlarger : before.Sublist larger) : CarriesOut crypto calls steps larger :=
  { h with asks := h.asks.trans hlarger }

end CarriesOut

/-! ## SCRAM -/

namespace Scram

/-- The key and the signature that hides it are of one length, that of a digest. -/
theorem combine_clientKey (h : Hash) (password : String) (salt : Bytes) (iterations : Nat)
    (signed : Bytes) :
    let keys := Keys.derive h password salt iterations
    Bytes.combine keys.clientKey (h.tag (keys.storedKey h) signed) =
      .ok (clientProof h password salt iterations signed) :=
  Bytes.combine_of_length (by simp [Keys.derive])

end Scram

namespace Scram.Client

variable {h : Hash}

theorem actProve_eq (client : Client h) (bare challenge : Bytes) (first : ServerFirst) :
    client.actProve bare challenge first = .ofExcept (client.prove bare challenge first) := by
  unfold actProve prove
  simp only [deriveKey?_eq, hmac?_eq, Except.mapError, Act.ofExcept_ok_bind]
  have hcombine := combine_clientKey h client.password first.salt first.iterations
    (authMessage bare challenge (clientFinalBare first.nonce))
  dsimp only [Keys.derive, Keys.storedKey, Hash.tag, Hash.derive] at hcombine
  rw [hcombine, Act.lift_ok_bind, proof?_derive]
  rfl

theorem actMeet_eq (client : Client h) (bare : Bytes) (nonce : String) (challenge : Bytes) :
    client.actMeet bare nonce challenge = .ofExcept (client.meet bare nonce challenge) := by
  unfold actMeet meet
  cases Frame.parse challenge with
  | error defect => rfl
  | ok frame =>
    simp only [Except.mapError, Act.ofExcept_ok_bind]
    cases ServerFirst.ofFrame nonce frame with
    | error cause => rfl
    | ok first => exact client.actProve_eq bare challenge first

/-- What the client may yet ask for. -/
def mayAsk (client : Client h) : List NonceSource :=
  match client.state with
  | .start => [client.nonces]
  | _ => []

theorem perform_act (client : Client h) (challenge : Bytes) :
    (client.act challenge).perform = .ok (client.advance challenge, client.mayAsk) := by
  unfold act advance mayAsk
  cases client.state with
  | start =>
    refine (Act.perform_ask_bind _ _ _).trans ?_
    unfold begin
    cases client.nonces with
    | error cause => rfl
    | ok nonce => rfl
  | sentFirst bare nonce =>
    dsimp only
    rw [actMeet_eq, Act.perform_ofExcept]
  | sentFinal serverSignature => rfl
  | ended => rfl

theorem call_eq (client : Client h) (challenge : Bytes) :
    client.call challenge = .ok ⟨client.respond challenge, client.mayAsk⟩ := by
  unfold call respond
  rw [perform_act]
  cases client.advance challenge with
  | error cause => rfl
  | ok result => rfl

theorem answer_eq_crypto_iff (client : Client h) (challenge : Bytes) (cause : CryptoError) :
    (client.respond challenge).answer = .error (.crypto cause) ↔
      client.mayAsk = [.error cause] := by
  have hanswer : (client.respond challenge).answer = .error (.crypto cause) ↔
      client.advance challenge = .error (.crypto cause) := by
    unfold respond
    cases client.advance challenge with
    | error found => simp [Step.fail]
    | ok result => simp [Step.reply]
  rw [hanswer]
  unfold advance mayAsk
  cases client.state with
  | start =>
    unfold begin
    cases client.nonces with
    | error found => simp
    | ok nonce => simp
  | sentFirst bare nonce =>
    constructor
    · intro hmeet
      exact absurd (.crypto cause) (client.meet_avoids bare nonce challenge _ hmeet)
    · intro hask
      exact absurd hask.symm (List.cons_ne_nil _ _)
  | sentFinal serverSignature =>
    constructor
    · intro hconclude
      exact absurd (.crypto cause) (conclude_avoids serverSignature challenge _ hconclude)
    · intro hask
      exact absurd hask.symm (List.cons_ne_nil _ _)
  | ended => simp

/-- The client asks once: no step leads back to the start. -/
theorem mayAsk_next (client : Client h) (challenge : Bytes) :
    (client.respond challenge).next.mayAsk = [] := by
  have hcounts := client.counts challenge
  unfold mayAsk
  generalize (client.respond challenge).next.state = next at hcounts
  cases next with
  | start =>
    generalize (client.respond challenge).answer = answer at hcounts
    generalize hleft : client.state.left = left at hcounts
    cases hcounts
    cases hstate : client.state <;> rw [hstate] at hleft <;> cases hleft
  | sentFirst bare nonce => rfl
  | sentFinal serverSignature => rfl
  | ended => rfl

theorem call_settles (client : Client h) (challenge : Bytes) :
    ∃ call, client.call challenge = .ok call ∧
      Settles .crypto call (client.respond challenge) client.mayAsk
        (client.respond challenge).next.mayAsk := by
  refine ⟨_, client.call_eq challenge, rfl, ?_, client.answer_eq_crypto_iff challenge⟩
  rw [mayAsk_next, List.append_nil]

end Scram.Client

/-! ## DIGEST-MD5 -/

namespace DigestMd5

namespace Client

/-- What the client asks for when it answers the attributes. -/
def asks (client : Client) (attributes : Attributes) : List NonceSource :=
  match Challenge.ofAttributes attributes with
  | .error _ => []
  | .ok _ => [client.nonces]

theorem perform_actMeet (client : Client) (attributes : Attributes) :
    (client.actMeet attributes).perform =
      .ok (client.meet attributes, client.asks attributes) := by
  unfold actMeet meet asks
  cases Challenge.ofAttributes attributes with
  | error cause => rfl
  | ok challenge =>
    refine (Act.perform_ask_bind _ _ _).trans ?_
    cases client.nonces with
    | error cause => rfl
    | ok cnonce => rfl

/-- What the client may yet ask for. -/
def mayAsk (client : Client) : List NonceSource :=
  match client.state with
  | .start | .awaitingChallenge => [client.nonces]
  | _ => []

theorem call_settles (client : Client) (challenge : Bytes) :
    ∃ call, client.call challenge = .ok call ∧
      Settles .crypto call (client.respond challenge) client.mayAsk
        (client.respond challenge).next.mayAsk := by
  unfold call respond mayAsk
  cases hstate : client.state with
  | start => exact ⟨_, rfl, .of_avoids (List.Sublist.refl _) (.pure _)⟩
  | awaitingChallenge =>
    dsimp only
    rw [AttributeList.scan_eq]
    dsimp only [bind, Except.bind]
    rw [perform_actMeet]
    dsimp only
    unfold meet asks
    cases hchallenge : Challenge.ofAttributes (AttributeList.read challenge).attributes with
    | error cause =>
      refine ⟨_, rfl, .of_avoids (List.nil_sublist _) (.throw ?_)⟩
      rintro ⟨crypto, rfl⟩
      exact Challenge.ofAttributes_avoids _ _ hchallenge (.crypto crypto)
    | ok offered =>
      cases client.nonces with
      | error cause => exact ⟨_, rfl, rfl, List.Sublist.refl _, by simp [Step.fail]⟩
      | ok cnonce => exact ⟨_, rfl, rfl, List.Sublist.refl _, by simp [Step.reply]⟩
  | awaitingProof secret context =>
    dsimp only
    rw [AttributeList.scan_eq]
    dsimp only [bind, Except.bind]
    cases hproof : objection secret context (AttributeList.read challenge).attributes with
    | none => exact ⟨_, rfl, .of_avoids (List.Sublist.refl _) (.pure _)⟩
    | some cause =>
      refine ⟨_, rfl, .of_avoids (List.Sublist.refl _) (.throw ?_)⟩
      rintro ⟨crypto, rfl⟩
      exact objection_not_isOwn hproof (.crypto crypto)
  | ended =>
    refine ⟨_, rfl, .of_avoids ?_ (.throw ?_)⟩
    · dsimp only [Step.fail]
      rw [hstate]
    · rintro ⟨crypto, heq⟩
      cases heq

end Client

namespace Server

/-- What the server may yet ask for. -/
def mayAsk (server : Server) : List NonceSource :=
  match server.state with
  | .start => [server.nonces]
  | _ => []

/-- The server asks once: no step leads back to the start. -/
theorem mayAsk_next (server : Server) (payload : Bytes) :
    (server.respond payload).next.mayAsk = [] := by
  have houtcome := outcome_respond server payload
  unfold mayAsk
  generalize (server.respond payload).answer = answer at houtcome
  generalize (server.respond payload).next.state = state at houtcome
  cases houtcome with
  | issues text hstart => rfl
  | asks nonce hawaiting => rfl
  | proves nonce secret context hawaiting hclient => rfl
  | succeeds hsent => rfl
  | fails cause => rfl

theorem call_settles (server : Server) (payload : Bytes) :
    ∃ call, server.call payload = .ok call ∧
      Settles .crypto call (server.respond payload) server.mayAsk
        (server.respond payload).next.mayAsk := by
  rw [mayAsk_next]
  unfold call respond mayAsk
  cases hstate : server.state with
  | start =>
    have hperform : server.actBegin.perform = _ := Act.perform_ask_bind _ _ _
    dsimp only
    rw [hperform]
    cases server.nonces with
    | error cause => exact ⟨_, rfl, rfl, List.Sublist.refl _, by simp [Step.fail]⟩
    | ok text => exact ⟨_, rfl, rfl, List.Sublist.refl _, by simp [Step.reply]⟩
  | awaitingResponse nonce =>
    dsimp only
    rw [AttributeList.scan_eq]
    refine ⟨_, rfl, .of_avoids (List.Sublist.refl _) ((server.receive_avoids nonce _).weaken ?_)⟩
    rintro _ ⟨cause, rfl⟩
    exact .crypto cause
  | sentProof => exact ⟨_, rfl, .of_avoids (List.Sublist.refl _) (.pure _)⟩
  | ended =>
    refine ⟨_, rfl, .of_avoids (List.Sublist.refl _) (.throw ?_)⟩
    rintro ⟨cause, heq⟩
    cases heq

end Server

end DigestMd5

/-! ## Mechanisms that ask for nothing -/

theorem Avoids.ite {State Failure Reply : Type} {bad : Failure → Prop} {p : Prop} [Decidable p]
    {a b : Step State Failure Reply} (ha : Avoids bad a.answer) (hb : Avoids bad b.answer) :
    Avoids bad (if p then a else b).answer := by
  split
  · exact ha
  · exact hb

theorem Plain.Client.respond_avoids (client : Client) (challenge : Bytes) :
    Avoids (FromPrimitive .crypto) (client.respond challenge).answer :=
  .ite nofun nofun

theorem Anonymous.Client.respond_avoids (client : Client) (challenge : Bytes) :
    Avoids (FromPrimitive .crypto) (client.respond challenge).answer :=
  .ite nofun nofun

theorem XOAuth2.Client.respond_avoids (client : Client) (challenge : Bytes) :
    Avoids (FromPrimitive .crypto) (client.respond challenge).answer :=
  .ite nofun nofun

theorem XMessengerOAuth2.Client.respond_avoids (client : Client) (challenge : Bytes) :
    Avoids (FromPrimitive .crypto) (client.respond challenge).answer := by
  refine .ite nofun ?_
  cases Base64.decode? client.token with
  | none => exact nofun
  | some token => exact nofun

theorem XFacebookPlatform.Client.respond_avoids (client : Client) (challenge : Bytes) :
    Avoids (FromPrimitive .crypto) (client.respond challenge).answer := by
  unfold respond
  cases client.state with
  | start => exact nofun
  | awaitingForm =>
    dsimp only
    cases hfill : client.fill (UrlEncoded.parse challenge) with
    | error cause =>
      exact .throw fun ⟨crypto, h⟩ => client.fill_avoids _ cause hfill (h ▸ .crypto crypto)
    | ok payload => exact nofun
  | ended => exact nofun

theorem Plain.Server.respond_avoids (server : Server) (payload : Bytes) :
    Avoids (FromPrimitive .crypto) (server.respond payload).answer := by
  refine .ite nofun (.ite nofun ?_)
  cases hfields : Fields.ofMessage payload with
  | error cause =>
    exact .throw fun ⟨crypto, h⟩ =>
      Fields.ofMessage_avoids payload cause hfields (h ▸ .crypto crypto)
  | ok fields => exact nofun

theorem Anonymous.Server.respond_avoids (server : Server) (payload : Bytes) :
    Avoids (FromPrimitive .crypto) (server.respond payload).answer :=
  .ite nofun nofun

/-! ## Sessions -/

namespace AnyClient

/-- What the client may yet ask for. -/
def mayAsk : AnyClient → List NonceSource
  | scramSha256 client => client.mayAsk
  | scramSha1 client => client.mayAsk
  | digestMd5 client => client.mayAsk
  | _ => []

theorem inner_settles (client : AnyClient) (challenge : Bytes) :
    ∃ call, client.inner challenge = .ok call ∧
      Settles .crypto call (client.step challenge) client.mayAsk
        (client.step challenge).next.mayAsk := by
  cases client with
  | scramSha256 client => exact Settles.exists_map (client.call_settles challenge) scramSha256
  | scramSha1 client => exact Settles.exists_map (client.call_settles challenge) scramSha1
  | digestMd5 client => exact Settles.exists_map (client.call_settles challenge) digestMd5
  | plain client =>
    exact ⟨_, rfl, .of_avoids (List.Sublist.refl _) (client.respond_avoids challenge)⟩
  | anonymous client =>
    exact ⟨_, rfl, .of_avoids (List.Sublist.refl _) (client.respond_avoids challenge)⟩
  | xFacebookPlatform client =>
    exact ⟨_, rfl, .of_avoids (List.Sublist.refl _) (client.respond_avoids challenge)⟩
  | xMessengerOAuth2 client =>
    exact ⟨_, rfl, .of_avoids (List.Sublist.refl _) (client.respond_avoids challenge)⟩
  | xOAuth2 client =>
    exact ⟨_, rfl, .of_avoids (List.Sublist.refl _) (client.respond_avoids challenge)⟩

theorem call_settles (client : AnyClient) (challenge : Bytes) :
    ∃ call, client.call challenge = .ok call ∧
      Settles .crypto call (client.respond challenge) client.mayAsk
        (client.respond challenge).next.mayAsk := by
  obtain ⟨inner, hinner, hsettles⟩ := client.inner_settles challenge
  refine ⟨inner.andLog [outcomeLog client.name (client.step challenge).answer], ?_,
    hsettles.andLog _⟩
  unfold call
  rw [hinner, ← hsettles.step_eq]
  rfl

/-- Whatever the challenges, a session comes to its end. -/
theorem session_carriesOut (client : AnyClient) (challenges : List Bytes) :
    ∃ calls, client.session challenges = .ok calls ∧
      CarriesOut .crypto calls (ClientMechanism.run client challenges) client.mayAsk := by
  induction challenges generalizing client with
  | nil => exact ⟨[], rfl, .nil⟩
  | cons challenge challenges ih =>
    obtain ⟨call, hcall, hsettles⟩ := client.call_settles challenge
    obtain ⟨calls, hcalls, hcarries⟩ := ih (client.respond challenge).next
    refine ⟨call :: calls, ?_, .cons hsettles hcarries⟩
    rw [session, hcall]
    dsimp only [bind, Except.bind]
    rw [hsettles.step_eq, hcalls]
    rfl

theorem mayAsk_of_lookup {name : String} {credentials : Credentials} {nonces : NonceSource}
    {client : AnyClient} (h : (lookup name credentials nonces).1 = some client) :
    client.mayAsk.Sublist [nonces] := by
  rw [fst_lookup] at h
  unfold ofName? at h
  split at h <;> cases h <;> simp [mayAsk, Scram.Client.mayAsk, Scram.Client.ofCredentials,
    DigestMd5.Client.mayAsk, DigestMd5.Client.ofCredentials]

end AnyClient

namespace AnyServer

/-- What the server may yet ask for. -/
def mayAsk : AnyServer → List NonceSource
  | digestMd5 server => server.mayAsk
  | _ => []

theorem inner_settles (server : AnyServer) (payload : Bytes) :
    ∃ call, server.inner payload = .ok call ∧
      Settles .crypto call (server.step payload) server.mayAsk
        (server.step payload).next.mayAsk := by
  cases server with
  | plain server =>
    exact ⟨_, rfl, .of_avoids (List.Sublist.refl _) (server.respond_avoids payload)⟩
  | digestMd5 server => exact Settles.exists_map (server.call_settles payload) digestMd5
  | anonymous server =>
    exact ⟨_, rfl, .of_avoids (List.Sublist.refl _) (server.respond_avoids payload)⟩

theorem call_settles (server : AnyServer) (payload : Bytes) :
    ∃ call, server.call payload = .ok call ∧
      Settles .crypto call (server.respond payload) server.mayAsk
        (server.respond payload).next.mayAsk := by
  obtain ⟨inner, hinner, hsettles⟩ := server.inner_settles payload
  refine ⟨inner.andLog [outcomeLog server.name (server.step payload).answer], ?_,
    hsettles.andLog _⟩
  unfold call
  rw [hinner, ← hsettles.step_eq]
  rfl

/-- An edit of the credentials gives a server nothing to ask for. -/
theorem mayAsk_edit (server : AnyServer) (change : Credentials → Credentials) :
    (ServerMechanism.next server (.edit change)).mayAsk = server.mayAsk := by
  cases server with
  | plain server => rfl
  | digestMd5 server => rfl
  | anonymous server => rfl

/-- Whatever the payloads and the edits between them, a session comes to its end. -/
theorem session_carriesOut (server : AnyServer) (events : List ServerEvent) :
    ∃ calls, server.session events = .ok calls ∧
      CarriesOut .crypto calls (ServerMechanism.run server events) server.mayAsk := by
  induction events generalizing server with
  | nil => exact ⟨[], rfl, .nil⟩
  | cons event events ih =>
    cases event with
    | payload bytes =>
      obtain ⟨call, hcall, hsettles⟩ := server.call_settles bytes
      obtain ⟨calls, hcalls, hcarries⟩ := ih (server.respond bytes).next
      refine ⟨call :: calls, ?_, .cons hsettles hcarries⟩
      rw [session, hcall]
      dsimp only [bind, Except.bind]
      rw [hsettles.step_eq, hcalls]
      rfl
    | edit change =>
      rw [← mayAsk_edit server change]
      exact ih _

theorem mayAsk_of_lookup {name : String} {credentials : Credentials} {nonces : NonceSource}
    {server : AnyServer} (h : (lookup name credentials nonces).1 = some server) :
    server.mayAsk.Sublist [nonces] := by
  rw [fst_lookup] at h
  unfold ofName? at h
  split at h <;> cases h <;> simp [mayAsk, DigestMd5.Server.mayAsk,
    DigestMd5.Server.ofCredentials]

end AnyServer

/-! ## Top theorem -/

/-- No scan leaves its message, no key or salt makes a keyed digest fail, and the key of a SCRAM
client fits its signature. So no session stops at a fault, and a primitive fails in it exactly
where the source of nonces was asked and failed, which happens once at most. -/
theorem sessions_without_faults (credentials : Credentials) (nonces : NonceSource) :
    (∀ message, DigestMd5.AttributeList.scan message =
      .ok (DigestMd5.AttributeList.read message)) ∧
    (∀ algorithm key message, hmac? algorithm key message = .ok (hmac algorithm key message)) ∧
    (∀ algorithm password salt iterations length,
      deriveKey? algorithm password salt iterations length =
        .ok (deriveKey algorithm password salt iterations length)) ∧
    (∀ (h : Scram.Hash) (password : String) (salt : Bytes) (iterations : Nat) (signed : Bytes),
      let keys := Scram.Keys.derive h password salt iterations
      Bytes.combine keys.clientKey (h.tag (keys.storedKey h) signed) =
        .ok (Scram.clientProof h password salt iterations signed)) ∧
    (∀ name client, (AnyClient.lookup name credentials nonces).1 = some client →
      ∀ challenges, ∃ calls, client.session challenges = .ok calls ∧
        CarriesOut .crypto calls (ClientMechanism.run client challenges) [nonces]) ∧
    ∀ name server, (AnyServer.lookup name credentials nonces).1 = some server →
      ∀ events, ∃ calls, server.session events = .ok calls ∧
        CarriesOut .crypto calls (ServerMechanism.run server events) [nonces] := by
  refine ⟨DigestMd5.AttributeList.scan_eq, hmac?_eq, deriveKey?_eq, Scram.combine_clientKey,
    ?_, ?_⟩
  · intro name client hlookup challenges
    obtain ⟨calls, hcalls, hcarries⟩ := client.session_carriesOut challenges
    exact ⟨calls, hcalls, hcarries.mono (AnyClient.mayAsk_of_lookup hlookup)⟩
  · intro name server hlookup events
    obtain ⟨calls, hcalls, hcarries⟩ := server.session_carriesOut events
    exact ⟨calls, hcalls, hcarries.mono (AnyServer.mayAsk_of_lookup hlookup)⟩

/-- A value that doesn't close, for a client whose source of nonces fails. -/
theorem sessions_without_faults_unclosed :
    let starved : NonceSource := .error .invalidKeyLength
    let unclosed := Utf8.encode "nonce=\"a\",realm=\"b\\"
    ∃ client server, (AnyClient.lookup "DIGEST-MD5" {} starved).1 = some client ∧
      (AnyServer.lookup "DIGEST-MD5" {} starved).1 = some server ∧
      (∃ calls, client.session [[], unclosed, []] = .ok calls ∧
        CarriesOut .crypto calls (ClientMechanism.run client [[], unclosed, []]) [starved]) ∧
      ∃ calls, server.session [.payload [], .edit (·.withPassword "secret"), .payload unclosed] =
          .ok calls ∧
        CarriesOut .crypto calls (ServerMechanism.run server
          [.payload [], .edit (·.withPassword "secret"), .payload unclosed]) [starved] := by
  intro starved unclosed
  obtain ⟨-, -, -, -, hclient, hserver⟩ := sessions_without_faults {} starved
  exact ⟨_, _, rfl, rfl, hclient "DIGEST-MD5" _ rfl _, hserver "DIGEST-MD5" _ rfl _⟩

end SaslExchange
