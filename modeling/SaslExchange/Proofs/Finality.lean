import SaslExchange.Anonymous
import SaslExchange.Proofs.DigestMd5.ClientSteps
import SaslExchange.Proofs.DigestMd5.ServerSteps
import SaslExchange.Proofs.PlainMessages
import SaslExchange.Proofs.Scram.ClientSteps
import SaslExchange.Proofs.Scripts
import SaslExchange.Vendor.XFacebookPlatform
import SaslExchange.Vendor.XMessengerOAuth2

/-!
# Every exchange ends once

Whatever messages arrive, and whatever the owner of a server makes of its credentials between
them, each mechanism takes the number of steps that belongs to it. It ends with its last reply or
with one error, and after that it only says that the exchange is over.

    each step of a client counts down what is left               (Client.counts of each mechanism)
    a DIGEST-MD5 server follows its script from any state        (DigestMd5.Server.follows_script)
    a PLAIN server asks until a payload isn't empty                     (Plain.Server.answers_run)
    an ANONYMOUS server succeeds at once                         (Anonymous.Server.answers_prefix)
    what all of them answer over a whole exchange                                 (outcomes_final)
-/

namespace SaslExchange

/-! ## Clients that answer once -/

/-- What is left to a client whose first answer is its last. -/
def leftOfOne (ended : Bool) : Option Nat := if ended then none else some 0

theorem Plain.Client.counts (client : Client) (challenge : Bytes) :
    Counts (leftOfOne client.ended) (client.respond challenge).answer
      (leftOfOne (client.respond challenge).next.ended) := by
  obtain ⟨username, password, ended⟩ := client
  cases ended with
  | false => exact .completes _
  | true => exact .refuses

theorem Anonymous.Client.counts (client : Client) (challenge : Bytes) :
    Counts (leftOfOne client.ended) (client.respond challenge).answer
      (leftOfOne (client.respond challenge).next.ended) := by
  obtain ⟨ended⟩ := client
  cases ended with
  | false => exact .completes []
  | true => exact .refuses

theorem XOAuth2.Client.counts (client : Client) (challenge : Bytes) :
    Counts (leftOfOne client.ended) (client.respond challenge).answer
      (leftOfOne (client.respond challenge).next.ended) := by
  obtain ⟨username, token, ended⟩ := client
  cases ended with
  | false => exact .completes _
  | true => exact .refuses

theorem XMessengerOAuth2.Client.counts (client : Client) (challenge : Bytes) :
    Counts (leftOfOne client.ended) (client.respond challenge).answer
      (leftOfOne (client.respond challenge).next.ended) := by
  obtain ⟨token, ended⟩ := client
  cases ended with
  | false =>
    unfold respond
    dsimp only
    cases Base64.decode? token with
    | none => exact .fails 0 nofun
    | some decoded => exact .completes decoded
  | true => exact .refuses

/-! ## Clients with several rounds -/

namespace XFacebookPlatform

def State.left : State → Option Nat
  | start => some 1
  | awaitingForm => some 0
  | ended => none

theorem Client.fill_avoids (client : Client) (form : List (String × String)) :
    Avoids ClientError.IsOwn (client.fill form) := by
  unfold fill
  cases UrlEncoded.last? "method" form with
  | none => exact nofun
  | some method =>
    cases UrlEncoded.last? "nonce" form with
    | none => exact nofun
    | some nonce => exact nofun

theorem Client.counts (client : Client) (challenge : Bytes) :
    Counts client.state.left (client.respond challenge).answer
      (client.respond challenge).next.state.left := by
  obtain ⟨apiKey, accessToken, state⟩ := client
  cases state with
  | start => exact .proceeds 0 []
  | awaitingForm =>
    unfold respond
    dsimp only
    cases hfill : fill _ (UrlEncoded.parse challenge) with
    | error cause => exact .fails 0 ((fill_avoids _ _).ne hfill .invalidState)
    | ok payload => exact .completes payload
  | ended => exact .refuses

end XFacebookPlatform

/-- What is wrong with the challenge is no failure of the client's own. -/
theorem DigestMd5.Challenge.ofAttributes_avoids (attributes : Attributes) :
    Avoids ClientError.IsOwn (Challenge.ofAttributes attributes) := by
  unfold ofAttributes
  cases attributes.find? "nonce" with
  | none => exact nofun
  | some nonce =>
    dsimp only
    by_cases hqop : offersAuth ((attributes.find? "qop").getD (Utf8.encode "auth")) = true
    · rw [if_pos hqop]
      exact nofun
    · rw [if_neg hqop]
      exact nofun

namespace DigestMd5.Client

def State.left : State → Option Nat
  | start => some 2
  | awaitingChallenge => some 1
  | awaitingProof _ _ => some 0
  | ended => none

theorem meet_avoids (client : Client) (attributes : Attributes) :
    Avoids (· = .invalidState) (client.meet attributes) := by
  unfold meet
  cases hchallenge : Challenge.ofAttributes attributes with
  | error cause =>
    exact .throw ((Challenge.ofAttributes_avoids attributes).ne hchallenge .invalidState)
  | ok challenge =>
    cases client.nonces with
    | error cause => exact nofun
    | ok cnonce => exact nofun

theorem objection_not_isOwn {secret : Bytes} {context : Context} {attributes : Attributes}
    {cause : ClientError} (h : objection secret context attributes = some cause) :
    ¬cause.IsOwn := by
  unfold objection at h
  cases hrspauth : attributes.find? "rspauth" with
  | none =>
    rw [hrspauth] at h
    cases h
    exact nofun
  | some rspauth =>
    rw [hrspauth] at h
    by_cases hproof : rspauth = serverProof secret context
    · simp [hproof] at h
    · simp only [if_neg hproof, Option.some.injEq] at h
      subst h
      exact nofun

theorem counts (client : Client) (challenge : Bytes) :
    Counts client.state.left (client.respond challenge).answer
      (client.respond challenge).next.state.left := by
  unfold respond
  cases hstate : client.state with
  | start => exact .proceeds 1 []
  | awaitingChallenge =>
    dsimp only
    cases hmeet : client.meet (AttributeList.read challenge).attributes with
    | error cause => exact .fails 1 ((client.meet_avoids _).ne hmeet rfl)
    | ok result =>
      obtain ⟨payload, state⟩ := result
      obtain ⟨offered, cnonce, -, -, -, rfl⟩ := meet_eq_ok_iff.1 hmeet
      exact .proceeds 0 payload
  | awaitingProof secret context =>
    dsimp only
    cases hproof : objection secret context (AttributeList.read challenge).attributes with
    | none => exact .completes []
    | some cause =>
      refine .fails 0 ?_
      rintro rfl
      exact objection_not_isOwn hproof .invalidState
  | ended =>
    dsimp only [Step.fail]
    rw [hstate]
    exact .refuses

end DigestMd5.Client

namespace Scram.Client

variable {h : Hash}

def State.left : State → Option Nat
  | start => some 2
  | sentFirst _ _ => some 1
  | sentFinal _ => some 0
  | ended => none

theorem State.exists_left {state : State} (h : state ≠ .ended) : ∃ n, state.left = some n := by
  cases state with
  | start => exact ⟨2, rfl⟩
  | sentFirst bare nonce => exact ⟨1, rfl⟩
  | sentFinal signature => exact ⟨0, rfl⟩
  | ended => exact absurd rfl h

theorem counts (client : Client h) (challenge : Bytes) :
    Counts client.state.left (client.respond challenge).answer
      (client.respond challenge).next.state.left := by
  cases hadvance : client.advance challenge with
  | error cause =>
    -- A client that is over says so; any other one has something left and gives it up.
    rw [respond_of_advance_error hadvance]
    by_cases hended : client.state = .ended
    · unfold advance at hadvance
      rw [hended] at hadvance ⊢
      cases hadvance
      exact .refuses
    · obtain ⟨n, hleft⟩ := State.exists_left hended
      rw [hleft]
      exact .fails n ((advance_avoids hended challenge).ne hadvance rfl)
  | ok result =>
    obtain ⟨reply, state⟩ := result
    rw [respond_of_advance hadvance]
    cases hstate : client.state with
    | start =>
      obtain ⟨nonce, -, rfl, rfl⟩ := (advance_start_eq_ok_iff hstate).1 hadvance
      exact .proceeds 1 _
    | sentFirst bare nonce =>
      obtain ⟨first, -, hprove⟩ := (advance_sentFirst_eq_ok_iff hstate).1 hadvance
      rw [prove_eq] at hprove
      obtain ⟨rfl, rfl⟩ := Prod.ext_iff.1 (Except.ok.inj hprove)
      exact .proceeds 0 _
    | sentFinal signature =>
      obtain ⟨-, rfl, rfl⟩ := (advance_sentFinal_eq_ok_iff hstate).1 hadvance
      exact .completes []
    | ended =>
      unfold advance at hadvance
      rw [hstate] at hadvance
      cases hadvance

end Scram.Client

/-! ## Servers -/

namespace DigestMd5.Server

/-- What a server replies to answers until it is shown a proof, and then to the last payload. -/
def AsksThenProves (replies : List ServerReply) : Prop :=
  ∃ (n : Nat) (proof : Bytes),
    replies = List.replicate n .inputNeeded ++ [.challenge proof, .success []]

/-- A challenge, any number of requests for input, a proof and success. -/
def Script (replies : List ServerReply) : Prop :=
  ∃ (challenge : Bytes) (rest : List ServerReply),
    replies = .challenge challenge :: rest ∧ AsksThenProves rest

/-- The replies that are yet to come. -/
def State.script : State → List ServerReply → Prop
  | start => Script
  | awaitingResponse _ => AsksThenProves
  | sentProof => (· = [.success []])
  | ended => (· = [])

theorem AsksThenProves.inputNeeded {replies : List ServerReply} (h : AsksThenProves replies) :
    AsksThenProves (.inputNeeded :: replies) := by
  obtain ⟨n, proof, rfl⟩ := h
  exact ⟨n + 1, proof, rfl⟩

theorem asksThenProves (proof : Bytes) : AsksThenProves [.challenge proof, .success []] :=
  ⟨0, proof, rfl⟩

theorem State.exists_script {state : State} (h : state ≠ .ended) :
    ∃ replies, state.script replies ∧ replies ≠ [] := by
  cases state with
  | start => exact ⟨_, ⟨[], _, rfl, asksThenProves []⟩, List.cons_ne_nil _ _⟩
  | awaitingResponse nonce => exact ⟨_, asksThenProves [], List.cons_ne_nil _ _⟩
  | sentProof => exact ⟨_, rfl, List.cons_ne_nil _ _⟩
  | ended => exact absurd rfl h

theorem absorbing : ServerMechanism.Absorbing fun server : Server => server.state = .ended where
  respond_eq server payload h := by
    change server.respond payload = _
    unfold respond
    rw [h]
  edit _ _ h := h

/-- From any state but the last, a server follows what is left of its script. -/
theorem follows_script {server : Server} (hstate : server.state ≠ .ended)
    (events : List ServerEvent) :
    Follows server.state.script .sessionAlreadyOver
      ((ServerMechanism.run server events).map Step.answer) := by
  induction events generalizing server with
  | nil =>
    obtain ⟨replies, hscript, -⟩ := State.exists_script hstate
    exact .stopped [] hscript
  | cons event events ih =>
    cases event with
    | edit change =>
      -- The script depends on the state alone, which no edit touches.
      have hedited : ({ server with credentials := change server.credentials } : Server).state ≠
          .ended := hstate
      exact ih hedited
    | payload bytes =>
      have havoids := respond_avoids hstate bytes
      have houtcome := outcome_respond server bytes
      have hrest {state : State} (hnext : (server.respond bytes).next.state = state)
          (hstate : state ≠ .ended) :
          Follows state.script .sessionAlreadyOver
            ((ServerMechanism.run (server.respond bytes).next events).map Step.answer) := by
        subst hnext
        exact ih hstate
      change Follows _ _ ((server.respond bytes).answer ::
        (ServerMechanism.run (server.respond bytes).next events).map Step.answer)
      generalize (server.respond bytes).answer = answer at havoids houtcome ⊢
      generalize hnext : (server.respond bytes).next.state = state at houtcome
      cases houtcome with
      | issues text hstart =>
        rw [hstart]
        exact (hrest hnext nofun).reply fun replies hreplies => ⟨_, replies, rfl, hreplies⟩
      | asks nonce hawaiting =>
        rw [hawaiting]
        exact (hrest hnext nofun).reply fun replies hreplies => hreplies.inputNeeded
      | proves nonce secret context hawaiting hclient =>
        rw [hawaiting]
        exact (hrest hnext nofun).reply fun replies hreplies => hreplies ▸ asksThenProves _
      | succeeds hsent =>
        have hlast : State.sentProof.script [.success []] := rfl
        rw [absorbing.answers hnext, hsent]
        exact .ended [ServerReply.success []] hlast _
      | fails cause =>
        obtain ⟨replies, hscript, hne⟩ := State.exists_script hstate
        rw [absorbing.answers hnext]
        exact .failed [] hscript hne (havoids.ne rfl rfl) _

end DigestMd5.Server

namespace Plain

/-- What a server answers to payloads: an empty challenge to each empty one, one verdict, and
that the session is over. -/
inductive Server.Answers : List Bytes → List (Except ServerError ServerReply) → Prop
  | asks (n : Nat) : Answers (List.replicate n []) (List.replicate n (.ok (.challenge [])))
  | accepts (n : Nat) {payload : Bytes} (hpayload : payload ≠ []) (later : List Bytes) :
      Answers (List.replicate n [] ++ payload :: later)
        (List.replicate n (.ok (.challenge [])) ++ .ok .inputNeeded ::
          List.replicate later.length (.error .sessionAlreadyOver))
  | rejects (n : Nat) {payload : Bytes} (hpayload : payload ≠ []) (later : List Bytes)
      {cause : ServerError} (hcause : cause ≠ .sessionAlreadyOver) :
      Answers (List.replicate n [] ++ payload :: later)
        (List.replicate n (.ok (.challenge [])) ++ .error cause ::
          List.replicate later.length (.error .sessionAlreadyOver))

theorem Server.Answers.challenge {payloads : List Bytes}
    {answers : List (Except ServerError ServerReply)} (h : Answers payloads answers) :
    Answers ([] :: payloads) (.ok (.challenge []) :: answers) := by
  cases h with
  | asks n => exact .asks (n + 1)
  | accepts n hpayload later => exact .accepts (n + 1) hpayload later
  | rejects n hpayload later hcause => exact .rejects (n + 1) hpayload later hcause

theorem Fields.ofMessage_avoids (payload : Bytes) :
    Avoids ServerError.IsOwn (Fields.ofMessage payload) := by
  unfold ofMessage
  split
  · split
    · exact nofun
    · exact nofun
    · exact nofun
    · exact nofun
  · exact nofun

namespace Server

theorem absorbing : ServerMechanism.Absorbing fun server : Server => server.ended = true where
  respond_eq server payload h := by
    change server.respond payload = _
    unfold respond
    rw [if_pos h]
  edit _ _ h := h

/-- A server asks for the message until there is one, and takes no second one. -/
theorem answers_run {server : Server} (hended : server.ended = false)
    (events : List ServerEvent) :
    Answers (ServerEvent.payloads events)
      ((ServerMechanism.run server events).map Step.answer) := by
  induction events generalizing server with
  | nil => exact .asks 0
  | cons event events ih =>
    cases event with
    | edit change =>
      have hedited : ({ server with credentials := change server.credentials } : Server).ended =
          false := hended
      exact ih hedited
    | payload bytes =>
      change Answers (bytes :: ServerEvent.payloads events) ((server.respond bytes).answer ::
        (ServerMechanism.run (server.respond bytes).next events).map Step.answer)
      by_cases hbytes : bytes = []
      · subst hbytes
        have hrespond : server.respond [] = .reply (.challenge []) server := by
          unfold respond
          rw [if_neg (by simp [hended])]
          rfl
        rw [hrespond]
        exact (ih hended).challenge
      · cases hfields : Fields.ofMessage bytes with
        | error cause =>
          have hcause : cause ≠ .sessionAlreadyOver :=
            (Fields.ofMessage_avoids bytes).ne hfields .sessionAlreadyOver
          rw [respond_of_error hended hbytes hfields, Step.fail, absorbing.answers rfl]
          exact .rejects 0 hbytes _ hcause
        | ok fields =>
          rw [respond_of_ok hended hbytes hfields, Step.reply, absorbing.answers rfl]
          exact .accepts 0 hbytes _

end Server

end Plain

namespace Anonymous.Server

theorem absorbing : ServerMechanism.Absorbing fun server : Server => server.ended = true where
  respond_eq server payload h := by
    change server.respond payload = _
    unfold respond
    rw [if_pos h]
  edit _ _ h := h

/-- A server succeeds at once, and never fails before. -/
theorem answers_prefix {server : Server} (hended : server.ended = false)
    (events : List ServerEvent) :
    (ServerMechanism.run server events).map Step.answer <+:
      .ok (.success []) ::
        List.replicate (ServerEvent.payloads events).length (.error .sessionAlreadyOver) := by
  induction events generalizing server with
  | nil => exact List.nil_prefix
  | cons event events ih =>
    cases event with
    | edit change =>
      have hedited : ({ server with credentials := change server.credentials } : Server).ended =
          false := hended
      exact ih hedited
    | payload bytes =>
      have hrespond : server.respond bytes =
          .reply (.success []) { server with ended := true } (traceLog server.hidden bytes) := by
        unfold respond
        rw [if_neg (by simp [hended])]
      have hover : ({ server with ended := true } : Server).ended = true := rfl
      rw [ServerMechanism.map_answer_run_payload hrespond, absorbing.answers hover,
        List.cons_prefix_cons]
      refine ⟨rfl, ?_⟩
      change _ <+: List.replicate ((ServerEvent.payloads events).length + 1) _
      rw [List.replicate_succ']
      exact List.prefix_append _ _

end Anonymous.Server

/-! ## Top theorem -/

/-- The clients complete after a number of rounds that is fixed by their mechanism, and so do the
servers whatever becomes of their credentials; no outcome is followed by another one. -/
theorem outcomes_final (credentials : Credentials) (nonces : NonceSource) :
    (EndsAfter 0 (Plain.Client.ofCredentials credentials) ∧
      EndsAfter 0 (Anonymous.Client.ofCredentials credentials) ∧
      EndsAfter 0 (XOAuth2.Client.ofCredentials credentials) ∧
      EndsAfter 0 (XMessengerOAuth2.Client.ofCredentials credentials) ∧
      EndsAfter 1 (XFacebookPlatform.Client.ofCredentials credentials) ∧
      EndsAfter 2 (DigestMd5.Client.ofCredentials credentials nonces) ∧
      ∀ h : Scram.Hash,
        EndsAfter 2 (Scram.Client.ofCredentials credentials nonces : Scram.Client h)) ∧
    ∀ events : List ServerEvent,
      Follows DigestMd5.Server.Script .sessionAlreadyOver
          ((ServerMechanism.run (DigestMd5.Server.ofCredentials credentials nonces) events).map
            Step.answer) ∧
        Plain.Server.Answers (ServerEvent.payloads events)
          ((ServerMechanism.run (Plain.Server.ofCredentials credentials) events).map
            Step.answer) ∧
        (ServerMechanism.run (Anonymous.Server.ofCredentials credentials) events).map
            Step.answer <+:
          .ok (.success []) ::
            List.replicate (ServerEvent.payloads events).length (.error .sessionAlreadyOver) := by
  refine ⟨⟨?_, ?_, ?_, ?_, ?_, ?_, ?_⟩, ?_⟩
  · exact ClientMechanism.endsAfter_of_counts Plain.Client.counts rfl
  · exact ClientMechanism.endsAfter_of_counts Anonymous.Client.counts rfl
  · exact ClientMechanism.endsAfter_of_counts XOAuth2.Client.counts rfl
  · exact ClientMechanism.endsAfter_of_counts XMessengerOAuth2.Client.counts rfl
  · exact ClientMechanism.endsAfter_of_counts XFacebookPlatform.Client.counts rfl
  · exact ClientMechanism.endsAfter_of_counts DigestMd5.Client.counts rfl
  · intro h
    exact ClientMechanism.endsAfter_of_counts Scram.Client.counts rfl
  · intro events
    have hstart : (DigestMd5.Server.ofCredentials credentials nonces).state ≠ .ended := nofun
    refine ⟨?_, ?_, ?_⟩
    · exact DigestMd5.Server.follows_script hstart events
    · exact Plain.Server.answers_run rfl events
    · exact Anonymous.Server.answers_prefix rfl events

end SaslExchange
