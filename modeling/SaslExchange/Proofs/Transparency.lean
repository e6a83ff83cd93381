import Mathlib.Data.List.Forall2
import SaslExchange.Proofs.Runs
import SaslExchange.Registry

/-!
# Mechanisms by name run as they do alone

What is looked up by name is the mechanism of that name, in a wrapping that passes every message
on to it. The wrapping changes nothing of what the mechanism answers, and nothing of a server's
credentials; it adds one line to the log of each step, which tells whether the step succeeded.

    a wrapped mechanism echoes the one inside, step by step     (Wraps.mirrors of either side)
    a mechanism is found under a name ↔ the name is listed    (isSome_lookup_iff of either side)
    each mechanism is provided under its name, with the source of nonces that it is given
                                                                  (registry_transparent)
-/

namespace SaslExchange

/-! ## Steps with a line on their outcome -/

/-- The level of the line on an outcome. -/
def outcomeLevel {Failure Reply : Type} : Except Failure Reply → Log.Level
  | .ok _ => .debug
  | .error _ => .warn

/-- The step answers as `own` does, and logs what `own` logs and then a line on the outcome. -/
structure Echoes {State Own Failure Reply : Type} (own : Step Own Failure Reply)
    (step : Step State Failure Reply) : Prop where
  answer : step.answer = own.answer
  log : ∃ line : Log.Line, step.log = own.log ++ [line] ∧ line.level = outcomeLevel own.answer

/-! ## Clients -/

namespace AnyClient

/-- The client has the name of the one that runs alone, and echoes its steps. -/
structure Mirrors {State : Type} [ClientMechanism State] (client : AnyClient) (alone : State) :
    Prop where
  name_eq : ClientMechanism.name client = ClientMechanism.name alone
  echoes : ∀ challenges, List.Forall₂ Echoes (ClientMechanism.run alone challenges)
    (ClientMechanism.run client challenges)

/-- A client is looked up under the name, and with a new source of nonces it mirrors each of the
clients of this name that run alone. -/
def Provides {State : Type} [ClientMechanism State] (name : String) (credentials : Credentials)
    (source nonces : NonceSource) (clients : List State) : Prop :=
  ∃ client, (lookup name credentials source).1 = some client ∧ client.name = name ∧
    ∀ alone ∈ clients, ClientMechanism.name alone = name ∧
      (client.withNonces nonces).Mirrors alone

/-- The wrapping passes name and steps on. -/
structure Wraps {State : Type} [ClientMechanism State] (wrap : State → AnyClient) : Prop where
  name_eq : ∀ state, (wrap state).name = ClientMechanism.name state
  step_eq : ∀ state challenge,
    (wrap state).step challenge = (ClientMechanism.respond state challenge).map wrap

theorem level_outcomeLog (name : String) (answer : Except ClientError ClientReply) :
    (outcomeLog name answer).level = outcomeLevel answer := by
  cases answer <;> rfl

section

variable {State : Type} [ClientMechanism State] {wrap : State → AnyClient} (h : Wraps wrap)

include h

theorem Wraps.echoes_step (state : State) (challenge : Bytes) :
    Echoes (ClientMechanism.respond state challenge) ((wrap state).respond challenge) := by
  unfold respond
  rw [h.step_eq]
  exact ⟨rfl, _, rfl, level_outcomeLog _ _⟩

theorem Wraps.next_eq (state : State) (challenge : Bytes) :
    ((wrap state).respond challenge).next =
      wrap (ClientMechanism.respond state challenge).next := by
  unfold respond
  rw [h.step_eq]
  rfl

/-- A wrapped client runs as the one inside. -/
theorem Wraps.mirrors (state : State) : (wrap state).Mirrors state where
  name_eq := h.name_eq state
  echoes challenges := by
    induction challenges generalizing state with
    | nil => exact .nil
    | cons challenge challenges ih =>
      have hrest := ih (ClientMechanism.respond state challenge).next
      rw [← h.next_eq] at hrest
      exact .cons (h.echoes_step state challenge) hrest

end

/-! ### Mechanisms -/

theorem wraps_scramSha256 : Wraps scramSha256 := ⟨fun _ => rfl, fun _ _ => rfl⟩

theorem wraps_scramSha1 : Wraps scramSha1 := ⟨fun _ => rfl, fun _ _ => rfl⟩

theorem wraps_digestMd5 : Wraps digestMd5 := ⟨fun _ => rfl, fun _ _ => rfl⟩

theorem wraps_plain : Wraps plain := ⟨fun _ => rfl, fun _ _ => rfl⟩

theorem wraps_anonymous : Wraps anonymous := ⟨fun _ => rfl, fun _ _ => rfl⟩

theorem wraps_xFacebookPlatform : Wraps xFacebookPlatform := ⟨fun _ => rfl, fun _ _ => rfl⟩

theorem wraps_xMessengerOAuth2 : Wraps xMessengerOAuth2 := ⟨fun _ => rfl, fun _ _ => rfl⟩

theorem wraps_xOAuth2 : Wraps xOAuth2 := ⟨fun _ => rfl, fun _ _ => rfl⟩

/-- A wrapped client is provided in the place of clients that are the one inside. -/
theorem Wraps.provides {State : Type} [ClientMechanism State] {wrap : State → AnyClient}
    (h : Wraps wrap) {name : String} {credentials : Credentials} {source nonces : NonceSource}
    {created state : State}
    (hlookup : (lookup name credentials source).1 = some (wrap created))
    (hnonces : (wrap created).withNonces nonces = wrap state)
    (hname : ∀ state : State, ClientMechanism.name state = name) {clients : List State}
    (hclients : ∀ alone ∈ clients, alone = state) :
    Provides name credentials source nonces clients := by
  refine ⟨wrap created, hlookup, ?_, ?_⟩
  · rw [h.name_eq, hname]
  · intro alone halone
    rw [hnonces, ← hclients alone halone]
    exact ⟨hname alone, h.mirrors alone⟩

/-! ### Names -/

theorem isSome_lookup_iff {name : String} {credentials : Credentials} {source : NonceSource} :
    (lookup name credentials source).1.isSome ↔ name ∈ names := by
  rw [fst_lookup]
  unfold ofName?
  split <;> simp_all [names]

theorem name_of_lookup {name : String} {credentials : Credentials} {source : NonceSource}
    {client : AnyClient} (h : (lookup name credentials source).1 = some client) :
    client.name = name := by
  rw [fst_lookup] at h
  unfold ofName? at h
  split at h <;> cases h <;> rfl

end AnyClient

/-! ## Servers -/

namespace AnyServer

/-- The server has the name of the one that runs alone, echoes its steps, and holds the same
credentials. -/
structure Mirrors {State : Type} [ServerMechanism State] (server : AnyServer) (alone : State) :
    Prop where
  name_eq : ServerMechanism.name server = ServerMechanism.name alone
  echoes : ∀ events, List.Forall₂ Echoes (ServerMechanism.run alone events)
    (ServerMechanism.run server events)
  credentials_eq : ∀ events, ServerMechanism.credentials (ServerMechanism.after server events) =
    ServerMechanism.credentials (ServerMechanism.after alone events)

/-- A server is looked up under the name, and with a new source of nonces it mirrors each of the
servers of this name that run alone. -/
def Provides {State : Type} [ServerMechanism State] (name : String) (credentials : Credentials)
    (source nonces : NonceSource) (servers : List State) : Prop :=
  ∃ server, (lookup name credentials source).1 = some server ∧ server.name = name ∧
    ∀ alone ∈ servers, ServerMechanism.name alone = name ∧
      (server.withNonces nonces).Mirrors alone

/-- The wrapping passes name, steps and credentials on. -/
structure Wraps {State : Type} [ServerMechanism State] (wrap : State → AnyServer) : Prop where
  name_eq : ∀ state, (wrap state).name = ServerMechanism.name state
  step_eq : ∀ state payload,
    (wrap state).step payload = (ServerMechanism.respond state payload).map wrap
  credentials_eq : ∀ state, (wrap state).credentials = ServerMechanism.credentials state
  setCredentials_eq : ∀ state credentials, (wrap state).setCredentials credentials =
    wrap (ServerMechanism.setCredentials state credentials)

theorem level_outcomeLog (name : String) (answer : Except ServerError ServerReply) :
    (outcomeLog name answer).level = outcomeLevel answer := by
  cases answer <;> rfl

section

variable {State : Type} [ServerMechanism State] {wrap : State → AnyServer} (h : Wraps wrap)

include h

theorem Wraps.echoes_step (state : State) (payload : Bytes) :
    Echoes (ServerMechanism.respond state payload) ((wrap state).respond payload) := by
  unfold respond
  rw [h.step_eq]
  exact ⟨rfl, _, rfl, level_outcomeLog _ _⟩

theorem Wraps.next_eq (state : State) (event : ServerEvent) :
    ServerMechanism.next (wrap state) event = wrap (ServerMechanism.next state event) := by
  cases event with
  | payload bytes =>
    show ((wrap state).respond bytes).next = _
    unfold respond
    rw [h.step_eq]
    rfl
  | edit change =>
    show (wrap state).setCredentials (change (wrap state).credentials) = _
    rw [h.credentials_eq, h.setCredentials_eq]
    rfl

theorem Wraps.after_eq (state : State) (events : List ServerEvent) :
    ServerMechanism.after (wrap state) events = wrap (ServerMechanism.after state events) :=
  List.foldl_hom wrap h.next_eq

/-- A wrapped server runs as the one inside. -/
theorem Wraps.mirrors (state : State) : (wrap state).Mirrors state where
  name_eq := h.name_eq state
  echoes events := by
    induction events generalizing state with
    | nil => exact .nil
    | cons event events ih =>
      have hrest := ih (ServerMechanism.next state event)
      rw [← h.next_eq] at hrest
      cases event with
      | payload bytes => exact .cons (h.echoes_step state bytes) hrest
      | edit change => exact hrest
  credentials_eq events := by
    rw [h.after_eq]
    exact h.credentials_eq _

end

theorem isSome_lookup_iff {name : String} {credentials : Credentials} {source : NonceSource} :
    (lookup name credentials source).1.isSome ↔ name ∈ names := by
  rw [fst_lookup]
  unfold ofName?
  split <;> simp_all [names]

theorem name_of_lookup {name : String} {credentials : Credentials} {source : NonceSource}
    {server : AnyServer} (h : (lookup name credentials source).1 = some server) :
    server.name = name := by
  rw [fst_lookup] at h
  unfold ofName? at h
  split at h <;> cases h <;> rfl

/-! ### Mechanisms -/

theorem wraps_plain : Wraps plain :=
  ⟨fun _ => rfl, fun _ _ => rfl, fun _ => rfl, fun _ _ => rfl⟩

theorem wraps_digestMd5 : Wraps digestMd5 :=
  ⟨fun _ => rfl, fun _ _ => rfl, fun _ => rfl, fun _ _ => rfl⟩

theorem wraps_anonymous : Wraps anonymous :=
  ⟨fun _ => rfl, fun _ _ => rfl, fun _ => rfl, fun _ _ => rfl⟩

/-- A wrapped server is provided in the place of servers that are the one inside. -/
theorem Wraps.provides {State : Type} [ServerMechanism State] {wrap : State → AnyServer}
    (h : Wraps wrap) {name : String} {credentials : Credentials} {source nonces : NonceSource}
    {created state : State}
    (hlookup : (lookup name credentials source).1 = some (wrap created))
    (hnonces : (wrap created).withNonces nonces = wrap state)
    (hname : ∀ state : State, ServerMechanism.name state = name) {servers : List State}
    (hservers : ∀ alone ∈ servers, alone = state) :
    Provides name credentials source nonces servers := by
  refine ⟨wrap created, hlookup, ?_, ?_⟩
  · rw [h.name_eq, hname]
  · intro alone halone
    rw [hnonces, ← hservers alone halone]
    exact ⟨hname alone, h.mirrors alone⟩

end AnyServer

/-! ## Servers made from nothing -/

theorem Plain.Server.default_eq : (default : Plain.Server) = {} := rfl

theorem Anonymous.Server.default_eq : (default : Anonymous.Server) = {} := rfl

/-! ## Top theorem -/

/-- The names that are listed are those under which a mechanism is found, and the mechanism has
that name. Through the registry it takes the steps that it takes alone, whether it is made there
from credentials, or from the texts in them, or, on a server's side, from nothing. If it is given
another source of nonces, these are the steps of a mechanism that was made with that source. -/
theorem registry_transparent (credentials : Credentials) (source nonces : NonceSource) :
    (∀ name, (AnyClient.lookup name credentials source).1.isSome ↔ name ∈ AnyClient.names) ∧
    (∀ name client, (AnyClient.lookup name credentials source).1 = some client →
      client.name = name) ∧
    (∀ name, (AnyServer.lookup name credentials source).1.isSome ↔ name ∈ AnyServer.names) ∧
    (∀ name server, (AnyServer.lookup name credentials source).1 = some server →
      server.name = name) ∧
    (let { username, password, host, serviceType, .. } := credentials
      let scram (h : Scram.Hash) : List (Scram.Client h) :=
        [.ofCredentials credentials nonces, { username, password, nonces },
          (Scram.Client.ofCredentials credentials source).withNonces nonces,
          Scram.Client.withNonces { username, password, nonces := source } nonces]
      AnyClient.Provides "SCRAM-SHA-256" credentials source nonces (scram .sha256) ∧
      AnyClient.Provides "SCRAM-SHA-1" credentials source nonces (scram .sha1) ∧
      AnyClient.Provides "DIGEST-MD5" credentials source nonces
        [.ofCredentials credentials nonces, { username, password, serviceType, host, nonces },
          (DigestMd5.Client.ofCredentials credentials source).withNonces nonces,
          DigestMd5.Client.withNonces
            { username, password, serviceType, host, nonces := source } nonces] ∧
      AnyClient.Provides "PLAIN" credentials source nonces
        [Plain.Client.ofCredentials credentials, { username, password }] ∧
      AnyClient.Provides "ANONYMOUS" credentials source nonces
        [Anonymous.Client.ofCredentials credentials, {}] ∧
      AnyClient.Provides "X-FACEBOOK-PLATFORM" credentials source nonces
        [XFacebookPlatform.Client.ofCredentials credentials,
          { apiKey := username, accessToken := password }] ∧
      AnyClient.Provides "X-MESSENGER-OAUTH2" credentials source nonces
        [XMessengerOAuth2.Client.ofCredentials credentials, { token := password }] ∧
      AnyClient.Provides "X-OAUTH2" credentials source nonces
        [XOAuth2.Client.ofCredentials credentials, { username, token := password }]) ∧
    AnyServer.Provides "PLAIN" credentials source nonces
      [Plain.Server.ofCredentials credentials] ∧
    AnyServer.Provides "PLAIN" {} source nonces
      [Plain.Server.ofCredentials {}, {}, default] ∧
    AnyServer.Provides "DIGEST-MD5" credentials source nonces
      [.ofCredentials credentials nonces,
        (DigestMd5.Server.ofCredentials credentials source).withNonces nonces] ∧
    AnyServer.Provides "DIGEST-MD5" {} source nonces
      [.ofCredentials {} nonces, .new nonces, .default nonces, { nonces },
        (DigestMd5.Server.ofCredentials {} source).withNonces nonces,
        (DigestMd5.Server.new source).withNonces nonces,
        (DigestMd5.Server.default source).withNonces nonces,
        DigestMd5.Server.withNonces { nonces := source } nonces] ∧
    AnyServer.Provides "ANONYMOUS" credentials source nonces
      [Anonymous.Server.ofCredentials credentials] ∧
    AnyServer.Provides "ANONYMOUS" {} source nonces
      [Anonymous.Server.ofCredentials {}, {}, default] := by
  refine ⟨?_, ?_, ?_, ?_, ⟨?_, ?_, ?_, ?_, ?_, ?_, ?_, ?_⟩, ?_, ?_, ?_, ?_, ?_, ?_⟩
  · intro name
    exact AnyClient.isSome_lookup_iff
  · intro name client
    exact AnyClient.name_of_lookup
  · intro name
    exact AnyServer.isSome_lookup_iff
  · intro name server
    exact AnyServer.name_of_lookup
  · exact AnyClient.wraps_scramSha256.provides rfl rfl (fun _ => rfl)
      (by simp [Scram.Client.ofCredentials, Scram.Client.withNonces])
  · exact AnyClient.wraps_scramSha1.provides rfl rfl (fun _ => rfl)
      (by simp [Scram.Client.ofCredentials, Scram.Client.withNonces])
  · exact AnyClient.wraps_digestMd5.provides rfl rfl (fun _ => rfl)
      (by simp [DigestMd5.Client.ofCredentials, DigestMd5.Client.withNonces])
  · exact AnyClient.wraps_plain.provides rfl rfl (fun _ => rfl)
      (by simp [Plain.Client.ofCredentials])
  · exact AnyClient.wraps_anonymous.provides rfl rfl (fun _ => rfl)
      (by simp [Anonymous.Client.ofCredentials])
  · exact AnyClient.wraps_xFacebookPlatform.provides rfl rfl (fun _ => rfl)
      (by simp [XFacebookPlatform.Client.ofCredentials])
  · exact AnyClient.wraps_xMessengerOAuth2.provides rfl rfl (fun _ => rfl)
      (by simp [XMessengerOAuth2.Client.ofCredentials])
  · exact AnyClient.wraps_xOAuth2.provides rfl rfl (fun _ => rfl)
      (by simp [XOAuth2.Client.ofCredentials])
  · exact AnyServer.wraps_plain.provides rfl rfl (fun _ => rfl) (by simp)
  · exact AnyServer.wraps_plain.provides rfl rfl (fun _ => rfl)
      (by simp [Plain.Server.ofCredentials, Plain.Server.default_eq])
  · exact AnyServer.wraps_digestMd5.provides rfl rfl (fun _ => rfl)
      (by simp [DigestMd5.Server.ofCredentials, DigestMd5.Server.withNonces])
  · exact AnyServer.wraps_digestMd5.provides rfl rfl (fun _ => rfl)
      (by simp [DigestMd5.Server.ofCredentials, DigestMd5.Server.new, DigestMd5.Server.default,
        DigestMd5.Server.withNonces])
  · exact AnyServer.wraps_anonymous.provides rfl rfl (fun _ => rfl) (by simp)
  · exact AnyServer.wraps_anonymous.provides rfl rfl (fun _ => rfl)
      (by simp [Anonymous.Server.ofCredentials, Anonymous.Server.default_eq])

/-- Names and what is found under them, with a source that fails. Two of the mechanisms have a use
for a source, and are given one that doesn't fail. -/
theorem registry_transparent_found :
    (AnyClient.lookup "X-OAUTH2" { username := "tim" } (.error .invalidKeyLength)).1 =
        some (.xOAuth2 { username := "tim", token := "" }) ∧
      (AnyServer.lookup "PLAIN" { realm := "elwood" } (.error .invalidKeyLength)).1 =
        some (.plain { credentials := { realm := "elwood" } }) ∧
      AnyClient.name (.xOAuth2 { username := "tim", token := "" }) = "X-OAUTH2" ∧
      AnyServer.name (.plain { credentials := { realm := "elwood" } }) = "PLAIN" ∧
      AnyClient.Provides "SCRAM-SHA-1" { username := "tim", password := "tanstaaf" }
        (.error .invalidKeyLength) (.ok "fyko")
        ([.ofCredentials { username := "tim", password := "tanstaaf" } (.ok "fyko"),
          { username := "tim", password := "tanstaaf", nonces := .ok "fyko" },
          (Scram.Client.ofCredentials { username := "tim", password := "tanstaaf" }
            (.error .invalidKeyLength)).withNonces (.ok "fyko"),
          Scram.Client.withNonces
            { username := "tim", password := "tanstaaf", nonces := .error .invalidKeyLength }
            (.ok "fyko")] : List (Scram.Client .sha1)) ∧
      AnyServer.Provides "DIGEST-MD5" { realm := "elwood" } (.error .invalidKeyLength) (.ok "fyko")
        [.ofCredentials { realm := "elwood" } (.ok "fyko"),
          (DigestMd5.Server.ofCredentials { realm := "elwood" }
            (.error .invalidKeyLength)).withNonces (.ok "fyko")] := by
  obtain ⟨-, hclient, -⟩ :=
    registry_transparent { username := "tim" } (.error .invalidKeyLength) (.ok "fyko")
  obtain ⟨-, -, -, hserver, -, -, -, hdigest, -⟩ :=
    registry_transparent { realm := "elwood" } (.error .invalidKeyLength) (.ok "fyko")
  obtain ⟨-, -, -, -, ⟨-, hscram, -⟩, -⟩ :=
    registry_transparent { username := "tim", password := "tanstaaf" } (.error .invalidKeyLength)
      (.ok "fyko")
  exact ⟨rfl, rfl, hclient _ _ rfl, hserver _ _ rfl, hscram, hdigest⟩

end SaslExchange
