import SaslExchange.Proofs.Finality
import SaslExchange.Proofs.Transparency

/-!
# Secrets stay out of the log

What a mechanism logs can be told by one who doesn't know its credentials: from its name, from the
messages that it was sent, and from the shapes of its answers. Most mechanisms leave even the
messages out of it. A server may hide any characters of what it logs, which changes no answer.

    the log of a run is told from messages and shapes              (logs_eq_tell of either side)
    as long as the shapes agree, so do the logs                    (take_logs_eq of either side)
    without remarks there is one line for each answer               (logs_eq_map of either side)
    hiding other characters changes log lines only          (answer_withHidden, next_withHidden)
-/

namespace SaslExchange

/-! ## Lines on messages and shapes -/

section

variable {Stage Shape : Type} (remarks : Stage → Bytes → List Log.Line)
  (after : Stage → Shape → Stage) (outcome : Shape → Log.Line)

/-- What is logged on messages that are answered in the given shapes: a party in some stage remarks
on a message, tells the outcome, and goes on to the stage after it. -/
def tell : Stage → List Bytes → List Shape → List (List Log.Line)
  | stage, message :: messages, shape :: shapes =>
    (remarks stage message ++ [outcome shape]) :: tell (after stage shape) messages shapes
  | _, _, _ => []

theorem take_tell (stage : Stage) (messages : List Bytes) (shapes : List Shape) (k : Nat) :
    (tell remarks after outcome stage messages shapes).take k =
      tell remarks after outcome stage messages (shapes.take k) := by
  induction messages generalizing stage shapes k with
  | nil => cases k <;> rfl
  | cons message messages ih =>
    cases shapes with
    | nil => simp [tell]
    | cons shape shapes =>
      cases k with
      | zero => rfl
      | succ k => exact congrArg (List.cons _) (ih _ _ _)

end

/-! ## Clients -/

/-- The reply with zeros for its bytes, which leaves its kind and its length. -/
def ClientReply.shape : ClientReply → ClientReply
  | proceed payload => proceed (List.replicate payload.length 0)
  | complete payload => complete (List.replicate payload.length 0)

/-! ### Remarks of each mechanism -/

theorem Scram.Client.log_respond {h : Scram.Hash} (client : Scram.Client h) (challenge : Bytes) :
    (client.respond challenge).log = [] := by
  unfold respond
  cases client.advance challenge with
  | error cause => rfl
  | ok result => rfl

theorem Plain.Client.log_respond (client : Plain.Client) (challenge : Bytes) :
    (client.respond challenge).log = [] := by
  obtain ⟨username, password, ended⟩ := client
  cases ended <;> rfl

theorem Anonymous.Client.log_respond (client : Anonymous.Client) (challenge : Bytes) :
    (client.respond challenge).log = [] := by
  obtain ⟨ended⟩ := client
  cases ended <;> rfl

theorem XOAuth2.Client.log_respond (client : XOAuth2.Client) (challenge : Bytes) :
    (client.respond challenge).log = [] := by
  obtain ⟨username, token, ended⟩ := client
  cases ended <;> rfl

theorem XMessengerOAuth2.Client.log_respond (client : XMessengerOAuth2.Client)
    (challenge : Bytes) : (client.respond challenge).log = [] := by
  obtain ⟨token, ended⟩ := client
  unfold respond
  cases ended with
  | true => rfl
  | false => cases Base64.decode? token <;> rfl

theorem XFacebookPlatform.Client.log_respond (client : XFacebookPlatform.Client)
    (challenge : Bytes) : (client.respond challenge).log = [] := by
  unfold respond
  cases client.state with
  | start => rfl
  | awaitingForm =>
    dsimp only
    cases client.fill (UrlEncoded.parse challenge) <;> rfl
  | ended => rfl

/-- A client remarks on the challenges that it reads, whatever it makes of them. -/
theorem DigestMd5.Client.log_respond (client : DigestMd5.Client) (challenge : Bytes) :
    (client.respond challenge).log =
      if client.state.left = some 1 ∨ client.state.left = some 0 then
        (AttributeList.read challenge).log
      else [] := by
  unfold respond
  cases client.state with
  | start => rfl
  | awaitingChallenge =>
    dsimp only
    cases client.meet (AttributeList.read challenge).attributes <;> rfl
  | awaitingProof secret context =>
    dsimp only
    cases objection secret context (AttributeList.read challenge).attributes <;> rfl
  | ended => rfl

namespace AnyClient

/-- The shapes of a client's answers. -/
def shapes (client : AnyClient) (challenges : List Bytes) :
    List (Except ClientError ClientReply) :=
  (ClientMechanism.run client challenges).map fun step => step.answer.map ClientReply.shape

/-- What each step of a client logs. -/
def logs (client : AnyClient) (challenges : List Bytes) : List (List Log.Line) :=
  (ClientMechanism.run client challenges).map Step.log

/-! ### Stages -/

/-- How many challenges a client still asks for. -/
def left : AnyClient → Option Nat
  | scramSha256 client => client.state.left
  | scramSha1 client => client.state.left
  | digestMd5 client => client.state.left
  | plain client => leftOfOne client.ended
  | anonymous client => leftOfOne client.ended
  | xFacebookPlatform client => client.state.left
  | xMessengerOAuth2 client => leftOfOne client.ended
  | xOAuth2 client => leftOfOne client.ended

theorem counts (client : AnyClient) (challenge : Bytes) :
    Counts client.left (client.respond challenge).answer
      (client.respond challenge).next.left := by
  cases client with
  | scramSha256 client => exact client.counts challenge
  | scramSha1 client => exact client.counts challenge
  | digestMd5 client => exact client.counts challenge
  | plain client => exact client.counts challenge
  | anonymous client => exact client.counts challenge
  | xFacebookPlatform client => exact client.counts challenge
  | xMessengerOAuth2 client => exact client.counts challenge
  | xOAuth2 client => exact client.counts challenge

/-- What is left after an answer. -/
def leftAfter : Option Nat → Except ClientError ClientReply → Option Nat
  | some (n + 1), .ok (.proceed _) => some n
  | _, _ => none

theorem left_next (client : AnyClient) (challenge : Bytes) :
    (client.respond challenge).next.left =
      leftAfter client.left ((client.respond challenge).answer.map ClientReply.shape) := by
  have hcounts := client.counts challenge
  generalize (client.respond challenge).answer = answer at hcounts ⊢
  generalize (client.respond challenge).next.left = after at hcounts ⊢
  generalize client.left = before at hcounts ⊢
  cases hcounts with
  | proceeds n payload => rfl
  | completes payload => rfl
  | fails n hcause => cases n <;> rfl
  | refuses => rfl

theorem name_next (client : AnyClient) (challenge : Bytes) :
    (client.respond challenge).next.name = client.name := by
  cases client <;> rfl

/-- How many challenges a client asks for at first. -/
def leftAtFirst (name : String) : Option Nat :=
  if name = "PLAIN" ∨ name = "ANONYMOUS" ∨ name = "X-MESSENGER-OAUTH2" ∨ name = "X-OAUTH2" then
    some 0
  else if name = "X-FACEBOOK-PLATFORM" then some 1
  else some 2

theorem left_of_lookup {name : String} {credentials : Credentials} {nonces : NonceSource}
    {client : AnyClient} (h : (lookup name credentials nonces).1 = some client) :
    client.left = leftAtFirst name := by
  rw [fst_lookup] at h
  unfold ofName? at h
  split at h <;> cases h <;> rfl

/-! ### Lines -/

/-- What a client remarks on a challenge. -/
def remarks (name : String) (left : Option Nat) (challenge : Bytes) : List Log.Line :=
  if name = "DIGEST-MD5" then
    if left = some 1 ∨ left = some 0 then (DigestMd5.AttributeList.read challenge).log else []
  else []

theorem remarks_of_ne {name : String} (h : name ≠ "DIGEST-MD5") (left : Option Nat)
    (challenge : Bytes) : remarks name left challenge = [] := if_neg h

theorem log_step (client : AnyClient) (challenge : Bytes) :
    (client.step challenge).log = remarks client.name client.left challenge := by
  cases client with
  | scramSha256 client => exact client.log_respond challenge
  | scramSha1 client => exact client.log_respond challenge
  | digestMd5 client => exact client.log_respond challenge
  | plain client => exact client.log_respond challenge
  | anonymous client => exact client.log_respond challenge
  | xFacebookPlatform client => exact client.log_respond challenge
  | xMessengerOAuth2 client => exact client.log_respond challenge
  | xOAuth2 client => exact client.log_respond challenge

theorem outcomeLog_shape (name : String) (answer : Except ClientError ClientReply) :
    outcomeLog name (answer.map ClientReply.shape) = outcomeLog name answer := by
  cases answer with
  | error cause => rfl
  | ok reply =>
    cases reply <;> simp [outcomeLog, Except.map, ClientReply.shape, ClientReply.payload,
      ClientReply.proceeds]

theorem log_respond (client : AnyClient) (challenge : Bytes) :
    (client.respond challenge).log = remarks client.name client.left challenge ++
      [outcomeLog client.name ((client.respond challenge).answer.map ClientReply.shape)] := by
  rw [outcomeLog_shape, ← log_step]
  rfl

theorem logs_eq_tell (client : AnyClient) (challenges : List Bytes) :
    client.logs challenges =
      tell (remarks client.name) leftAfter (outcomeLog client.name) client.left challenges
        (client.shapes challenges) := by
  induction challenges generalizing client with
  | nil => rfl
  | cons challenge challenges ih =>
    have hrest := ih (client.respond challenge).next
    rw [name_next, left_next] at hrest
    exact congrArg₂ List.cons (client.log_respond challenge) hrest

/-- Two clients of one name that are sent the same challenges log the same as long as their
answers have the same shapes. -/
theorem take_logs_eq {a b : AnyClient} (hname : a.name = b.name) (hleft : a.left = b.left)
    {challenges : List Bytes} {k : Nat}
    (hshapes : (a.shapes challenges).take k = (b.shapes challenges).take k) :
    (a.logs challenges).take k = (b.logs challenges).take k := by
  rw [logs_eq_tell, logs_eq_tell, take_tell, take_tell, hname, hleft, hshapes]

/-- A client that doesn't remark on challenges logs its outcomes only. -/
theorem logs_eq_map {client : AnyClient} (hname : client.name ≠ "DIGEST-MD5")
    (challenges : List Bytes) :
    client.logs challenges =
      (client.shapes challenges).map fun shape => [outcomeLog client.name shape] := by
  induction challenges generalizing client with
  | nil => rfl
  | cons challenge challenges ih =>
    have hlog : (client.respond challenge).log =
        [outcomeLog client.name ((client.respond challenge).answer.map ClientReply.shape)] := by
      rw [log_respond, remarks_of_ne hname, List.nil_append]
    have hnext : (client.respond challenge).next.name ≠ "DIGEST-MD5" := by
      rwa [name_next]
    have hrest := ih hnext
    rw [name_next] at hrest
    exact congrArg₂ List.cons hlog hrest

theorem log_of_lookup (name : String) (credentials : Credentials) (nonces : NonceSource) :
    (lookup name credentials nonces).2 =
      if name ∈ names then [] else [Log.debug ("No client mechanism called " ++ name)] := by
  have hiff : (lookup name credentials nonces).1.isSome ↔ name ∈ names := isSome_lookup_iff
  unfold lookup at hiff ⊢
  cases hfound : ofName? name credentials nonces with
  | none =>
    rw [hfound] at hiff
    rw [if_neg fun hmem => nomatch hiff.2 hmem]
  | some client =>
    rw [hfound] at hiff
    rw [if_pos (hiff.1 rfl)]

end AnyClient

/-! ## Servers -/

/-- The reply with zeros for its bytes, which leaves its kind and its length. -/
def ServerReply.shape : ServerReply → ServerReply
  | challenge payload => challenge (List.replicate payload.length 0)
  | success payload => success (List.replicate payload.length 0)
  | inputNeeded => inputNeeded

/-! ### Remarks of each mechanism -/

/-- Whether a server remarks on payloads. -/
inductive AnyServer.Stage
  /-- It does so from the next one on. -/
  | opening
  | listening
  /-- It does so no more. -/
  | silent
deriving DecidableEq

/-- A server remarks on the payloads that it reads, whatever it makes of them. -/
def DigestMd5.Server.State.stage : DigestMd5.Server.State → AnyServer.Stage
  | start => .opening
  | awaitingResponse _ => .listening
  | sentProof => .silent
  | ended => .silent

theorem Plain.Server.log_respond (server : Plain.Server) (payload : Bytes) :
    (server.respond payload).log = [] := by
  unfold respond
  split
  · rfl
  · split
    · rfl
    · cases Fields.ofMessage payload <;> rfl

theorem DigestMd5.Server.log_respond (server : DigestMd5.Server) (payload : Bytes) :
    (server.respond payload).log =
      if server.state.stage = .listening then
        let reading := AttributeList.read payload
        reading.log ++ qopLog reading.attributes
      else [] := by
  unfold respond
  cases server.state with
  | start => cases server.nonces <;> rfl
  | awaitingResponse nonce => rfl
  | sentProof => rfl
  | ended => rfl

namespace AnyServer

/-- The shapes of a server's answers. -/
def shapes (server : AnyServer) (events : List ServerEvent) :
    List (Except ServerError ServerReply) :=
  (ServerMechanism.run server events).map fun step => step.answer.map ServerReply.shape

/-- What each step of a server logs. -/
def logs (server : AnyServer) (events : List ServerEvent) : List (List Log.Line) :=
  (ServerMechanism.run server events).map Step.log

/-! ### Stages -/

def stage : AnyServer → Stage
  | plain _ => .silent
  | digestMd5 server => server.state.stage
  | anonymous server => if server.ended then .silent else .listening

/-- The stage after an answer. -/
def Stage.after : Stage → Except ServerError ServerReply → Stage
  | opening, .ok _ => listening
  | listening, .ok .inputNeeded => listening
  | _, _ => silent

theorem stage_next (server : AnyServer) (payload : Bytes) :
    (server.respond payload).next.stage =
      server.stage.after ((server.respond payload).answer.map ServerReply.shape) := by
  cases server with
  | plain server => rfl
  | digestMd5 server =>
    have houtcome := DigestMd5.Server.outcome_respond server payload
    change (server.respond payload).next.state.stage =
      server.state.stage.after ((server.respond payload).answer.map ServerReply.shape)
    generalize (server.respond payload).answer = answer at houtcome ⊢
    generalize (server.respond payload).next.state = state at houtcome ⊢
    cases houtcome with
    | issues text hstart => rw [hstart]; rfl
    | asks nonce hawaiting => rw [hawaiting]; rfl
    | proves nonce secret context hawaiting hclient => rw [hawaiting]; rfl
    | succeeds hsent => rw [hsent]; rfl
    | fails cause => cases server.state <;> rfl
  | anonymous server =>
    obtain ⟨credentials, ended, hidden⟩ := server
    cases ended <;> rfl

theorem name_next (server : AnyServer) (payload : Bytes) :
    (server.respond payload).next.name = server.name := by
  cases server <;> rfl

theorem stage_edit (server : AnyServer) (change : Credentials → Credentials) :
    (ServerMechanism.next server (.edit change)).stage = server.stage := by
  cases server <;> rfl

theorem name_edit (server : AnyServer) (change : Credentials → Credentials) :
    (ServerMechanism.next server (.edit change)).name = server.name := by
  cases server <;> rfl

/-- The stage of a server that has just been made. -/
def stageAtFirst (name : String) : Stage :=
  if name = "DIGEST-MD5" then .opening else if name = "ANONYMOUS" then .listening else .silent

theorem stage_of_lookup {name : String} {credentials : Credentials} {nonces : NonceSource}
    {server : AnyServer} (h : (lookup name credentials nonces).1 = some server) :
    server.stage = stageAtFirst name := by
  rw [fst_lookup] at h
  unfold ofName? at h
  split at h <;> cases h <;> rfl

/-! ### Hidden characters -/

theorem answer_withHidden (server : AnyServer) (hidden : Char → Bool) (payload : Bytes) :
    ((server.withHidden hidden).respond payload).answer = (server.respond payload).answer := by
  cases server with
  | plain server => rfl
  | digestMd5 server => rfl
  | anonymous server =>
    obtain ⟨credentials, ended, usual⟩ := server
    cases ended <;> rfl

theorem next_withHidden (server : AnyServer) (hidden : Char → Bool) (payload : Bytes) :
    ((server.withHidden hidden).respond payload).next =
      (server.respond payload).next.withHidden hidden := by
  cases server with
  | plain server => rfl
  | digestMd5 server => rfl
  | anonymous server =>
    obtain ⟨credentials, ended, usual⟩ := server
    cases ended <;> rfl

theorem edit_withHidden (server : AnyServer) (hidden : Char → Bool)
    (change : Credentials → Credentials) :
    ServerMechanism.next (server.withHidden hidden) (.edit change) =
      (ServerMechanism.next server (.edit change)).withHidden hidden := by
  cases server <;> rfl

/-- A server that has just been made hides the control characters. -/
theorem withHidden_of_lookup {name : String} {credentials : Credentials} {nonces : NonceSource}
    {server : AnyServer} (h : (lookup name credentials nonces).1 = some server) :
    server.withHidden Quoted.isControl = server := by
  rw [fst_lookup] at h
  unfold ofName? at h
  split at h <;> cases h <;> rfl

/-! ### Lines -/

/-- What a server remarks on a payload. -/
def remarks (hidden : Char → Bool) (name : String) (stage : Stage) (payload : Bytes) :
    List Log.Line :=
  if stage = .listening then
    if name = "DIGEST-MD5" then
      let reading := DigestMd5.AttributeList.read payload
      reading.log ++ DigestMd5.Server.qopLog reading.attributes
    else Anonymous.traceLog hidden payload
  else []

theorem log_step (server : AnyServer) (hidden : Char → Bool) (payload : Bytes) :
    ((server.withHidden hidden).step payload).log =
      remarks hidden server.name server.stage payload := by
  cases server with
  | plain server => exact server.log_respond payload
  | digestMd5 server => exact server.log_respond payload
  | anonymous server =>
    obtain ⟨credentials, ended, usual⟩ := server
    cases ended <;> rfl

theorem outcomeLog_shape (name : String) (answer : Except ServerError ServerReply) :
    outcomeLog name (answer.map ServerReply.shape) = outcomeLog name answer := by
  cases answer with
  | error cause => rfl
  | ok reply =>
    cases reply <;> simp [outcomeLog, Except.map, summary, ServerReply.shape]

theorem log_respond (server : AnyServer) (hidden : Char → Bool) (payload : Bytes) :
    ((server.withHidden hidden).respond payload).log =
      remarks hidden server.name server.stage payload ++
        [outcomeLog server.name ((server.respond payload).answer.map ServerReply.shape)] := by
  have hname : (server.withHidden hidden).name = server.name := by
    cases server <;> rfl
  rw [outcomeLog_shape, ← log_step, ← answer_withHidden server hidden, ← hname]
  rfl

theorem logs_eq_tell (server : AnyServer) (hidden : Char → Bool) (events : List ServerEvent) :
    (server.withHidden hidden).logs events =
      tell (remarks hidden server.name) Stage.after (outcomeLog server.name) server.stage
        (ServerEvent.payloads events) (server.shapes events) := by
  induction events generalizing server with
  | nil => rfl
  | cons event events ih =>
    cases event with
    | payload bytes =>
      have hrest := ih (server.respond bytes).next
      rw [name_next, stage_next, ← next_withHidden] at hrest
      exact congrArg₂ List.cons (server.log_respond hidden bytes) hrest
    | edit change =>
      have hrest := ih (ServerMechanism.next server (.edit change))
      rw [name_edit, stage_edit, ← edit_withHidden] at hrest
      exact hrest

/-- Two servers of one name that are sent the same payloads and hide the same characters log the
same as long as their answers have the same shapes. -/
theorem take_logs_eq {a b : AnyServer} (hname : a.name = b.name) (hstage : a.stage = b.stage)
    {as bs : List ServerEvent} (hpayloads : ServerEvent.payloads as = ServerEvent.payloads bs)
    {k : Nat} (hshapes : (a.shapes as).take k = (b.shapes bs).take k) (hidden : Char → Bool) :
    ((a.withHidden hidden).logs as).take k = ((b.withHidden hidden).logs bs).take k := by
  rw [logs_eq_tell, logs_eq_tell, take_tell, take_tell, hname, hstage, hpayloads, hshapes]

/-- A server that is past its remarks logs its outcomes only. -/
theorem logs_eq_map {server : AnyServer} (hstage : server.stage = .silent)
    (hidden : Char → Bool) (events : List ServerEvent) :
    (server.withHidden hidden).logs events =
      (server.shapes events).map fun shape => [outcomeLog server.name shape] := by
  induction events generalizing server with
  | nil => rfl
  | cons event events ih =>
    cases event with
    | payload bytes =>
      have hlog : ((server.withHidden hidden).respond bytes).log =
          [outcomeLog server.name ((server.respond bytes).answer.map ServerReply.shape)] := by
        rw [log_respond, hstage]
        rfl
      have hnext : (server.respond bytes).next.stage = .silent := by
        rw [stage_next, hstage]
        rfl
      have hrest := ih hnext
      rw [name_next, ← next_withHidden] at hrest
      exact congrArg₂ List.cons hlog hrest
    | edit change =>
      have hnext : (ServerMechanism.next server (.edit change)).stage = .silent := by
        rwa [stage_edit]
      have hrest := ih hnext
      rw [name_edit, ← edit_withHidden] at hrest
      exact hrest

theorem log_of_lookup (name : String) (credentials : Credentials) (nonces : NonceSource) :
    (lookup name credentials nonces).2 =
      if name ∈ names then [] else [Log.debug ("No server mechanism called " ++ name)] := by
  have hiff : (lookup name credentials nonces).1.isSome ↔ name ∈ names := isSome_lookup_iff
  unfold lookup at hiff ⊢
  cases hfound : ofName? name credentials nonces with
  | none =>
    rw [hfound] at hiff
    rw [if_neg fun hmem => nomatch hiff.2 hmem]
  | some server =>
    rw [hfound] at hiff
    rw [if_pos (hiff.1 rfl)]

end AnyServer

/-! ## Top theorem -/

/-- Of two mechanisms that are looked up under one name and sent the same messages, each logs what
the other does as long as the shapes of their answers agree, whatever their credentials are and
become, and whichever characters are hidden in a log. Most mechanisms log a line for the shape of
each answer and nothing else, whatever the messages are. -/
theorem secrets_stay_out_of_logs (name : String) (ca cb : Credentials) (na nb : NonceSource) :
    ((AnyClient.lookup name ca na).2 = (AnyClient.lookup name cb nb).2 ∧
      ∀ a b, (AnyClient.lookup name ca na).1 = some a → (AnyClient.lookup name cb nb).1 = some b →
        ∀ challenges k, (a.shapes challenges).take k = (b.shapes challenges).take k →
          (a.logs challenges).take k = (b.logs challenges).take k) ∧
    ((AnyServer.lookup name ca na).2 = (AnyServer.lookup name cb nb).2 ∧
      ∀ a b, (AnyServer.lookup name ca na).1 = some a → (AnyServer.lookup name cb nb).1 = some b →
        ∀ as bs, ServerEvent.payloads as = ServerEvent.payloads bs →
          ∀ k, (a.shapes as).take k = (b.shapes bs).take k →
            (a.logs as).take k = (b.logs bs).take k ∧
              ∀ hidden, ((a.withHidden hidden).logs as).take k =
                ((b.withHidden hidden).logs bs).take k) ∧
    (name ≠ "DIGEST-MD5" → ∀ client, (AnyClient.lookup name ca na).1 = some client →
      ∀ challenges, client.logs challenges =
        (client.shapes challenges).map fun shape => [AnyClient.outcomeLog name shape]) ∧
    (name = "PLAIN" → ∀ server, (AnyServer.lookup name ca na).1 = some server →
      ∀ events, server.logs events =
        (server.shapes events).map fun shape => [AnyServer.outcomeLog name shape]) := by
  refine ⟨⟨?_, ?_⟩, ⟨?_, ?_⟩, ?_, ?_⟩
  · rw [AnyClient.log_of_lookup, AnyClient.log_of_lookup]
  · intro a b ha hb challenges k hshapes
    have hname : a.name = b.name :=
      (AnyClient.name_of_lookup ha).trans (AnyClient.name_of_lookup hb).symm
    have hleft : a.left = b.left :=
      (AnyClient.left_of_lookup ha).trans (AnyClient.left_of_lookup hb).symm
    exact AnyClient.take_logs_eq hname hleft hshapes
  · rw [AnyServer.log_of_lookup, AnyServer.log_of_lookup]
  · intro a b ha hb as bs hpayloads k hshapes
    have hname : a.name = b.name :=
      (AnyServer.name_of_lookup ha).trans (AnyServer.name_of_lookup hb).symm
    have hstage : a.stage = b.stage :=
      (AnyServer.stage_of_lookup ha).trans (AnyServer.stage_of_lookup hb).symm
    have hlogs := AnyServer.take_logs_eq hname hstage hpayloads hshapes
    refine ⟨?_, hlogs⟩
    have husual := hlogs Quoted.isControl
    rwa [AnyServer.withHidden_of_lookup ha, AnyServer.withHidden_of_lookup hb] at husual
  · intro hne client hlookup challenges
    have hname := AnyClient.name_of_lookup hlookup
    have hlogs := AnyClient.logs_eq_map (hname ▸ hne) challenges
    rwa [hname] at hlogs
  · rintro rfl server hlookup events
    have hstage := AnyServer.stage_of_lookup hlookup
    have hlogs := AnyServer.logs_eq_map hstage Quoted.isControl events
    rwa [AnyServer.withHidden_of_lookup hlookup, AnyServer.name_of_lookup hlookup] at hlogs

/-- Two clients with passwords of one length. A server that is given a password between two
payloads, and one that knows a digest, where the second payload doesn't close its last value. Two
servers that a visitor leaves a trace with. -/
theorem secrets_stay_out_of_logs_unclosed :
    let nonces : NonceSource := .ok "fyko"
    let unclosed := Utf8.encode "qop=auth,username=tim,nonce=\"fyko"
    let as : List ServerEvent :=
      [.payload [], .edit (·.withPassword "tanstaaf"), .payload unclosed]
    let bs : List ServerEvent := [.payload [], .payload unclosed]
    let trace : List ServerEvent := [.payload (Utf8.encode "tim")]
    (∃ a b, (AnyClient.lookup "PLAIN" { password := "tanstaaf" } nonces).1 = some a ∧
      (AnyClient.lookup "PLAIN" { password := "fyko fyk" } nonces).1 = some b ∧
      (a.shapes [[], []]).take 2 = (b.shapes [[], []]).take 2 ∧
      (a.logs [[], []]).take 2 = (b.logs [[], []]).take 2 ∧
      a.logs [[], unclosed] =
        (a.shapes [[], unclosed]).map fun shape => [AnyClient.outcomeLog "PLAIN" shape]) ∧
    (∃ a b, (AnyServer.lookup "DIGEST-MD5" {} nonces).1 = some a ∧
      (AnyServer.lookup "DIGEST-MD5" { passwordDigest := [1, 2, 3] } nonces).1 = some b ∧
      ServerEvent.payloads as = ServerEvent.payloads bs ∧
      (a.shapes as).take 2 = (b.shapes bs).take 2 ∧
      (a.logs as).take 2 = (b.logs bs).take 2) ∧
    (∃ a b, (AnyServer.lookup "ANONYMOUS" { password := "tanstaaf" } nonces).1 = some a ∧
      (AnyServer.lookup "ANONYMOUS" {} nonces).1 = some b ∧
      (a.shapes trace).take 1 = (b.shapes trace).take 1 ∧
      ∀ hidden, ((a.withHidden hidden).logs trace).take 1 =
        ((b.withHidden hidden).logs trace).take 1) ∧
    ∃ server, (AnyServer.lookup "PLAIN" { password := "tanstaaf" } nonces).1 = some server ∧
      server.logs as =
        (server.shapes as).map fun shape => [AnyServer.outcomeLog "PLAIN" shape] := by
  intro nonces unclosed as bs trace
  obtain ⟨⟨-, htwo⟩, -, hclient, hserver⟩ := secrets_stay_out_of_logs "PLAIN"
    { password := "tanstaaf" } { password := "fyko fyk" } nonces nonces
  obtain ⟨-, ⟨-, hdigest⟩, -, -⟩ := secrets_stay_out_of_logs "DIGEST-MD5" {}
    { passwordDigest := [1, 2, 3] } nonces nonces
  obtain ⟨-, ⟨-, hvisited⟩, -, -⟩ := secrets_stay_out_of_logs "ANONYMOUS"
    { password := "tanstaaf" } {} nonces nonces
  have hclients :
      ((AnyClient.plain (.ofCredentials { password := "tanstaaf" })).shapes [[], []]).take 2 =
        ((AnyClient.plain (.ofCredentials { password := "fyko fyk" })).shapes [[], []]).take 2 := by
    decide +kernel
  have hservers : ((AnyServer.digestMd5 (.ofCredentials {} nonces)).shapes as).take 2 =
      ((AnyServer.digestMd5 (.ofCredentials { passwordDigest := [1, 2, 3] } nonces)).shapes
        bs).take 2 := by
    decide +kernel
  refine ⟨⟨_, _, rfl, rfl, hclients, htwo _ _ rfl rfl _ 2 hclients, ?_⟩,
    ⟨_, _, rfl, rfl, rfl, hservers, (hdigest _ _ rfl rfl as bs rfl 2 hservers).1⟩,
    ⟨_, _, rfl, rfl, rfl, (hvisited _ _ rfl rfl trace trace rfl 1 rfl).2⟩, _, rfl, ?_⟩
  · exact hclient (by decide) _ rfl _
  · exact hserver rfl _ rfl as

end SaslExchange
