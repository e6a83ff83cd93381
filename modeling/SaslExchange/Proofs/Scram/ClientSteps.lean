import SaslExchange.Proofs.Runs
import SaslExchange.Proofs.Scram.ServerFirst

/-!
# Steps of the SCRAM client

What the client sends, what it signs, and when each of its three steps succeeds.

    the first step succeeds ↔ there is a nonce                        (advance_start_eq_ok_iff)
    the second one ↔ the challenge offers a salt and a count      (advance_sentFirst_eq_ok_iff)
    the third one ↔ the challenge carries the expected signature  (advance_sentFinal_eq_ok_iff)
    only a client that is over says so                                         (advance_avoids)
-/

namespace SaslExchange.Scram

/-! ## Messages and keys -/

/-- The client's first message. -/
def firstMessage (username nonce : String) : Bytes :=
  Utf8.encode ("n,,n=" ++ Saslname.escape username ++ ",r=" ++ nonce)

/-- The client's final message. -/
def finalMessage (serverNonce : String) (proof : Bytes) : Bytes :=
  Utf8.encode ("c=biws,r=" ++ serverNonce ++ ",p=" ++ Base64.encode proof)

/-- What both sides sign: the first message without its header, the server's message, and the
final message without its proof. -/
def transcript (username nonce : String) (serverFirst : Bytes) (serverNonce : String) : Bytes :=
  Utf8.encode ("n=" ++ Saslname.escape username ++ ",r=" ++ nonce ++ ",") ++ serverFirst ++
    Utf8.encode (",c=biws,r=" ++ serverNonce)

/-- The password, salted and stretched to the length of a digest. -/
def saltedPassword (h : Hash) (password : String) (salt : Bytes) (iterations : Nat) : Bytes :=
  deriveKey h.algorithm (Utf8.encode password) salt iterations h.algorithm.outputLength

def clientKey (h : Hash) (password : String) (salt : Bytes) (iterations : Nat) : Bytes :=
  hmac h.algorithm (saltedPassword h password salt iterations) (Utf8.encode "Client Key")

def serverKey (h : Hash) (password : String) (salt : Bytes) (iterations : Nat) : Bytes :=
  hmac h.algorithm (saltedPassword h password salt iterations) (Utf8.encode "Server Key")

/-- The client key, combined with the signature under the stored key. -/
def clientProof (h : Hash) (password : String) (salt : Bytes) (iterations : Nat)
    (signed : Bytes) : Bytes :=
  let key := clientKey h password salt iterations
  List.zipWith (· ^^^ ·) key (hmac h.algorithm (Digest.hash h.algorithm key) signed)

/-- The message carries this signature and no error. -/
def Carries (message signature : Bytes) : Prop :=
  ∃ pieces, Pieces message pieces ∧ ¬HasKey 'e' pieces ∧
    LastValue 'v' (Base64.encode signature) pieces

/-! ## Lemmas -/

theorem clientFirstBare_eq (username nonce : String) :
    clientFirstBare username nonce =
      Utf8.encode ("n=" ++ Saslname.escape username ++ ",r=" ++ nonce) := by
  have htext : ("n=" ++ Saslname.escape username ++ ",r=" ++ nonce).toList =
      [','].intercalate ([('n', Saslname.escape username), ('r', nonce)].map Frame.piece) := by
    simp [Frame.piece]
  exact Frame.serialize_encode htext

theorem encode_gs2Header : Base64.encode gs2Header = "biws" := by decide +kernel

theorem clientFinalBare_eq (nonce : String) :
    clientFinalBare nonce = Utf8.encode ("c=biws,r=" ++ nonce) := by
  unfold clientFinalBare
  rw [encode_gs2Header]
  have htext : ("c=biws,r=" ++ nonce).toList =
      [','].intercalate ([('c', "biws"), ('r', nonce)].map Frame.piece) := by
    simp [Frame.piece]
  exact Frame.serialize_encode htext

theorem gs2Header_append (username nonce : String) :
    gs2Header ++ clientFirstBare username nonce = firstMessage username nonce := by
  rw [gs2Header, clientFirstBare_eq, ← Utf8.encode_append]
  refine congrArg Utf8.encode (String.toList_inj.1 ?_)
  simp

theorem clientFinalBare_append (nonce : String) (proof : Bytes) :
    clientFinalBare nonce ++ Utf8.encode ",p=" ++ Utf8.encode (Base64.encode proof) =
      finalMessage nonce proof := by
  rw [clientFinalBare_eq, ← Utf8.encode_append, ← Utf8.encode_append, finalMessage]

theorem authMessage_eq (username nonce : String) (serverFirst : Bytes) (serverNonce : String) :
    authMessage (clientFirstBare username nonce) serverFirst (clientFinalBare serverNonce) =
      transcript username nonce serverFirst serverNonce := by
  have hlast : ",c=biws,r=" = "," ++ "c=biws,r=" := by decide
  rw [clientFirstBare_eq, clientFinalBare_eq, transcript, hlast]
  simp only [authMessage, Bytes.joinWith, List.intercalate_cons_cons, List.intercalate_singleton,
    Utf8.encode_append, Utf8.encode_comma, List.append_assoc]

theorem proof?_derive (h : Hash) (password : String) (salt : Bytes) (iterations : Nat)
    (signed : Bytes) :
    (Keys.derive h password salt iterations).proof? h signed =
      some (clientProof h password salt iterations signed) :=
  Bytes.xor?_of_length (by simp [Keys.derive])

theorem length_clientProof (h : Hash) (password : String) (salt : Bytes) (iterations : Nat)
    (signed : Bytes) :
    (clientProof h password salt iterations signed).length = h.algorithm.outputLength := by
  simp [clientProof, clientKey]

theorem carries_iff {message signature : Bytes} :
    Carries message signature ↔
      ∃ frame, Frame.parse message = .ok frame ∧ frame['e']? = none ∧
        frame['v']?.bind Base64.decode? = some signature := by
  simp only [Frame.parse_eq_ok_iff, Option.bind_eq_some_iff, Base64.decode?_eq_some_iff]
  constructor
  · rintro ⟨pieces, hpieces, he, hv⟩
    rw [← Frame.getElem?_ofPieces_eq_none_iff] at he
    rw [← Frame.getElem?_ofPieces_eq_some_iff] at hv
    exact ⟨Frame.ofPieces pieces, ⟨pieces, hpieces, rfl⟩, he, _, hv, rfl⟩
  · rintro ⟨_, ⟨pieces, hpieces, rfl⟩, he, _, hv, rfl⟩
    rw [Frame.getElem?_ofPieces_eq_none_iff] at he
    rw [Frame.getElem?_ofPieces_eq_some_iff] at hv
    exact ⟨pieces, hpieces, he, hv⟩

namespace Client

variable {h : Hash}

theorem respond_of_advance {client : Client h} {challenge : Bytes} {reply : ClientReply}
    {state : State} (hadvance : client.advance challenge = .ok (reply, state)) :
    client.respond challenge = .reply reply { client with state } := by
  unfold respond
  rw [hadvance]

theorem respond_of_advance_error {client : Client h} {challenge : Bytes} {cause : ClientError}
    (hadvance : client.advance challenge = .error cause) :
    client.respond challenge = .fail cause { client with state := .ended } := by
  unfold respond
  rw [hadvance]

theorem answer_eq_ok_iff {client : Client h} {challenge : Bytes} {reply : ClientReply} :
    (client.respond challenge).answer = .ok reply ↔
      ∃ state, client.advance challenge = .ok (reply, state) := by
  unfold respond
  cases client.advance challenge with
  | error cause => simp [Step.fail]
  | ok result => simp [Step.reply, Prod.ext_iff]

/-- A run starts with a reply when the first step does, and goes on from the state after it. -/
theorem answers_cons_eq_iff {client : Client h} {challenge : Bytes} {challenges : List Bytes}
    {reply : ClientReply} {rest : List (Except ClientError ClientReply)} :
    (ClientMechanism.run client (challenge :: challenges)).map Step.answer = .ok reply :: rest ↔
      ∃ state, client.advance challenge = .ok (reply, state) ∧
        (ClientMechanism.run ({ client with state } : Client h) challenges).map Step.answer =
          rest := by
  constructor
  · intro hrun
    obtain ⟨state, hadvance⟩ := answer_eq_ok_iff.1 (List.cons.inj hrun).1
    rw [ClientMechanism.map_answer_run_cons (respond_of_advance hadvance)] at hrun
    exact ⟨state, hadvance, (List.cons.inj hrun).2⟩
  · rintro ⟨state, hadvance, hrest⟩
    rw [ClientMechanism.map_answer_run_cons (respond_of_advance hadvance), hrest]

/-- The first step asks for a nonce and sends it with the username. -/
theorem advance_start_eq_ok_iff {client : Client h} {challenge : Bytes} {reply : ClientReply}
    {state : State} (hstate : client.state = .start) :
    client.advance challenge = .ok (reply, state) ↔
      ∃ nonce, client.nonces = .ok nonce ∧
        reply = .proceed (firstMessage client.username nonce) ∧
        state = .sentFirst (clientFirstBare client.username nonce) nonce := by
  unfold advance begin
  rw [hstate]
  dsimp only
  cases client.nonces with
  | error cause => simp
  | ok nonce => simp [gs2Header_append, eq_comm]

theorem prove_eq (client : Client h) (bare challenge : Bytes) (first : ServerFirst) :
    client.prove bare challenge first =
      let signed := authMessage bare challenge (clientFinalBare first.nonce)
      .ok (.proceed (finalMessage first.nonce
          (clientProof h client.password first.salt first.iterations signed)),
        .sentFinal (hmac h.algorithm
          (serverKey h client.password first.salt first.iterations) signed)) := by
  unfold prove
  dsimp only
  rw [proof?_derive, ← clientFinalBare_append]
  rfl

/-- The second step takes what the challenge offers and proves that the password is known. -/
theorem advance_sentFirst_eq_ok_iff {client : Client h} {bare : Bytes} {nonce : String}
    {challenge : Bytes} {reply : ClientReply} {state : State}
    (hstate : client.state = .sentFirst bare nonce) :
    client.advance challenge = .ok (reply, state) ↔
      ∃ first, Offers nonce challenge first ∧
        client.prove bare challenge first = .ok (reply, state) := by
  unfold advance meet
  rw [hstate]
  dsimp only
  simp only [offers_iff]
  cases Frame.parse challenge with
  | error defect => simp
  | ok frame =>
    cases hfirst : ServerFirst.ofFrame nonce frame with
    | error cause => simp [hfirst]
    | ok first => simp [hfirst]

/-- The third step checks the server's signature. -/
theorem advance_sentFinal_eq_ok_iff {client : Client h} {signature challenge : Bytes}
    {reply : ClientReply} {state : State} (hstate : client.state = .sentFinal signature) :
    client.advance challenge = .ok (reply, state) ↔
      Carries challenge signature ∧ reply = .complete [] ∧ state = .ended := by
  rw [carries_iff]
  unfold advance conclude
  rw [hstate]
  dsimp only
  cases Frame.parse challenge with
  | error defect => simp
  | ok frame =>
    simp only [Except.ok.injEq, exists_eq_left']
    cases frame['e']? with
    | some text => simp
    | none =>
      cases frame['v']?.bind Base64.decode? with
      | none => simp
      | some found =>
        by_cases hfound : found = signature
        · simp [hfound, eq_comm]
        · simp [hfound]

theorem begin_avoids (client : Client h) : Avoids (· = .invalidState) client.begin := by
  unfold begin
  cases client.nonces with
  | error cause => exact nofun
  | ok nonce => exact nofun

theorem meet_avoids (client : Client h) (bare : Bytes) (nonce : String) (challenge : Bytes) :
    Avoids ClientError.IsOwn (client.meet bare nonce challenge) := by
  unfold meet
  cases Frame.parse challenge with
  | error defect => exact nofun
  | ok frame =>
    dsimp only
    cases hfirst : ServerFirst.ofFrame nonce frame with
    | error cause => exact .throw (ServerFirst.ofFrame_avoids nonce frame cause hfirst)
    | ok first =>
      dsimp only
      rw [prove_eq]
      exact nofun

theorem conclude_avoids (serverSignature challenge : Bytes) :
    Avoids ClientError.IsOwn (conclude serverSignature challenge) := by
  unfold conclude
  cases Frame.parse challenge with
  | error defect => exact nofun
  | ok frame =>
    dsimp only
    cases frame['e']? with
    | some text => exact nofun
    | none =>
      cases frame['v']?.bind Base64.decode? with
      | none => exact nofun
      | some signature =>
        dsimp only
        by_cases hsignature : signature = serverSignature
        · rw [if_pos hsignature]
          exact nofun
        · rw [if_neg hsignature]
          exact nofun

/-- Only a client whose exchange is over says so. -/
theorem advance_avoids {client : Client h} (hstate : client.state ≠ .ended) (challenge : Bytes) :
    Avoids (· = .invalidState) (client.advance challenge) := by
  have hown (cause : ClientError) : cause = .invalidState → cause.IsOwn := (· ▸ .invalidState)
  unfold advance
  cases hcase : client.state with
  | start => exact client.begin_avoids
  | sentFirst bare nonce => exact (client.meet_avoids bare nonce challenge).weaken hown
  | sentFinal serverSignature => exact (conclude_avoids serverSignature challenge).weaken hown
  | ended => exact absurd hcase hstate

end Client

end SaslExchange.Scram
