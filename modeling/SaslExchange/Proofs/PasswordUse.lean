import SaslExchange.Proofs.DigestMd5.ClientSteps
import SaslExchange.Proofs.DigestMd5.ServerSteps
import SaslExchange.Proofs.Scram.HonestServer

/-!
# What the password is used for

Two clients that differ in the password can't be told apart by one who leaves their proofs aside.
They fail at the same messages for the same causes, and what they send is as long and differs in the
proof alone. Only what they make of the server's proof may differ, since that one proves a password.

    final messages with proofs of one length have one length         (length_finalMessage)
    an answer with another password has another `response`                 (answer_eq_map)
    two clients that differ in the password                       (password_in_proof_only)
-/

namespace SaslExchange

/-! ## Answers that are alike -/

/-- Both fail for one cause, or both go on with payloads that are alike and of one length. -/
inductive SameUpTo (alike : Bytes → Bytes → Prop) :
    Except ClientError ClientReply → Except ClientError ClientReply → Prop
  | fails (cause : ClientError) : SameUpTo alike (.error cause) (.error cause)
  | proceeds {a b : Bytes} (hlength : a.length = b.length) (halike : alike a b) :
      SameUpTo alike (.ok (.proceed a)) (.ok (.proceed b))

/-- Nothing tells the answers apart unless one of two clients misses the proof of its password. -/
inductive SameUnless (mismatch : ClientError) :
    Except ClientError ClientReply → Except ClientError ClientReply → Prop
  | same (answer : Except ClientError ClientReply) : SameUnless mismatch answer answer
  | completes : SameUnless mismatch (.ok (.complete [])) (.error mismatch)
  | misses : SameUnless mismatch (.error mismatch) (.ok (.complete []))

/-- The answers of two clients to three challenges: the same, then alike, and then the same up to
what each makes of the server's proof. -/
def Discreet {State : Type} [ClientMechanism State] (alike : Bytes → Bytes → Prop)
    (mismatch : ClientError) (a b : State) (c₀ c₁ c₂ : Bytes) : Prop :=
  ∃ first secondA secondB thirdA thirdB,
    (ClientMechanism.run a [c₀, c₁, c₂]).map Step.answer = [first, secondA, thirdA] ∧
      (ClientMechanism.run b [c₀, c₁, c₂]).map Step.answer = [first, secondB, thirdB] ∧
      SameUpTo alike secondA secondB ∧ SameUnless mismatch thirdA thirdB

/-- What two clients do at each step makes up what they do in three. -/
theorem discreet_of_steps {State : Type} [ClientMechanism State]
    {alike : Bytes → Bytes → Prop} {mismatch : ClientError}
    {Waiting Checking : State → State → Prop} {a b : State} {c₀ c₁ c₂ : Bytes}
    (hfirst : (ClientMechanism.respond a c₀).answer = (ClientMechanism.respond b c₀).answer ∧
      Waiting (ClientMechanism.respond a c₀).next (ClientMechanism.respond b c₀).next)
    (hsecond : ∀ a b : State, Waiting a b →
      SameUpTo alike (ClientMechanism.respond a c₁).answer (ClientMechanism.respond b c₁).answer ∧
        Checking (ClientMechanism.respond a c₁).next (ClientMechanism.respond b c₁).next)
    (hthird : ∀ a b : State, Checking a b →
      SameUnless mismatch (ClientMechanism.respond a c₂).answer
        (ClientMechanism.respond b c₂).answer) :
    Discreet alike mismatch a b c₀ c₁ c₂ := by
  obtain ⟨hanswer, hwaiting⟩ := hfirst
  obtain ⟨halike, hchecking⟩ := hsecond _ _ hwaiting
  refine ⟨_, _, _, _, _, rfl, ?_, halike, hthird _ _ hchecking⟩
  rw [hanswer]
  rfl

/-- Two clients that check one message for different proofs. -/
theorem SameUnless.of_ite (mismatch : ClientError) (p q : Prop) [Decidable p] [Decidable q] :
    SameUnless mismatch (if p then .ok (.complete []) else .error mismatch)
      (if q then .ok (.complete []) else .error mismatch) := by
  by_cases hp : p
  · by_cases hq : q
    · rw [if_pos hp, if_pos hq]
      exact .same _
    · rw [if_pos hp, if_neg hq]
      exact .completes
  · by_cases hq : q
    · rw [if_neg hp, if_pos hq]
      exact .misses
    · rw [if_neg hp, if_neg hq]
      exact .same _

/-! ## SCRAM -/

namespace Scram

/-- The same up to and including `,p=`, which starts the last piece of either. -/
def SameBeforeProof (a b : Bytes) : Prop :=
  ∃ before p q, a = before ++ Utf8.encode ",p=" ++ p ∧ b = before ++ Utf8.encode ",p=" ++ q ∧
    Ascii.comma ∉ p ∧ Ascii.comma ∉ q

theorem utf8Size_digit (n : Nat) : (Base64.digit n).utf8Size = 1 := by
  obtain ⟨m, hm, hdigit⟩ := Base64.exists_digit_eq n
  rw [hdigit]
  exact (by decide +kernel : ∀ m < 64, (Base64.digit m).utf8Size = 1) m hm

/-- Four ASCII characters stand for three bytes or for what is left of them. -/
theorem length_encode_base64 (bytes : Bytes) :
    (Utf8.encode (Base64.encode bytes)).length = 4 * ((bytes.length + 2) / 3) := by
  have hpad : '='.utf8Size = 1 := by decide
  rw [Base64.encode, Utf8.encode_ofList]
  fun_induction Base64.encodeChars bytes with
  | case1 => rfl
  | case2 a => simp [utf8Size_digit, hpad]
  | case3 a b => simp [utf8Size_digit, hpad]
  | case4 a b c rest ih =>
    simp only [List.flatMap_cons, List.length_append, String.length_utf8EncodeChar, utf8Size_digit,
      ih, List.length_cons]
    omega

theorem length_finalMessage (serverNonce : String) (proof : Bytes) :
    (finalMessage serverNonce proof).length =
      (clientFinalBare serverNonce).length + 3 + 4 * ((proof.length + 2) / 3) := by
  have hseparator : (Utf8.encode ",p=").length = 3 := by decide
  rw [← clientFinalBare_append, List.length_append, List.length_append, length_encode_base64,
    hseparator]

/-- Final messages differ in the proof alone. -/
theorem sameBeforeProof_finalMessage (serverNonce : String) (a b : Bytes) :
    SameBeforeProof (finalMessage serverNonce a) (finalMessage serverNonce b) := by
  have hcomma (bytes : Bytes) : Ascii.comma ∉ Utf8.encode (Base64.encode bytes) := by
    rw [Utf8.comma_mem_encode_iff]
    exact comma_notMem_base64 bytes
  exact ⟨clientFinalBare serverNonce, Utf8.encode (Base64.encode a), Utf8.encode (Base64.encode b),
    (clientFinalBare_append serverNonce a).symm, (clientFinalBare_append serverNonce b).symm,
    hcomma a, hcomma b⟩

namespace Client

variable {h : Hash}

/-- Two clients refuse the server's message for one cause, or prove alike. -/
theorem meet_alike (a b : Client h) (bare : Bytes) (nonce : String) (challenge : Bytes) :
    (∃ cause, a.meet bare nonce challenge = .error cause ∧
        b.meet bare nonce challenge = .error cause) ∨
      ∃ serverNonce proof proof' signature signature', proof.length = proof'.length ∧
        a.meet bare nonce challenge =
          .ok (.proceed (finalMessage serverNonce proof), .sentFinal signature) ∧
        b.meet bare nonce challenge =
          .ok (.proceed (finalMessage serverNonce proof'), .sentFinal signature') := by
  unfold meet
  cases Frame.parse challenge with
  | error defect => exact .inl ⟨_, rfl, rfl⟩
  | ok frame =>
    dsimp only
    cases ServerFirst.ofFrame nonce frame with
    | error cause => exact .inl ⟨cause, rfl, rfl⟩
    | ok first =>
      right
      refine ⟨first.nonce, _, _, _, _, ?_, prove_eq .., prove_eq ..⟩
      rw [length_clientProof, length_clientProof]

theorem answer_of_sentFinal {client : Client h} {signature : Bytes} (challenge : Bytes)
    (hstate : client.state = .sentFinal signature) :
    (client.respond challenge).answer = (conclude signature challenge).map Prod.fst := by
  unfold respond advance
  rw [hstate]
  dsimp only
  cases conclude signature challenge <;> rfl

/-- The server's last message is checked for the signature last. -/
theorem sameUnless_conclude (a b challenge : Bytes) :
    SameUnless .invalidSignatureInSuccessResponse ((conclude a challenge).map Prod.fst)
      ((conclude b challenge).map Prod.fst) := by
  unfold conclude
  cases Frame.parse challenge with
  | error defect => exact .same _
  | ok frame =>
    dsimp only
    cases frame['e']? with
    | some text => exact .same _
    | none =>
      cases frame['v']?.bind Base64.decode? with
      | none => exact .same _
      | some signature =>
        simp only [apply_ite (Except.map Prod.fst)]
        exact .of_ite _ (signature = a) (signature = b)

/-- Both have sent one first message, or both are over. -/
def Waiting (a b : Client h) : Prop :=
  a.state = b.state ∧ (a.state = .ended ∨ ∃ bare nonce, a.state = .sentFirst bare nonce)

/-- Both have sent a proof, or both are over. -/
def Checking (a b : Client h) : Prop :=
  (a.state = .ended ∧ b.state = .ended) ∨
    ∃ signature signature', a.state = .sentFinal signature ∧ b.state = .sentFinal signature'

theorem respond_of_ended {client : Client h} (hstate : client.state = .ended)
    (challenge : Bytes) :
    client.respond challenge = .fail .invalidState { client with state := .ended } := by
  refine respond_of_advance_error ?_
  unfold advance
  rw [hstate]

/-- Two clients that differ in the password begin alike. -/
theorem begin_alike {a b : Client h} (ha : a.state = .start) (hb : b.state = .start)
    (husername : a.username = b.username) (hnonces : a.nonces = b.nonces) (challenge : Bytes) :
    (a.respond challenge).answer = (b.respond challenge).answer ∧
      Waiting (a.respond challenge).next (b.respond challenge).next := by
  unfold respond advance begin
  rw [ha, hb, husername, hnonces]
  dsimp only
  cases b.nonces with
  | error cause => exact ⟨rfl, rfl, .inl rfl⟩
  | ok nonce => exact ⟨rfl, rfl, .inr ⟨_, _, rfl⟩⟩

theorem prove_alike {a b : Client h} (hwaiting : Waiting a b) (challenge : Bytes) :
    SameUpTo SameBeforeProof (a.respond challenge).answer (b.respond challenge).answer ∧
      Checking (a.respond challenge).next (b.respond challenge).next := by
  obtain ⟨hstate, ha | ⟨bare, nonce, ha⟩⟩ := hwaiting
  · have hb : b.state = .ended := hstate.symm.trans ha
    rw [respond_of_ended ha, respond_of_ended hb]
    exact ⟨.fails _, .inl ⟨rfl, rfl⟩⟩
  · have hadvance : a.advance challenge = a.meet bare nonce challenge := by
      unfold advance
      rw [ha]
    have hadvance' : b.advance challenge = b.meet bare nonce challenge := by
      unfold advance
      rw [← hstate, ha]
    rcases meet_alike a b bare nonce challenge with
      ⟨cause, hmeet, hmeet'⟩ | ⟨serverNonce, proof, proof', _, _, hlength, hmeet, hmeet'⟩
    · rw [respond_of_advance_error (hadvance.trans hmeet),
        respond_of_advance_error (hadvance'.trans hmeet')]
      exact ⟨.fails cause, .inl ⟨rfl, rfl⟩⟩
    · rw [respond_of_advance (hadvance.trans hmeet), respond_of_advance (hadvance'.trans hmeet')]
      refine ⟨.proceeds ?_ (sameBeforeProof_finalMessage serverNonce proof proof'),
        .inr ⟨_, _, rfl, rfl⟩⟩
      rw [length_finalMessage, length_finalMessage, hlength]

theorem conclude_alike {a b : Client h} (hchecking : Checking a b) (challenge : Bytes) :
    SameUnless .invalidSignatureInSuccessResponse (a.respond challenge).answer
      (b.respond challenge).answer := by
  rcases hchecking with ⟨ha, hb⟩ | ⟨signature, signature', ha, hb⟩
  · rw [respond_of_ended ha, respond_of_ended hb]
    exact .same _
  · rw [answer_of_sentFinal challenge ha, answer_of_sentFinal challenge hb]
    exact sameUnless_conclude signature signature' challenge

theorem discreet {a b : Client h} (ha : a.state = .start) (hb : b.state = .start)
    (husername : a.username = b.username) (hnonces : a.nonces = b.nonces) (c₀ c₁ c₂ : Bytes) :
    Discreet SameBeforeProof .invalidSignatureInSuccessResponse a b c₀ c₁ c₂ := by
  have hsecond (a b : Client h) (hwaiting : Waiting a b) := prove_alike hwaiting c₁
  have hthird (a b : Client h) (hchecking : Checking a b) := conclude_alike hchecking c₂
  exact discreet_of_steps (begin_alike ha hb husername hnonces c₀) hsecond hthird

end Client

end Scram

/-! ## DIGEST-MD5 -/

namespace DigestMd5

/-- Read as attributes, both messages have the same ones apart from the proof. -/
def SameButProof (a b : Bytes) : Prop :=
  ∀ key ≠ Utf8.encode "response", (AttributeList.parse a)[key]? = (AttributeList.parse b)[key]?

/-- Proofs are digits, which are written as they are, and as many as of any other proof. -/
theorem length_writeEntry (name : Bytes) (method secret method' secret' : Bytes)
    (context context' : Context) :
    (AttributeList.writeEntry (name, proof method secret context)).length =
      (AttributeList.writeEntry (name, proof method' secret' context')).length := by
  unfold AttributeList.writeEntry
  simp only [writeValue_proof, List.length_append, List.length_cons, length_proof]

namespace Client

/-- The value of a key once the proof is another one. -/
def withResponse (response : Bytes) (key value : Bytes) : Bytes :=
  if key = Utf8.encode "response" then response else value

/-- Two clients that differ in the password only. -/
structure Twins (a b : Client) : Prop where
  username : a.username = b.username
  serviceType : a.serviceType = b.serviceType
  host : a.host = b.host
  nonces : a.nonces = b.nonces

theorem context_eq {a b : Client} (h : Twins a b) (challenge : Challenge) (cnonce : String) :
    a.context challenge cnonce = b.context challenge cnonce := by
  unfold context digestUri
  rw [h.serviceType, h.host]

theorem answer_eq_map {a b : Client} (h : Twins a b) (challenge : Challenge) (cnonce : String) :
    b.answer challenge cnonce =
      (a.answer challenge cnonce).map
        (withResponse (clientProof (b.secret challenge) (b.context challenge cnonce))) := by
  unfold answer
  rw [← Attributes.ofEntries_map, context_eq h, h.username]
  by_cases hrealm : challenge.realm.isEmpty = true
  · simp [hrealm, entry, withResponse]
  · simp [hrealm, entry, withResponse]

theorem sameButProof_answer {a b : Client} (h : Twins a b) (challenge : Challenge)
    (cnonce : String) :
    SameButProof (AttributeList.serialize (a.answer challenge cnonce))
      (AttributeList.serialize (b.answer challenge cnonce)) := by
  intro key hkey
  rw [parse_answer, parse_answer, answer_eq_map h, Std.ExtTreeMap.getElem?_map]
  cases (a.answer challenge cnonce)[key]? with
  | none => rfl
  | some value => simp [withResponse, hkey]

/-- An entry is as long with another proof in it. -/
theorem length_writeEntry_withResponse {a : Client} {challenge : Challenge} {cnonce : String}
    (secret : Bytes) (context : Context) {entry : Entry}
    (h : entry ∈ (a.answer challenge cnonce).toList) :
    (AttributeList.writeEntry
        (entry.1, withResponse (clientProof secret context) entry.1 entry.2)).length =
      (AttributeList.writeEntry entry).length := by
  obtain ⟨key, value⟩ := entry
  rw [Std.ExtTreeMap.mem_toList_iff_getElem?_eq_some] at h
  dsimp only
  by_cases hkey : key = Utf8.encode "response"
  · -- the value is a proof too, so neither is put between quotes
    obtain ⟨-, -, -, -, -, -, hresponse⟩ := a.find?_answer challenge cnonce
    have hvalue : value = clientProof (a.secret challenge) (a.context challenge cnonce) := by
      rw [hkey] at h
      exact Option.some.inj (h.symm.trans hresponse)
    rw [withResponse, if_pos hkey, hvalue]
    exact length_writeEntry ..
  · rw [withResponse, if_neg hkey]

theorem length_serialize_answer {a b : Client} (h : Twins a b) (challenge : Challenge)
    (cnonce : String) :
    (AttributeList.serialize (a.answer challenge cnonce)).length =
      (AttributeList.serialize (b.answer challenge cnonce)).length := by
  unfold AttributeList.serialize
  rw [answer_eq_map h, Std.ExtTreeMap.toList_map, Bytes.length_joinWith, Bytes.length_joinWith]
  simp only [List.length_flatten, List.map_map, List.length_map]
  congr 2
  refine List.map_congr_left fun entry hentry => ?_
  exact (length_writeEntry_withResponse _ _ hentry).symm

/-! ### Steps -/

/-- Both wait for a challenge. -/
structure Waiting (a b : Client) : Prop extends Twins a b where
  left : a.state = .awaitingChallenge
  right : b.state = .awaitingChallenge

/-- Both have sent a proof, or both are over. -/
def Checking (a b : Client) : Prop :=
  (a.state = .ended ∧ b.state = .ended) ∨
    ∃ secret secret' context context', a.state = .awaitingProof secret context ∧
      b.state = .awaitingProof secret' context'

theorem begin_alike {a b : Client} (ha : a.state = .start) (hb : b.state = .start)
    (h : Twins a b) (challenge : Bytes) :
    (a.respond challenge).answer = (b.respond challenge).answer ∧
      Waiting (a.respond challenge).next (b.respond challenge).next := by
  rw [respond_of_start ha, respond_of_start hb]
  exact ⟨rfl, ⟨h.username, h.serviceType, h.host, h.nonces⟩, rfl, rfl⟩

/-- Two clients refuse the server's challenge for one cause, or meet it. -/
theorem meet_alike {a b : Client} (h : Twins a b) (attributes : Attributes) :
    (∃ cause, a.meet attributes = .error cause ∧ b.meet attributes = .error cause) ∨
      ∃ challenge cnonce,
        a.meet attributes = .ok (AttributeList.serialize (a.answer challenge cnonce),
          .awaitingProof (a.secret challenge) (a.context challenge cnonce)) ∧
        b.meet attributes = .ok (AttributeList.serialize (b.answer challenge cnonce),
          .awaitingProof (b.secret challenge) (b.context challenge cnonce)) := by
  unfold meet
  rw [h.nonces]
  cases Challenge.ofAttributes attributes with
  | error cause => exact .inl ⟨cause, rfl, rfl⟩
  | ok challenge =>
    cases b.nonces with
    | error cause => exact .inl ⟨.crypto cause, rfl, rfl⟩
    | ok cnonce => exact .inr ⟨challenge, cnonce, rfl, rfl⟩

theorem prove_alike {a b : Client} (hwaiting : Waiting a b) (challenge : Bytes) :
    SameUpTo SameButProof (a.respond challenge).answer (b.respond challenge).answer ∧
      Checking (a.respond challenge).next (b.respond challenge).next := by
  have htwins := hwaiting.toTwins
  rcases meet_alike htwins (AttributeList.parse challenge) with
    ⟨cause, hmeet, hmeet'⟩ | ⟨offered, cnonce, hmeet, hmeet'⟩
  · rw [respond_of_meet_error hwaiting.left hmeet, respond_of_meet_error hwaiting.right hmeet']
    exact ⟨.fails cause, .inl ⟨rfl, rfl⟩⟩
  · rw [respond_of_meet hwaiting.left hmeet, respond_of_meet hwaiting.right hmeet']
    exact ⟨.proceeds (length_serialize_answer htwins offered cnonce)
      (sameButProof_answer htwins offered cnonce), .inr ⟨_, _, _, _, rfl, rfl⟩⟩

/-- The server's last message is checked for the proof last. -/
theorem answer_of_rspauth_eq {client : Client} {challenge secret rspauth : Bytes}
    {context : Context} (hstate : client.state = .awaitingProof secret context)
    (hrspauth : (AttributeList.parse challenge).find? "rspauth" = some rspauth) :
    (client.respond challenge).answer =
      if rspauth = serverProof secret context then .ok (.complete [])
      else .error .invalidRspauth := by
  rw [answer_of_awaitingProof hstate]
  unfold objection
  rw [hrspauth]
  dsimp only
  by_cases hproof : rspauth = serverProof secret context
  · rw [if_pos hproof, if_pos hproof]
  · rw [if_neg hproof, if_neg hproof]

theorem conclude_alike {a b : Client} (hchecking : Checking a b) (challenge : Bytes) :
    SameUnless .invalidRspauth (a.respond challenge).answer (b.respond challenge).answer := by
  rcases hchecking with ⟨ha, hb⟩ | ⟨secret, secret', context, context', ha, hb⟩
  · have hover {client : Client} (hstate : client.state = .ended) :
        (client.respond challenge).answer = .error .invalidState := by
      unfold respond
      rw [hstate]
      rfl
    rw [hover ha, hover hb]
    exact .same _
  · cases hrspauth : (AttributeList.parse challenge).find? "rspauth" with
    | none =>
      rw [answer_of_awaitingProof ha, answer_of_awaitingProof hb,
        (objection_eq_noRspauth_iff secret context).2 hrspauth,
        (objection_eq_noRspauth_iff secret' context').2 hrspauth]
      exact .same _
    | some rspauth =>
      rw [answer_of_rspauth_eq ha hrspauth, answer_of_rspauth_eq hb hrspauth]
      exact .of_ite _ _ _

theorem discreet {a b : Client} (ha : a.state = .start) (hb : b.state = .start)
    (h : Twins a b) (c₀ c₁ c₂ : Bytes) :
    Discreet SameButProof .invalidRspauth a b c₀ c₁ c₂ := by
  have hsecond (a b : Client) (hwaiting : Waiting a b) := prove_alike hwaiting c₁
  have hthird (a b : Client) (hchecking : Checking a b) := conclude_alike hchecking c₂
  exact discreet_of_steps (begin_alike ha hb h c₀) hsecond hthird

end Client

end DigestMd5

/-! ## Top theorem -/

/-- Whatever two passwords are, no one who leaves the proofs aside can tell from a client's answers
which of them it has. It sends the same first message, and refuses the second challenge for the same
cause or answers it in a message of one length that differs in the proof alone. Its last answer is
the same, unless the server's proof is right for one of the passwords only. -/
theorem password_in_proof_only (credentials : Credentials) (password other : String)
    (nonces : NonceSource) (c₀ c₁ c₂ : Bytes) :
    (∀ h : Scram.Hash,
      Discreet Scram.SameBeforeProof .invalidSignatureInSuccessResponse
        (.ofCredentials (credentials.withPassword password) nonces : Scram.Client h)
        (.ofCredentials (credentials.withPassword other) nonces : Scram.Client h) c₀ c₁ c₂) ∧
      Discreet DigestMd5.SameButProof .invalidRspauth
        (DigestMd5.Client.ofCredentials (credentials.withPassword password) nonces)
        (DigestMd5.Client.ofCredentials (credentials.withPassword other) nonces) c₀ c₁ c₂ := by
  constructor
  · intro h
    refine Scram.Client.discreet ?_ ?_ ?_ ?_ c₀ c₁ c₂
    all_goals rfl
  · refine DigestMd5.Client.discreet ?_ ?_ ⟨?_, ?_, ?_, ?_⟩ c₀ c₁ c₂
    all_goals rfl

end SaslExchange
