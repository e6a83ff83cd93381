import SaslExchange.Proofs.Scram.HonestServer
import SaslExchange.Proofs.Scram.Saslnames

/-!
# Transcripts that tell their parts

What a client signs is its first message, the server's and its final message with commas between
them. The server's message may hold anything, even what looks like the other two; but two commas
stand before it and two after it, wherever it ends. So the signed bytes can be split in one way
only.

    transcripts are equal ↔ their parts are                            (transcript_inj)
    sessions that sign the same bytes have the same username, nonces and challenge
                                                                       (transcript_unambiguous)
-/

namespace SaslExchange.Scram

/-! ## Splitting a transcript -/

/-- The commas of a transcript that are not the server's. -/
theorem transcript_eq (username nonce : String) (challenge : Bytes) (echoed : String) :
    transcript username nonce challenge echoed =
      Utf8.encode ("n=" ++ Saslname.escape username) ++ Ascii.comma ::
        (Utf8.encode ("r=" ++ nonce) ++ Ascii.comma ::
          ((challenge ++ Ascii.comma :: Utf8.encode "c=biws") ++ Ascii.comma ::
            Utf8.encode ("r=" ++ echoed))) := by
  have hfirst : ",r=" = "," ++ "r=" := by decide
  have hfinal : ",c=biws,r=" = "," ++ "c=biws" ++ "," ++ "r=" := by decide
  rw [transcript, hfinal, hfirst]
  simp only [Utf8.encode_append, Utf8.encode_comma, List.append_assoc, List.cons_append,
    List.nil_append]

theorem transcript_inj {username username' nonce nonce' echoed echoed' : String}
    {challenge challenge' : Bytes} (hnonce : ',' ∉ nonce.toList) (hnonce' : ',' ∉ nonce'.toList)
    (hechoed : ',' ∉ echoed.toList) (hechoed' : ',' ∉ echoed'.toList) :
    transcript username nonce challenge echoed =
        transcript username' nonce' challenge' echoed' ↔
      username = username' ∧ nonce = nonce' ∧ challenge = challenge' ∧ echoed = echoed' := by
  have hname (name : String) : Ascii.comma ∉ Utf8.encode ("n=" ++ Saslname.escape name) := by
    simp [Utf8.comma_mem_encode_iff, Saslname.comma_notMem_escape]
  have hpiece {text : String} (htext : ',' ∉ text.toList) :
      Ascii.comma ∉ Utf8.encode ("r=" ++ text) := by
    simp [Utf8.comma_mem_encode_iff, htext]
  constructor
  · intro h
    rw [transcript_eq, transcript_eq] at h
    -- from the front the username and the nonce
    obtain ⟨husername, h⟩ := Bytes.append_cons_inj (hname _) (hname _) h
    obtain ⟨hclient, h⟩ := Bytes.append_cons_inj (hpiece hnonce) (hpiece hnonce') h
    -- from the back the echoed nonce, and what is left of the final message is always the same
    obtain ⟨h, hserver⟩ := Bytes.append_cons_inj_last (hpiece hechoed) (hpiece hechoed') h
    have hchallenge : challenge = challenge' := List.append_cancel_right h
    rw [Utf8.encode_inj, String.append_right_inj] at husername hclient hserver
    exact ⟨Saslname.escape_injective husername, hclient, hchallenge, hserver⟩
  · rintro ⟨rfl, rfl, rfl, rfl⟩
    rfl

/-! ## Sessions -/

/-- A client's session up to its proof: it opened with a nonce that has no comma, and took the
server's challenge. -/
structure Session where
  hash : Hash
  username : String
  password : String
  nonce : String
  comma_notMem_nonce : ',' ∉ nonce.toList
  /-- What the server sent to open the session, which the client passes over. -/
  opening : Bytes
  challenge : Bytes
  /-- The client's first message. -/
  first : Bytes
  /-- The client's final message. -/
  final : Bytes
  answers_eq :
    (ClientMechanism.run ({ username, password, nonces := .ok nonce } : Client hash)
        [opening, challenge]).map Step.answer = [.ok (.proceed first), .ok (.proceed final)]

/-- The final message of the session echoes this nonce, and signed are the first message without
its header, the challenge and the final message without its proof, with commas between them. -/
def Session.Signs (session : Session) (echoed : String) (signed : Bytes) : Prop :=
  ∃ bare proof, session.first = Utf8.encode "n,," ++ bare ∧
    session.final = clientFinalBare echoed ++ Utf8.encode ",p=" ++
      Utf8.encode (Base64.encode proof) ∧
    signed = bare ++ [Ascii.comma] ++ session.challenge ++ [Ascii.comma] ++ clientFinalBare echoed

/-- The proof, whose digits have no comma, can be told from what stands before it. -/
theorem finalMessage_inj {nonce nonce' : String} {proof proof' : Bytes}
    (h : finalMessage nonce proof = finalMessage nonce' proof') :
    nonce = nonce' ∧ proof = proof' := by
  have hsplit := congrArg Verifier.splitProof? h
  rw [Verifier.splitProof?_finalMessage, Verifier.splitProof?_finalMessage] at hsplit
  obtain ⟨hbare, hproof⟩ := Prod.ext_iff.1 (Option.some.inj hsplit)
  dsimp only at hbare
  rw [clientFinalBare_eq, clientFinalBare_eq, Utf8.encode_inj, String.append_right_inj] at hbare
  exact ⟨hbare, hproof⟩

namespace Session

/-- The client's messages in a session are those that belong to what the challenge offers. -/
theorem exists_offer (session : Session) :
    ∃ offer, Offers session.nonce session.challenge offer ∧
      session.first = firstMessage session.username session.nonce ∧
      session.final = finalMessage offer.nonce
        (clientProof session.hash session.password offer.salt offer.iterations
          (transcript session.username session.nonce session.challenge offer.nonce)) := by
  obtain ⟨s₁, h₁, hrun⟩ := Client.answers_cons_eq_iff.1 session.answers_eq
  obtain ⟨nonce, hnonce, hfirst, rfl⟩ := (Client.advance_start_eq_ok_iff rfl).1 h₁
  obtain rfl : session.nonce = nonce := Except.ok.inj hnonce
  obtain ⟨s₂, h₂, -⟩ := Client.answers_cons_eq_iff.1 hrun
  obtain ⟨offer, hoffer, hprove⟩ := (Client.advance_sentFirst_eq_ok_iff rfl).1 h₂
  rw [Client.prove_eq, authMessage_eq] at hprove
  obtain ⟨hfinal, -⟩ := Prod.ext_iff.1 (Except.ok.inj hprove)
  exact ⟨offer, hoffer, ClientReply.proceed.inj hfirst, (ClientReply.proceed.inj hfinal).symm⟩

/-- What is signed in a session is its transcript. -/
theorem signs_iff (session : Session) {echoed : String} {signed : Bytes} :
    session.Signs echoed signed ↔
      (∃ proof, session.final = finalMessage echoed proof) ∧
        signed = transcript session.username session.nonce session.challenge echoed := by
  obtain ⟨offer, -, hfirst, -⟩ := session.exists_offer
  unfold Signs
  rw [hfirst, ← gs2Header_append]
  simp only [clientFinalBare_append, ← authMessage_eq]
  constructor
  · rintro ⟨bare, proof, hbare, hfinal, rfl⟩
    obtain rfl : clientFirstBare _ _ = bare := List.append_cancel_left hbare
    refine ⟨⟨proof, hfinal⟩, ?_⟩
    simp [authMessage, Bytes.joinWith]
  · rintro ⟨⟨proof, hfinal⟩, rfl⟩
    refine ⟨_, proof, rfl, hfinal, ?_⟩
    simp [authMessage, Bytes.joinWith]

/-- The session in which the challenge makes this offer. -/
def ofOffer (hash : Hash) (username password : String) {nonce : String} (opening : Bytes)
    {challenge : Bytes} {offer : ServerFirst} (hnonce : ',' ∉ nonce.toList)
    (hoffer : Offers nonce challenge offer) : Session where
  hash := hash
  username := username
  password := password
  nonce := nonce
  comma_notMem_nonce := hnonce
  opening := opening
  challenge := challenge
  first := firstMessage username nonce
  final := finalMessage offer.nonce (clientProof hash password offer.salt offer.iterations
    (transcript username nonce challenge offer.nonce))
  answers_eq := by
    rw [Client.answers_cons_eq_iff]
    refine ⟨_, (Client.advance_start_eq_ok_iff rfl).2 ⟨nonce, rfl, rfl, rfl⟩, ?_⟩
    rw [Client.answers_cons_eq_iff, ← authMessage_eq]
    exact ⟨_, (Client.advance_sentFirst_eq_ok_iff rfl).2 ⟨offer, hoffer, Client.prove_eq _ _ _ _⟩,
      rfl⟩

theorem signs_ofOffer (hash : Hash) (username password : String) {nonce : String}
    (opening : Bytes) {challenge : Bytes} {offer : ServerFirst} (hnonce : ',' ∉ nonce.toList)
    (hoffer : Offers nonce challenge offer) :
    (ofOffer hash username password opening hnonce hoffer).Signs offer.nonce
      (transcript username nonce challenge offer.nonce) :=
  (signs_iff _).2 ⟨⟨_, rfl⟩, rfl⟩

end Session

/-! ## Top theorems -/

/-- A session proves that the password is known by signing its transcript, and two sessions that
sign the same bytes have the same username, the same nonce of the client and of the server, and
byte for byte the same challenge. -/
theorem transcript_unambiguous (a b : Session) :
    (∃ echoed signed salt iterations, a.Signs echoed signed ∧
        a.final =
          finalMessage echoed (clientProof a.hash a.password salt iterations signed)) ∧
      ∀ echoed echoed' signed, a.Signs echoed signed → b.Signs echoed' signed →
        a.username = b.username ∧ a.nonce = b.nonce ∧ a.challenge = b.challenge ∧
          echoed = echoed' := by
  obtain ⟨offer, hoffer, -, hfinal⟩ := a.exists_offer
  obtain ⟨offer', hoffer', -, hfinal'⟩ := b.exists_offer
  constructor
  · exact ⟨offer.nonce, _, offer.salt, offer.iterations, a.signs_iff.2 ⟨⟨_, hfinal⟩, rfl⟩, hfinal⟩
  · intro echoed echoed' signed ha hb
    obtain ⟨⟨proof, hproof⟩, hsigned⟩ := a.signs_iff.1 ha
    obtain ⟨⟨proof', hproof'⟩, hsigned'⟩ := b.signs_iff.1 hb
    -- the echoed nonces were read from the challenges, so they have no comma
    obtain ⟨rfl, -⟩ := finalMessage_inj (hproof.symm.trans hfinal)
    obtain ⟨rfl, -⟩ := finalMessage_inj (hproof'.symm.trans hfinal')
    exact (transcript_inj a.comma_notMem_nonce b.comma_notMem_nonce hoffer.comma_notMem
      hoffer'.comma_notMem).1 (hsigned.symm.trans hsigned')

/-- A challenge that holds what looks like the client's final message. -/
def resemblingChallenge : Bytes := Utf8.encode "r=abc,c=biws,r=abcd,s=AQID,i=1"

theorem offers_resemblingChallenge : Offers "abc" resemblingChallenge ⟨"abcd", [1, 2, 3], 1⟩ := by
  rw [offers_iff]
  refine ⟨Frame.ofEntries [('r', "abcd"), ('c', "biws"), ('s', "AQID"), ('i', "1")],
    by decide +kernel, ?_⟩
  rw [ServerFirst.ofFrame_eq_ok_iff]
  exact ⟨by decide +kernel, by decide +kernel, by decide, by decide +kernel, by decide, "1",
    by decide +kernel, by decide +kernel⟩

/-- Two users with different passwords and mechanisms may sign the same bytes, but only if all
that is signed is the same. -/
theorem transcript_unambiguous_resembling :
    ∃ a b : Session, ∃ signed, a.hash ≠ b.hash ∧ a.password ≠ b.password ∧
      a.Signs "abcd" signed ∧ b.Signs "abcd" signed ∧ a.challenge = resemblingChallenge ∧
        a.username = b.username ∧ a.nonce = b.nonce ∧ a.challenge = b.challenge := by
  have hnonce : ',' ∉ "abc".toList := by decide
  let a := Session.ofOffer .sha1 "r=,n" "pencil" [] hnonce offers_resemblingChallenge
  let b := Session.ofOffer .sha256 "r=,n" "pen" [0] hnonce offers_resemblingChallenge
  have ha : a.Signs "abcd" (transcript "r=,n" "abc" resemblingChallenge "abcd") :=
    Session.signs_ofOffer ..
  have hb : b.Signs "abcd" (transcript "r=,n" "abc" resemblingChallenge "abcd") :=
    Session.signs_ofOffer ..
  have hhash : Hash.sha1 ≠ .sha256 := by decide
  have hpassword : "pencil" ≠ "pen" := by decide
  obtain ⟨husername, hnonce, hchallenge, -⟩ := (transcript_unambiguous a b).2 _ _ _ ha hb
  exact ⟨a, b, _, hhash, hpassword, ha, hb, rfl, husername, hnonce, hchallenge⟩

end SaslExchange.Scram
