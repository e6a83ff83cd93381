import SaslExchange.Proofs.Scram.ClientSteps

/-!
# A server that knows the keys

The other side of the exchange, seen from a server that stores neither the password nor the
client key: it rebuilds the transcript from the three messages that it saw, checks the proof
against the stored key, and signs with the server key.

    the proof verifies under the stored key, and the signature completes the client
                                                                    (completes_with_verifier)
-/

namespace SaslExchange.Scram

/-! ## Server -/

/-- What a server stores of a user. -/
structure Verifier where
  salt : Bytes
  iterations : Nat
  storedKey : Bytes
  serverKey : Bytes

namespace Verifier

/-- What is stored when a user with the given password signs up. -/
def ofPassword (h : Hash) (password : String) (salt : Bytes) (iterations : Nat) : Verifier where
  salt := salt
  iterations := iterations
  storedKey := Digest.hash h.algorithm (clientKey h password salt iterations)
  serverKey := Scram.serverKey h password salt iterations

/-- The answer to the client's nonce, which the server continues. -/
def challenge (verifier : Verifier) (clientNonce suffix : String) : Bytes :=
  Utf8.encode ("r=" ++ clientNonce ++ suffix ++ ",s=" ++ Base64.encode verifier.salt ++
    ",i=" ++ toString verifier.iterations)

/-- The client's first message without its header, which has two commas. -/
def withoutHeader? (clientFirst : Bytes) : Option Bytes := do
  let (_, rest) ← Bytes.cut? Ascii.comma clientFirst
  let (_, bare) ← Bytes.cut? Ascii.comma rest
  return bare

/-- The client's final message up to its last comma, and the proof in the piece after it. -/
def splitProof? (clientFinal : Bytes) : Option (Bytes × Bytes) := do
  let (lastReversed, bareReversed) ← Bytes.cut? Ascii.comma clientFinal.reverse
  let text ← Utf8.decode? lastReversed.reverse
  let 'p' :: '=' :: digits := text.toList | none
  let proof ← Base64.decode? (String.ofList digits)
  return (bareReversed.reverse, proof)

/-- What both sides sign, rebuilt from the three messages, and the client's proof. -/
def read? (clientFirst serverFirst clientFinal : Bytes) : Option (Bytes × Bytes) := do
  let firstBare ← withoutHeader? clientFirst
  let (finalBare, proof) ← splitProof? clientFinal
  return (firstBare ++ Ascii.comma :: serverFirst ++ Ascii.comma :: finalBare, proof)

/-- Whether a proof uncovers a key whose digest is stored. -/
def Verifies (h : Hash) (verifier : Verifier) (signed proof : Bytes) : Prop :=
  proof.length = h.algorithm.outputLength ∧
    Digest.hash h.algorithm
      (List.zipWith (· ^^^ ·) proof (hmac h.algorithm verifier.storedKey signed)) =
        verifier.storedKey

/-- The message with the server's signature. -/
def conclusion (h : Hash) (verifier : Verifier) (signed : Bytes) : Bytes :=
  Utf8.encode ("v=" ++ Base64.encode (hmac h.algorithm verifier.serverKey signed))

end Verifier

/-! ## Lemmas -/

theorem comma_ne_digit (n : Nat) : ',' ≠ Base64.digit n := by
  obtain ⟨m, hm, hdigit⟩ := Base64.exists_digit_eq n
  rw [hdigit]
  exact (by decide +kernel : ∀ m < 64, ',' ≠ Base64.digit m) m hm

theorem comma_notMem_base64 (bytes : Bytes) : ',' ∉ (Base64.encode bytes).toList := by
  rw [Base64.encode, String.toList_ofList]
  fun_induction Base64.encodeChars bytes with
  | case1 => simp
  | case2 => simp [comma_ne_digit]
  | case3 => simp [comma_ne_digit]
  | case4 a b c rest ih => simp [comma_ne_digit, ih]

theorem toList_toString (n : Nat) : (toString n).toList = Nat.toDigits 10 n := by
  simp [Nat.repr_eq_ofList_toDigits]

theorem isDigit_of_mem_toString {n : Nat} {c : Char} (h : c ∈ (toString n).toList) :
    c.isDigit := by
  rw [toList_toString] at h
  exact Nat.isDigit_of_mem_toDigits (by decide) (by decide) h

theorem comma_notMem_toDigits (n : Nat) : ',' ∉ Nat.toDigits 10 n := by
  intro h
  rw [← toList_toString] at h
  exact absurd (isDigit_of_mem_toString h) (by decide)

theorem countText_toString (n : Nat) : CountText (toString n) n := by
  left
  rw [← decimalValue?_eq_some_iff, decimalValue?, if_pos]
  · rw [toList_toString, ← Nat.ofDigitChars_eq_foldl, Nat.ofDigitChars_ten_toDigits]
  · refine ⟨?_, List.all_eq_true.2 fun c hc => isDigit_of_mem_toString hc⟩
    rw [toList_toString]
    exact Nat.toDigits_ne_nil

/-- The bytewise exclusive or takes a mask away again. -/
theorem zipWith_xor_cancel {a mask : Bytes} (h : a.length = mask.length) :
    List.zipWith (· ^^^ ·) (List.zipWith (· ^^^ ·) a mask) mask = a := by
  induction a generalizing mask with
  | nil => simp
  | cons x a ih =>
    cases mask with
    | nil => simp at h
    | cons y mask =>
      simp only [List.length_cons, Nat.add_right_cancel_iff] at h
      simp only [List.zipWith_cons_cons, ih h, UInt8.xor_assoc, UInt8.xor_self, UInt8.xor_zero]

namespace Verifier

theorem withoutHeader?_firstMessage (username nonce : String) :
    withoutHeader? (firstMessage username nonce) = some (clientFirstBare username nonce) := by
  have hfirst : Bytes.cut? Ascii.comma (firstMessage username nonce) =
      some ([0x6E], Ascii.comma :: clientFirstBare username nonce) := by
    rw [← gs2Header_append]
    exact Bytes.cut?_append _ (by decide : Ascii.comma ∉ [(0x6E : UInt8)])
  have hsecond : Bytes.cut? Ascii.comma (Ascii.comma :: clientFirstBare username nonce) =
      some ([], clientFirstBare username nonce) :=
    Bytes.cut?_append _ (List.not_mem_nil : Ascii.comma ∉ ([] : Bytes))
  unfold withoutHeader?
  simp only [hfirst, hsecond, Option.bind_eq_bind, Option.bind_some]
  rfl

theorem splitProof?_finalMessage (serverNonce : String) (proof : Bytes) :
    splitProof? (finalMessage serverNonce proof) = some (clientFinalBare serverNonce, proof) := by
  have hsplit : finalMessage serverNonce proof =
      clientFinalBare serverNonce ++
        Ascii.comma :: Utf8.encode ("p=" ++ Base64.encode proof) := by
    rw [clientFinalBare_eq, finalMessage, show ",p=" = "," ++ "p=" by decide]
    simp only [Utf8.encode_append, Utf8.encode_comma, List.append_assoc, List.cons_append,
      List.nil_append]
  have hlast : Ascii.comma ∉ (Utf8.encode ("p=" ++ Base64.encode proof)).reverse := by
    rw [List.mem_reverse, Utf8.comma_mem_encode_iff]
    simp [comma_notMem_base64]
  unfold splitProof?
  rw [hsplit, List.reverse_append, List.reverse_cons, List.append_assoc, List.singleton_append,
    Bytes.cut?_append _ hlast]
  simp [Utf8.decode?_encode, Base64.decode?_encode]

theorem read?_eq (username clientNonce : String) (serverFirst : Bytes) (serverNonce : String)
    (proof : Bytes) :
    read? (firstMessage username clientNonce) serverFirst (finalMessage serverNonce proof) =
      some (transcript username clientNonce serverFirst serverNonce, proof) := by
  unfold read?
  rw [withoutHeader?_firstMessage, splitProof?_finalMessage, ← authMessage_eq]
  simp [authMessage, Bytes.joinWith]

theorem offers_challenge {verifier : Verifier} {clientNonce suffix : String}
    (hnonce : ',' ∉ clientNonce.toList) (hsuffix : ',' ∉ suffix.toList)
    (hsalt : verifier.salt ≠ []) (hlow : 1 ≤ verifier.iterations)
    (hhigh : verifier.iterations ≤ 1000000) :
    Offers clientNonce (verifier.challenge clientNonce suffix)
      ⟨clientNonce ++ suffix, verifier.salt, verifier.iterations⟩ := by
  let entries := [('r', clientNonce ++ suffix), ('s', Base64.encode verifier.salt),
    ('i', toString verifier.iterations)]
  refine ⟨entries.map Frame.piece, ?_, ?_, ?_, ?_, ?_, hsalt, toString verifier.iterations, ?_,
    countText_toString _, hlow, hhigh⟩
  · refine Frame.pieces_map_piece (by simp [entries, Frame.piece]) (by simp [entries]) ?_
    simp [entries, hnonce, hsuffix, comma_notMem_base64, comma_notMem_toDigits]
  · rw [Frame.not_hasKey_map_piece_iff]
    simp [entries, lastValue?_cons]
  · rw [Frame.lastValue_map_piece_iff]
    simp [entries, lastValue?_cons]
  · simp
  · rw [Frame.lastValue_map_piece_iff]
    simp [entries, lastValue?_cons]
  · rw [Frame.lastValue_map_piece_iff]
    simp [entries, lastValue?_cons]

theorem carries_conclusion (h : Hash) (verifier : Verifier) (signed : Bytes) :
    Carries (verifier.conclusion h signed) (hmac h.algorithm verifier.serverKey signed) := by
  let entries := [('v', Base64.encode (hmac h.algorithm verifier.serverKey signed))]
  refine ⟨entries.map Frame.piece, ?_, ?_, ?_⟩
  · refine Frame.pieces_map_piece (by simp [entries, Frame.piece]) (by simp [entries]) ?_
    simp [entries, comma_notMem_base64]
  · rw [Frame.not_hasKey_map_piece_iff]
    simp [entries, lastValue?_cons]
  · rw [Frame.lastValue_map_piece_iff]
    simp [entries, lastValue?_cons]

theorem verifies_clientProof (h : Hash) (password : String) (salt : Bytes) (iterations : Nat)
    (signed : Bytes) :
    (ofPassword h password salt iterations).Verifies h signed
      (clientProof h password salt iterations signed) := by
  refine ⟨length_clientProof h password salt iterations signed, ?_⟩
  rw [ofPassword, clientProof]
  dsimp only
  rw [zipWith_xor_cancel (by simp [clientKey])]

end Verifier

/-! ## Top theorems -/

/-- A client and a server that stores the keys of the same password come to the end together:
from the messages alone the server rebuilds a transcript under which the client's proof
verifies, and its signature of that transcript completes the client. -/
theorem completes_with_verifier (h : Hash) (username password clientNonce suffix : String)
    (salt : Bytes) (iterations : Nat) (c₀ : Bytes) (hnonce : ',' ∉ clientNonce.toList)
    (hsuffix : ',' ∉ suffix.toList) (hsalt : salt ≠ []) (hlow : 1 ≤ iterations)
    (hhigh : iterations ≤ 1000000) :
    let verifier := Verifier.ofPassword h password salt iterations
    let challenge := verifier.challenge clientNonce suffix
    ∃ signed proof,
      Verifier.read? (firstMessage username clientNonce) challenge
          (finalMessage (clientNonce ++ suffix) proof) = some (signed, proof) ∧
        verifier.Verifies h signed proof ∧
        (ClientMechanism.run
            ({ username, password, nonces := .ok clientNonce } : Client h)
            [c₀, challenge, verifier.conclusion h signed]).map Step.answer =
          [.ok (.proceed (firstMessage username clientNonce)),
            .ok (.proceed (finalMessage (clientNonce ++ suffix) proof)),
            .ok (.complete [])] := by
  intro verifier challenge
  have hoffers : Offers clientNonce challenge ⟨clientNonce ++ suffix, salt, iterations⟩ :=
    Verifier.offers_challenge hnonce hsuffix hsalt hlow hhigh
  let signed := transcript username clientNonce challenge (clientNonce ++ suffix)
  let proof := clientProof h password salt iterations signed
  have hcarries : Carries (verifier.conclusion h signed)
      (hmac h.algorithm (serverKey h password salt iterations) signed) :=
    Verifier.carries_conclusion h verifier signed
  refine ⟨signed, proof, Verifier.read?_eq username clientNonce challenge _ proof,
    Verifier.verifies_clientProof h password salt iterations signed, ?_⟩
  rw [Client.answers_cons_eq_iff]
  refine ⟨_, (Client.advance_start_eq_ok_iff rfl).2 ⟨clientNonce, rfl, rfl, rfl⟩, ?_⟩
  rw [Client.answers_cons_eq_iff]
  refine ⟨.sentFinal (hmac h.algorithm (serverKey h password salt iterations) signed),
    (Client.advance_sentFirst_eq_ok_iff rfl).2 ⟨_, hoffers, ?_⟩, ?_⟩
  · rw [Client.prove_eq, authMessage_eq]
  rw [Client.answers_cons_eq_iff]
  exact ⟨_, (Client.advance_sentFinal_eq_ok_iff rfl).2 ⟨hcarries, rfl, rfl⟩, rfl⟩

/-- The separators of the username are escaped, so they do not end its piece. -/
theorem completes_with_verifier_separators :
    let verifier := Verifier.ofPassword .sha256 "pencil" [1, 2, 3] 4096
    let challenge := verifier.challenge "fyko" "3rfc"
    ∃ signed proof,
      Verifier.read? (firstMessage "a,b=c" "fyko") challenge (finalMessage "fyko3rfc" proof) =
          some (signed, proof) ∧
        verifier.Verifies .sha256 signed proof ∧
        (ClientMechanism.run
            ({ username := "a,b=c", password := "pencil", nonces := .ok "fyko" } :
              Client .sha256)
            [[], challenge, verifier.conclusion .sha256 signed]).map Step.answer =
          [.ok (.proceed (firstMessage "a,b=c" "fyko")),
            .ok (.proceed (finalMessage "fyko3rfc" proof)), .ok (.complete [])] :=
  completes_with_verifier .sha256 "a,b=c" "pencil" "fyko" "3rfc" [1, 2, 3] 4096 []
    (by decide) (by decide) (by decide) (by decide) (by decide)

end SaslExchange.Scram
