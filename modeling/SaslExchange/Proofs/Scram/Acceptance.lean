import SaslExchange.Proofs.Scram.ClientSteps

/-!
# What a SCRAM client accepts

A client comes to the end of its exchange exactly when there was a nonce, the server's first
message answered it with a salt and an iteration count, and the server's last message carries
the signature of the whole transcript under the server key.

    three steps succeed ↔ a nonce, an offer, and the signature that belongs to them
                                                                  (completes_iff_signed)
-/

namespace SaslExchange.Scram.Client

/-- An exchange is accepted exactly when the server's last message carries the signature of the
transcript under the key that belongs to the password, salt and iteration count. -/
theorem completes_iff_signed (h : Hash) (username password : String) (nonces : NonceSource)
    (c₀ c₁ c₂ : Bytes) :
    (∃ p₀ p₁ p₂,
      (ClientMechanism.run ({ username, password, nonces } : Client h) [c₀, c₁, c₂]).map
          Step.answer =
        [.ok (.proceed p₀), .ok (.proceed p₁), .ok (.complete p₂)]) ↔
      ∃ nonce first, nonces = .ok nonce ∧ Offers nonce c₁ first ∧
        Carries c₂ (hmac h.algorithm (serverKey h password first.salt first.iterations)
          (transcript username nonce c₁ first.nonce)) := by
  constructor
  · rintro ⟨p₀, p₁, p₂, hrun⟩
    obtain ⟨s₀, h₀, hrun⟩ := answers_cons_eq_iff.1 hrun
    obtain ⟨s₁, h₁, hrun⟩ := answers_cons_eq_iff.1 hrun
    obtain ⟨s₂, h₂, -⟩ := answers_cons_eq_iff.1 hrun
    obtain ⟨nonce, hnonce, -, rfl⟩ := (advance_start_eq_ok_iff rfl).1 h₀
    obtain ⟨first, hoffers, hprove⟩ := (advance_sentFirst_eq_ok_iff rfl).1 h₁
    rw [prove_eq] at hprove
    obtain ⟨-, rfl⟩ := Prod.ext_iff.1 (Except.ok.inj hprove)
    obtain ⟨hcarries, -, -⟩ := (advance_sentFinal_eq_ok_iff rfl).1 h₂
    rw [authMessage_eq] at hcarries
    exact ⟨nonce, first, hnonce, hoffers, hcarries⟩
  · rintro ⟨nonce, first, hnonce, hoffers, hcarries⟩
    rw [← authMessage_eq] at hcarries
    refine ⟨firstMessage username nonce, finalMessage first.nonce (clientProof h password
      first.salt first.iterations (authMessage (clientFirstBare username nonce) c₁
        (clientFinalBare first.nonce))), [], ?_⟩
    rw [answers_cons_eq_iff]
    refine ⟨_, (advance_start_eq_ok_iff rfl).2 ⟨nonce, hnonce, rfl, rfl⟩, ?_⟩
    rw [answers_cons_eq_iff]
    refine ⟨_, (advance_sentFirst_eq_ok_iff rfl).2 ⟨first, hoffers, prove_eq _ _ _ _⟩, ?_⟩
    rw [answers_cons_eq_iff]
    exact ⟨_, (advance_sentFinal_eq_ok_iff rfl).2 ⟨hcarries, rfl, rfl⟩, rfl⟩

end SaslExchange.Scram.Client
