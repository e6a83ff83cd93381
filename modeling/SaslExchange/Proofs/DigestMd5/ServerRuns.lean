import SaslExchange.Proofs.DigestMd5.ServerSteps
import SaslExchange.Proofs.Runs
import Mathlib.Data.List.Induction

/-!
# Runs of the DIGEST-MD5 server

However payloads and edits of the credentials follow each other, the server reports success
only right after a proof, and it takes nothing else for a proof than the digest that belongs to
the nonce that it issued and to the credentials of that moment.

    the state tells what the run was                          (reached_after)
    success comes only right after a proof was taken          (no_success_without_proof)
-/

namespace SaslExchange.DigestMd5.Server

open ServerMechanism

/-! ## Histories -/

/-- The first step issued the nonce, and every later one asked for input. -/
def Awaits (nonce : Bytes) (steps : List (ServerStep Server)) : Prop :=
  ∃ first rest challenge, steps = first :: rest ∧
    first.answer = .ok (.challenge challenge) ∧
    (AttributeList.parse challenge).find? "nonce" = some nonce ∧
    ∀ step ∈ rest, step.answer = .ok .inputNeeded

/-- The last payload among the events authenticated the client, and was answered with the
server's proof. -/
def Proved (fresh : Server) (events : List ServerEvent) : Prop :=
  ∃ earlier payload edits nonce secret context,
    events = earlier ++ .payload payload :: edits ∧ (∀ event ∈ edits, event.IsEdit) ∧
    Awaits nonce (run fresh earlier) ∧
    Authenticates (after fresh earlier).credentials nonce (AttributeList.parse payload) secret
      context ∧
    (respond (after fresh earlier) payload).answer = .ok (.challenge (rspauth secret context))

/-- What a state tells of the events that led to it. -/
inductive Reached (fresh : Server) (events : List ServerEvent) : State → Prop
  | start (hrun : run fresh events = []) : Reached fresh events .start
  | awaiting (nonce : Bytes) (hrun : Awaits nonce (run fresh events)) :
      Reached fresh events (.awaitingResponse nonce)
  | sentProof (hproved : Proved fresh events) : Reached fresh events .sentProof
  | ended (step : ServerStep Server) (hstep : step ∈ run fresh events)
      (hchallenge : ∀ data, step.answer ≠ .ok (.challenge data))
      (hinput : step.answer ≠ .ok .inputNeeded) : Reached fresh events .ended

/-! ## Lemmas -/

/-- The nonce of a challenge is read back. -/
theorem find?_nonce_challenge (realm : String) (nonce : Bytes) :
    (AttributeList.parse (AttributeList.serialize (challenge realm nonce))).find? "nonce" =
      some nonce := by
  rw [parse_challenge, challenge, Attributes.find?_ofEntries]
  by_cases hrealm : realm.isEmpty = true
  · simp [hrealm, entry, lastValue?_cons]
  · simp [hrealm, entry, lastValue?_cons]

theorem Awaits.ne_nil {nonce : Bytes} {steps : List (ServerStep Server)}
    (h : Awaits nonce steps) : steps ≠ [] := by
  obtain ⟨first, rest, challenge, rfl, -⟩ := h
  exact List.cons_ne_nil first rest

/-- Every step after the first one asked for input. -/
theorem Awaits.answer_of_append_cons {nonce : Bytes} {before after : List (ServerStep Server)}
    {step : ServerStep Server} (h : Awaits nonce (before ++ step :: after))
    (hbefore : before ≠ []) : step.answer = .ok .inputNeeded := by
  obtain ⟨first, rest, challenge, heq, -, -, hrest⟩ := h
  cases before with
  | nil => exact absurd rfl hbefore
  | cons other before =>
    obtain ⟨-, rfl⟩ := List.cons.inj heq
    exact hrest step (by simp)

/-- Each step of a waiting server sent a challenge or asked for input. -/
theorem Awaits.answer_of_mem {nonce : Bytes} {steps : List (ServerStep Server)}
    (h : Awaits nonce steps) {step : ServerStep Server} (hstep : step ∈ steps) :
    (∃ data, step.answer = .ok (.challenge data)) ∨ step.answer = .ok .inputNeeded := by
  obtain ⟨first, rest, challenge, rfl, hfirst, -, hrest⟩ := h
  rcases List.mem_cons.1 hstep with rfl | hstep
  · exact .inl ⟨challenge, hfirst⟩
  · exact .inr (hrest step hstep)

theorem Awaits.append_inputNeeded {nonce : Bytes} {steps : List (ServerStep Server)}
    (h : Awaits nonce steps) {step : ServerStep Server} (hstep : step.answer = .ok .inputNeeded) :
    Awaits nonce (steps ++ [step]) := by
  obtain ⟨first, rest, challenge, rfl, hfirst, hnonce, hrest⟩ := h
  refine ⟨first, rest ++ [step], challenge, rfl, hfirst, hnonce, ?_⟩
  intro other hother
  rcases List.mem_append.1 hother with hother | hother
  · exact hrest other hother
  · obtain rfl := List.mem_singleton.1 hother
    exact hstep

/-- The nonce that a server waits for is the only one that it issued. -/
theorem Awaits.unique {nonce other : Bytes} {steps : List (ServerStep Server)}
    (h : Awaits nonce steps) (hother : Awaits other steps) : nonce = other := by
  obtain ⟨first, rest, challenge, rfl, hfirst, hnonce, -⟩ := h
  obtain ⟨_, _, otherChallenge, heq, hfirst', hnonce', -⟩ := hother
  obtain ⟨rfl, rfl⟩ := List.cons.inj heq
  rw [hfirst] at hfirst'
  obtain rfl : challenge = otherChallenge := by simpa using hfirst'
  rw [hnonce] at hnonce'
  exact Option.some.inj hnonce'

/-- Once a proof was sent, the server waits no more. -/
theorem Proved.not_awaits {fresh : Server} {events : List ServerEvent} (h : Proved fresh events)
    (nonce : Bytes) : ¬Awaits nonce (run fresh events) := by
  obtain ⟨earlier, payload, edits, issued, secret, context, rfl, -, hawaits, -, hanswer⟩ := h
  intro h
  rw [run_append] at h
  have hinput : ((after fresh earlier).respond payload).answer = .ok .inputNeeded :=
    h.answer_of_append_cons hawaits.ne_nil
  rw [hanswer] at hinput
  simp at hinput

/-! ## Steps -/

theorem Reached.edit {fresh : Server} {events : List ServerEvent} {state : State}
    (h : Reached fresh events state) (change : Credentials → Credentials) :
    Reached fresh (events ++ [.edit change]) state := by
  have hrun := run_append_edit fresh events change
  cases h with
  | start h => exact .start (hrun.trans h)
  | awaiting nonce h => exact .awaiting nonce (hrun ▸ h)
  | sentProof h =>
    obtain ⟨earlier, payload, edits, nonce, secret, context, rfl, hedits, hproof⟩ := h
    refine .sentProof ⟨earlier, payload, edits ++ [.edit change], nonce, secret, context, by simp,
      ?_, hproof⟩
    intro event hevent
    rcases List.mem_append.1 hevent with hevent | hevent
    · exact hedits event hevent
    · obtain rfl := List.mem_singleton.1 hevent
      trivial
  | ended step hstep hchallenge hinput => exact .ended step (hrun ▸ hstep) hchallenge hinput

theorem Reached.payload {fresh : Server} {events : List ServerEvent}
    (h : Reached fresh events (after fresh events).state) (payload : Bytes) :
    Reached fresh (events ++ [.payload payload])
      (respond (after fresh events) payload).next.state := by
  have hrun : run fresh (events ++ [.payload payload]) =
      run fresh events ++ [(after fresh events).respond payload] :=
    run_append_payload fresh events payload
  have houtcome := outcome_respond (after fresh events) payload
  have hstep : respond (after fresh events) payload ∈ run fresh (events ++ [.payload payload]) := by
    simp [hrun]
  generalize hanswer : (respond (after fresh events) payload).answer = answer at houtcome
  generalize (respond (after fresh events) payload).next.state = state at houtcome ⊢
  cases houtcome with
  | issues text hstate =>
    rw [hstate] at h
    cases h with
    | start hnil =>
      refine .awaiting _ ⟨_, [], _, ?_, hanswer, find?_nonce_challenge _ _, by simp⟩
      rw [hrun, hnil, List.nil_append]
  | asks nonce hstate =>
    rw [hstate] at h
    cases h with
    | awaiting _ hawaits =>
      refine .awaiting nonce ?_
      rw [hrun]
      exact hawaits.append_inputNeeded hanswer
  | proves nonce secret context hstate hclient =>
    rw [hstate] at h
    cases h with
    | awaiting _ hawaits =>
      exact .sentProof ⟨events, payload, [], nonce, secret, context, rfl, by simp, hawaits,
        hclient, hanswer⟩
  | succeeds hstate => exact .ended _ hstep (by simp [hanswer]) (by simp [hanswer])
  | fails cause => exact .ended _ hstep (by simp [hanswer]) (by simp [hanswer])

/-- The state after a run tells what the run was. -/
theorem reached_after (credentials : Credentials) (nonces : NonceSource)
    (events : List ServerEvent) :
    Reached (ofCredentials credentials nonces) events
      (after (ofCredentials credentials nonces) events).state := by
  induction events using List.reverseRecOn with
  | nil => exact .start rfl
  | append_singleton events event ih =>
    rw [after_append_singleton]
    cases event with
    | payload payload => exact ih.payload payload
    | edit change => exact ih.edit change

/-- A server that waits by its history waits by its state. -/
theorem state_of_awaits {credentials : Credentials} {nonces : NonceSource}
    {events : List ServerEvent} {nonce : Bytes}
    (h : Awaits nonce (run (ofCredentials credentials nonces) events)) :
    (after (ofCredentials credentials nonces) events).state = .awaitingResponse nonce := by
  have hreached := reached_after credentials nonces events
  generalize (after (ofCredentials credentials nonces) events).state = state at hreached ⊢
  cases hreached with
  | start hrun => exact absurd hrun h.ne_nil
  | awaiting other hawaits => rw [h.unique hawaits]
  | sentProof hproved => exact absurd h (hproved.not_awaits nonce)
  | ended step hstep hchallenge hinput =>
    rcases h.answer_of_mem hstep with ⟨data, hdata⟩ | hneeded
    · exact absurd hdata (hchallenge data)
    · exact absurd hneeded hinput

/-! ## Top theorems -/

/-- Success comes only right after a proof was taken. While a server waits, it takes an answer
for a proof exactly when the answer authenticates the client under the nonce that was issued
and the credentials of that moment, and it then sends its own proof of 32 hexadecimal digits. -/
theorem no_success_without_proof (credentials : Credentials) (nonces : NonceSource)
    (events : List ServerEvent) (payload : Bytes) :
    let fresh := ofCredentials credentials nonces
    let server := after fresh events
    (∀ data, (respond server payload).answer = .ok (.success data) → Proved fresh events) ∧
      (∀ nonce, Awaits nonce (run fresh events) → ∀ data,
        (respond server payload).answer = .ok (.challenge data) ↔
          ∃ secret context,
            Authenticates server.credentials nonce (AttributeList.parse payload) secret context ∧
              data = rspauth secret context) ∧
      ∀ secret context, (serverProof secret context).length = 32 ∧
        ∀ b ∈ serverProof secret context, b ∈ proofDigits := by
  intro fresh server
  refine ⟨?_, ?_, ?_⟩
  · intro data hanswer
    have hreached : Reached fresh events server.state := reached_after credentials nonces events
    have houtcome := outcome_respond server payload
    rw [hanswer] at houtcome
    generalize (respond server payload).next.state = state at houtcome
    cases houtcome with
    | succeeds hstate =>
      rw [hstate] at hreached
      cases hreached with
      | sentProof hproved => exact hproved
  · intro nonce hawaits data
    exact answer_eq_challenge_iff (state_of_awaits hawaits)
  · intro secret context
    exact ⟨length_serverProof secret context, fun b => mem_proofDigits_of_mem_serverProof⟩

/-- An answer of `qxmpp1` with the password `qxmpp123`. -/
def knownAnswer : Bytes :=
  Utf8.encode ("charset=utf-8,cnonce=\"AMzVG8Oibf+sVUCPPlWLR8lZQvbbJtJB9vJd+u3c6dw=\"," ++
    "digest-uri=\"xmpp/jabber.ru\",nc=00000001,nonce=2530347127,qop=auth," ++
    "response=a61fbf4320577d74038b71a8546bc7ae,username=qxmpp1")

theorem no_success_without_proof_known :
    let fresh := ofCredentials { password := "qxmpp123" } (.ok "2530347127")
    let server := after fresh [.payload []]
    Proved fresh [.payload [], .payload knownAnswer] ∧
      ∃ secret context,
        Authenticates server.credentials (Utf8.encode "2530347127")
          (AttributeList.parse knownAnswer) secret context ∧
        Utf8.encode "rspauth=d92bf7f4331700c24799cbab364a14b7" = rspauth secret context := by
  intro fresh server
  have hawaits : Awaits (Utf8.encode "2530347127") (run fresh [.payload []]) :=
    ⟨_, [], _, rfl, rfl, find?_nonce_challenge _ _, by simp⟩
  constructor
  · exact (no_success_without_proof { password := "qxmpp123" } (.ok "2530347127")
      [.payload [], .payload knownAnswer] []).1 [] (by decide +kernel)
  · exact ((no_success_without_proof { password := "qxmpp123" } (.ok "2530347127")
      [.payload []] knownAnswer).2.1 _ hawaits _).1 (by decide +kernel)

end SaslExchange.DigestMd5.Server
