import SaslExchange.Proofs.Runs

/-!
# Scripts

What a party replies over a whole exchange follows a script. It stops anywhere when no more
messages arrive, and it may break off with one error before the last reply. After an error, as
after the last reply, each further message is told that the exchange is over.

    a reply, and then a run that follows the rest of the script        (Follows.reply)
    a client whose steps count down ends when nothing is left        (endsAfter_of_counts)
    a server that is over says so ever after                           (Absorbing.answers)
-/

namespace SaslExchange

/-! ## Scripts -/

section

variable {Failure Reply : Type}

/-- The answers to the messages of an exchange, of which `script` says what the replies may be
from the first to the last, and `refusal` is the error when there is nothing more to say. -/
inductive Follows (script : List Reply → Prop) (refusal : Failure) :
    List (Except Failure Reply) → Prop
  /-- The messages stop before or at the last reply. -/
  | stopped (said : List Reply) {unsaid : List Reply} (hscript : script (said ++ unsaid)) :
      Follows script refusal (said.map .ok)
  /-- More messages arrive after the last reply. -/
  | ended (said : List Reply) (hscript : script said) (n : Nat) :
      Follows script refusal (said.map .ok ++ List.replicate n (.error refusal))
  /-- An error comes before the last reply. -/
  | failed (said : List Reply) {unsaid : List Reply} (hscript : script (said ++ unsaid))
      (hunsaid : unsaid ≠ []) {cause : Failure} (hcause : cause ≠ refusal) (n : Nat) :
      Follows script refusal (said.map .ok ++ .error cause :: List.replicate n (.error refusal))

/-- A script is followed by its first reply and then by what follows the rest of it. -/
theorem Follows.reply {script rest : List Reply → Prop} {refusal : Failure} {reply : Reply}
    {answers : List (Except Failure Reply)} (h : Follows rest refusal answers)
    (hscript : ∀ replies, rest replies → script (reply :: replies)) :
    Follows script refusal (.ok reply :: answers) := by
  cases h with
  | stopped said hrest => exact .stopped (reply :: said) (hscript _ hrest)
  | ended said hrest n => exact .ended (reply :: said) (hscript _ hrest) n
  | failed said hrest hunsaid hcause n =>
    exact .failed (reply :: said) (hscript _ hrest) hunsaid hcause n

end

/-! ## Clients -/

/-- Replies that ask for `n` challenges, and a last one. -/
def CompletesAfter (n : Nat) (replies : List ClientReply) : Prop :=
  ∃ (payloads : List Bytes) (last : Bytes), payloads.length = n ∧
    replies = payloads.map .proceed ++ [.complete last]

/-- Whatever the challenges, the client asks for `n` more of them before it completes, fails at
most once, and says ever after that the exchange is over. -/
def EndsAfter {State : Type} [ClientMechanism State] (n : Nat) (state : State) : Prop :=
  ∀ challenges, Follows (CompletesAfter n) .invalidState
    ((ClientMechanism.run state challenges).map Step.answer)

/-- How an answer counts down the challenges that a client still asks for; nothing is left to
count once the exchange is over. -/
inductive Counts : Option Nat → Except ClientError ClientReply → Option Nat → Prop
  | proceeds (n : Nat) (payload : Bytes) :
      Counts (some (n + 1)) (.ok (.proceed payload)) (some n)
  | completes (payload : Bytes) : Counts (some 0) (.ok (.complete payload)) none
  | fails (n : Nat) {cause : ClientError} (hcause : cause ≠ .invalidState) :
      Counts (some n) (.error cause) none
  | refuses : Counts none (.error .invalidState) none

theorem exists_completesAfter (n : Nat) : ∃ replies, CompletesAfter n replies ∧ replies ≠ [] :=
  ⟨_, ⟨List.replicate n [], [], List.length_replicate, rfl⟩, by simp⟩

theorem CompletesAfter.cons {n : Nat} {replies : List ClientReply} (h : CompletesAfter n replies)
    (payload : Bytes) : CompletesAfter (n + 1) (.proceed payload :: replies) := by
  obtain ⟨payloads, last, rfl, rfl⟩ := h
  exact ⟨payload :: payloads, last, rfl, rfl⟩

namespace ClientMechanism

variable {State : Type} [ClientMechanism State]

section

variable {left : State → Option Nat}
  (hcounts : ∀ state challenge, Counts (left state) (respond state challenge).answer
    (left (respond state challenge).next))

include hcounts

theorem answers_of_none {state : State} (h : left state = none) (challenges : List Bytes) :
    (run state challenges).map Step.answer =
      List.replicate challenges.length (.error .invalidState) := by
  induction challenges generalizing state with
  | nil => rfl
  | cons challenge challenges ih =>
    have hstep := hcounts state challenge
    rw [h] at hstep
    rw [run, List.map_cons, List.length_cons, List.replicate_succ]
    generalize hanswer : (respond state challenge).answer = answer at hstep ⊢
    generalize hleft : left (respond state challenge).next = after at hstep
    cases hstep with
    | refuses => rw [ih hleft]

/-- A client whose steps count down completes when nothing is left to count. -/
theorem endsAfter_of_counts {state : State} {n : Nat} (h : left state = some n) :
    EndsAfter n state := by
  intro challenges
  induction challenges generalizing state n with
  | nil =>
    obtain ⟨replies, hreplies, -⟩ := exists_completesAfter n
    exact .stopped [] hreplies
  | cons challenge challenges ih =>
    have hstep := hcounts state challenge
    rw [h] at hstep
    rw [run, List.map_cons]
    generalize hanswer : (respond state challenge).answer = answer at hstep ⊢
    generalize hleft : left (respond state challenge).next = after at hstep
    cases hstep with
    | proceeds n payload => exact (ih hleft).reply fun replies hreplies => hreplies.cons payload
    | completes payload =>
      have hlast : CompletesAfter 0 [.complete payload] := ⟨[], payload, rfl, rfl⟩
      rw [answers_of_none hcounts hleft]
      exact .ended [ClientReply.complete payload] hlast challenges.length
    | fails _ hcause =>
      obtain ⟨replies, hreplies, hne⟩ := exists_completesAfter n
      rw [answers_of_none hcounts hleft]
      exact .failed [] hreplies hne hcause _

end

end ClientMechanism

/-! ## Servers -/

/-- The payloads among the events. -/
def ServerEvent.payloads (events : List ServerEvent) : List Bytes :=
  events.filterMap fun
    | .payload bytes => some bytes
    | .edit _ => none

namespace ServerMechanism

variable {State : Type} [ServerMechanism State]

/-- Servers that are over say so to every payload, and stay over whatever becomes of their
credentials. -/
structure Absorbing (closed : State → Prop) : Prop where
  respond_eq : ∀ state payload, closed state →
    respond state payload = .fail .sessionAlreadyOver state
  edit : ∀ state credentials, closed state → closed (setCredentials state credentials)

theorem Absorbing.answers {closed : State → Prop} (habsorbing : Absorbing closed) {state : State}
    (h : closed state) (events : List ServerEvent) :
    (run state events).map Step.answer =
      List.replicate (ServerEvent.payloads events).length (.error .sessionAlreadyOver) := by
  induction events generalizing state with
  | nil => rfl
  | cons event events ih =>
    cases event with
    | payload bytes =>
      have hrest : (run state events).map Step.answer =
          List.replicate (ServerEvent.payloads events).length (.error .sessionAlreadyOver) := ih h
      rw [run, habsorbing.respond_eq state bytes h, List.map_cons, Step.fail, hrest]
      rfl
    | edit change => exact ih (habsorbing.edit state _ h)

end ServerMechanism

end SaslExchange
