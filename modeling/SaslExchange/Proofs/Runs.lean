import SaslExchange.Exchange.Client
import SaslExchange.Exchange.Server

/-!
# Runs

A run over messages in a row is the run over the first of them, followed by the run of the
state that they lead to. So what holds of every state can be shown one step at a time.

    the replies of a run, one at a time       (map_answer_run_cons, map_answer_run_payload)
    run state (a ++ b) = run state a ++ run (after state a) b      (run_append)
-/

namespace SaslExchange

/-! ## Clients -/

/-- The replies of a run that starts with a reply. -/
theorem ClientMechanism.map_answer_run_cons {State : Type} [ClientMechanism State]
    {state next : State} {challenge : Bytes} {reply : ClientReply} {log : List Log.Line}
    (h : respond state challenge = .reply reply next log) (challenges : List Bytes) :
    (run state (challenge :: challenges)).map Step.answer =
      .ok reply :: (run next challenges).map Step.answer := by
  rw [run, h]
  rfl

/-! ## Servers -/

/-- The owner edits the credentials. -/
def ServerEvent.IsEdit : ServerEvent → Prop
  | .payload _ => False
  | .edit _ => True

namespace ServerMechanism

variable {State : Type} [ServerMechanism State]

/-- The replies of a run whose first payload is answered with a reply. -/
theorem map_answer_run_payload {state next : State} {payload : Bytes} {reply : ServerReply}
    {log : List Log.Line} (h : respond state payload = .reply reply next log)
    (events : List ServerEvent) :
    (run state (.payload payload :: events)).map Step.answer =
      .ok reply :: (run next events).map Step.answer := by
  rw [run, h]
  rfl

theorem after_payload {state next : State} {payload : Bytes} {reply : ServerReply}
    {log : List Log.Line} (h : respond state payload = .reply reply next log)
    (events : List ServerEvent) :
    after state (.payload payload :: events) = after next events := by
  rw [after, List.foldl_cons, ServerMechanism.next, h]
  rfl

/-- Two states that answer a payload in one step go on alike. -/
theorem run_eq_of_respond_eq {a b : State} {payload : Bytes}
    (h : respond a payload = respond b payload) (events : List ServerEvent) :
    run a (.payload payload :: events) = run b (.payload payload :: events) := by
  rw [run, run, h]

theorem after_eq_of_respond_eq {a b : State} {payload : Bytes}
    (h : respond a payload = respond b payload) (events : List ServerEvent) :
    after a (.payload payload :: events) = after b (.payload payload :: events) := by
  rw [after, after, List.foldl_cons, List.foldl_cons, next, next, h]

theorem run_edit {state edited : State} {change : Credentials → Credentials}
    (h : next state (.edit change) = edited) (events : List ServerEvent) :
    run state (.edit change :: events) = run edited events := by
  rw [run, h]

theorem after_edit {state edited : State} {change : Credentials → Credentials}
    (h : next state (.edit change) = edited) (events : List ServerEvent) :
    after state (.edit change :: events) = after edited events := by
  rw [after, List.foldl_cons, h]
  rfl

theorem after_append (state : State) (a b : List ServerEvent) :
    after state (a ++ b) = after (after state a) b := List.foldl_append

theorem run_append (state : State) (a b : List ServerEvent) :
    run state (a ++ b) = run state a ++ run (after state a) b := by
  induction a generalizing state with
  | nil => rfl
  | cons event a ih =>
    cases event with
    | payload bytes => exact congrArg (List.cons _) (ih _)
    | edit change => exact ih _

theorem after_append_singleton (state : State) (events : List ServerEvent) (event : ServerEvent) :
    after state (events ++ [event]) = next (after state events) event := after_append ..

theorem run_append_payload (state : State) (events : List ServerEvent) (bytes : Bytes) :
    run state (events ++ [.payload bytes]) =
      run state events ++ [respond (after state events) bytes] := run_append ..

theorem run_append_edit (state : State) (events : List ServerEvent)
    (change : Credentials → Credentials) :
    run state (events ++ [.edit change]) = run state events :=
  (run_append ..).trans (List.append_nil _)

end ServerMechanism

end SaslExchange
