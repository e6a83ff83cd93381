import SaslExchange.Exchange.Client
import SaslExchange.Exchange.Server

/-!
# Computations that may fail

What a successful run of guards in a row says of each of them, and which causes a computation
doesn't fail for. Those of a party's own tell nothing of the other party's message. Two runs of
the same guards fail alike, up to where they differ.
-/

namespace SaslExchange

variable {ε α β : Type}

/-! ## Success -/

/-- A sequence succeeds when each of its steps does. -/
@[simp] theorem bind_eq_ok_iff {x : Except ε α} {f : α → Except ε β} {b : β} :
    (x >>= f) = .ok b ↔ ∃ a, x = .ok a ∧ f a = .ok b := by
  cases x <;> simp [bind, Except.bind]

@[simp] theorem throw_ne_ok {e : ε} {a : α} : (throw e : Except ε α) ≠ .ok a := nofun

@[simp] theorem pure_eq_ok_iff {a b : α} : (pure a : Except ε α) = .ok b ↔ a = b := by
  simp [pure, Except.pure]

/-- A guard lets a success through when its condition doesn't hold. -/
@[simp] theorem ite_throw_eq_ok_iff {p : Prop} [Decidable p] {e : ε} {f : α → Except ε β}
    {x : Except ε β} {b : β} : (if p then throw e >>= f else x) = .ok b ↔ ¬p ∧ x = .ok b := by
  by_cases h : p
  · simp [h]
  · simp [h]

/-! ## Failure -/

/-- The computation doesn't fail for any of these causes. -/
def Avoids (bad : ε → Prop) (x : Except ε α) : Prop := ∀ cause, x = .error cause → ¬bad cause

namespace Avoids

variable {bad : ε → Prop} {e : ε}

theorem ne {x : Except ε α} {cause : ε} (h : Avoids bad x) (he : x = .error e)
    (hcause : bad cause) : e ≠ cause := by
  rintro rfl
  exact h e he hcause

theorem weaken {bad' : ε → Prop} {x : Except ε α} (h : Avoids bad x)
    (hbad : ∀ cause, bad' cause → bad cause) : Avoids bad' x := by
  intro cause hx hcause
  exact h cause hx (hbad cause hcause)

theorem pure (a : α) : Avoids bad (Pure.pure a : Except ε α) := nofun

theorem throw (h : ¬bad e) : Avoids bad (MonadExcept.throw e : Except ε α) := by
  intro cause heq
  rwa [← Except.error.inj heq]

theorem bind {x : Except ε α} {f : α → Except ε β} (hx : Avoids bad x)
    (hf : ∀ a, Avoids bad (f a)) : Avoids bad (x >>= f) := by
  cases x with
  | error e =>
    intro cause heq
    exact hx cause (congrArg Except.error (Except.error.inj heq))
  | ok a => exact hf a

/-- A guard that fails for another cause leaves it to what follows. -/
theorem guard {p : Prop} [Decidable p] {f : α → Except ε β} {x : Except ε β} (h : ¬bad e)
    (hx : Avoids bad x) : Avoids bad (if p then MonadExcept.throw e >>= f else x) := by
  by_cases hp : p
  · rw [if_pos hp]
    exact throw h
  · rwa [if_neg hp]

/-- Two computations that don't fail for a cause are alike in that. -/
theorem eq_error_iff {x : Except ε α} {y : Except ε β} {cause : ε} (hx : Avoids (· = cause) x)
    (hy : Avoids (· = cause) y) : x = .error cause ↔ y = .error cause :=
  iff_of_false (fun h => hx cause h rfl) (fun h => hy cause h rfl)

end Avoids

/-- Two sequences with one beginning fail for a cause alike if what follows does. -/
theorem bind_eq_error_congr {x : Except ε α} {f g : α → Except ε β} {cause : ε}
    (h : ∀ a, f a = .error cause ↔ g a = .error cause) :
    x >>= f = .error cause ↔ x >>= g = .error cause := by
  cases x with
  | error e => exact Iff.rfl
  | ok a => exact h a

/-- Two computations behind one guard fail for a cause alike if they do so by themselves. -/
theorem guard_eq_error_congr {p : Prop} [Decidable p] {e cause : ε} {f g : α → Except ε β}
    {x y : Except ε β} (h : x = .error cause ↔ y = .error cause) :
    (if p then throw e >>= f else x) = .error cause ↔
      (if p then throw e >>= g else y) = .error cause := by
  by_cases hp : p
  · rw [if_pos hp, if_pos hp]
    exact Iff.rfl
  · rwa [if_neg hp, if_neg hp]

/-- The client fails for a reason of its own. -/
inductive ClientError.IsOwn : ClientError → Prop
  | invalidState : IsOwn .invalidState
  | crypto (cause : CryptoError) : IsOwn (.crypto cause)
  | lengthMismatch : IsOwn .lengthMismatch

/-- The server fails for a reason of its own. -/
inductive ServerError.IsOwn : ServerError → Prop
  | sessionAlreadyOver : IsOwn .sessionAlreadyOver
  | crypto (cause : CryptoError) : IsOwn (.crypto cause)

end SaslExchange
