import SaslExchange.Bytes

/-!
# Faults

Operations that have a condition, and stop the whole program where it doesn't hold: a part of a
byte string is taken between two positions, and two byte strings of one length are combined. A
fault is no failure of an exchange, which the other party could bring about.
-/

namespace SaslExchange

/-- What stops a program. -/
inductive Fault
  /-- A part was to be taken that doesn't lie within the bytes. -/
  | outOfRange (first last length : Nat)
  /-- Byte strings of different lengths were to be combined. -/
  | lengthsDiffer (left right : Nat)
deriving DecidableEq

namespace Bytes

/-- The bytes from position `first` to before `last`. -/
def slice (bytes : Bytes) (first last : Nat) : Except Fault Bytes :=
  if first ≤ last ∧ last ≤ bytes.length then .ok ((bytes.take last).drop first)
  else .error (.outOfRange first last bytes.length)

/-- The bytewise exclusive or. -/
def combine (a b : Bytes) : Except Fault Bytes :=
  match xor? a b with
  | some bytes => .ok bytes
  | none => .error (.lengthsDiffer a.length b.length)

/-- The position of the first `b` from `start` on. -/
def position? (b : UInt8) (bytes : Bytes) (start : Nat) : Option Nat :=
  ((bytes.drop start).idxOf? b).map (start + ·)

/-! ## Lemmas -/

theorem slice_of_le {bytes : Bytes} {first last : Nat} (h : first ≤ last)
    (hlast : last ≤ bytes.length) :
    bytes.slice first last = .ok ((bytes.take last).drop first) := if_pos ⟨h, hlast⟩

theorem combine_of_length {a b : Bytes} (h : a.length = b.length) :
    combine a b = .ok (List.zipWith (· ^^^ ·) a b) := by
  unfold combine
  rw [xor?_of_length h]

theorem bounds_of_position? {b : UInt8} {bytes : Bytes} {start i : Nat}
    (h : position? b bytes start = some i) : start ≤ i ∧ i < bytes.length := by
  obtain ⟨k, hk, rfl⟩ := Option.map_eq_some_iff.1 h
  have hlt : k < (bytes.drop start).length := by
    obtain ⟨hlt, -⟩ := List.idxOf?_eq_some_iff.1 hk
    exact hlt
  rw [List.length_drop] at hlt
  omega

/-- What is cut off at a byte stands before its first position, and the rest after it. -/
theorem cut?_eq_map_idxOf? (b : UInt8) (bytes : Bytes) :
    cut? b bytes = (bytes.idxOf? b).map fun i => (bytes.take i, bytes.drop (i + 1)) := by
  induction bytes with
  | nil => rfl
  | cons c rest ih =>
    rw [List.idxOf?_cons, cut?, ih]
    by_cases h : c = b
    · simp [h]
    · simp [h, Function.comp_def]

end Bytes

end SaslExchange
