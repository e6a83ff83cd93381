import Mathlib.Data.Nat.Digits.Defs
import SaslExchange.Proofs.Guards
import SaslExchange.Proofs.Scram.Pieces
import SaslExchange.Scram.Client

/-!
# The server's first message

Which messages a client takes as the answer to its nonce, and what it takes from them. The
iteration count is decimal, may have leading zeros and a plus sign, and is at most a million.

    iterationCount? text = some n ↔ CountText text n ∧ 1 ≤ n ≤ 1000000
                                                             (iterationCount?_eq_some_iff)
    reading a message yields `first` ↔ Offers nonce message first
                                                             (offers_iff)
-/

namespace SaslExchange.Scram

/-! ## Iteration counts -/

/-- The text is at least one decimal digit, and its value is `n`. -/
structure Decimal (digits : List Char) (n : Nat) : Prop where
  ne_nil : digits ≠ []
  isDigit : ∀ c ∈ digits, '0' ≤ c ∧ c ≤ '9'
  value : Nat.ofDigits 10 (digits.reverse.map fun c => c.toNat - '0'.toNat) = n

/-- The text is a decimal number with the value `n`, which may follow a plus sign. -/
def CountText (text : String) (n : Nat) : Prop :=
  Decimal text.toList n ∨ ∃ digits, text.toList = '+' :: digits ∧ Decimal digits n

theorem foldl_digit_eq (digits : List Char) (total : Nat) :
    digits.foldl (fun n c => 10 * n + (c.toNat - '0'.toNat)) total =
      10 ^ digits.length * total +
        Nat.ofDigits 10 (digits.reverse.map fun c => c.toNat - '0'.toNat) := by
  induction digits generalizing total with
  | nil => simp
  | cons c digits ih =>
    rw [List.foldl_cons, ih]
    simp only [List.map_reverse, List.map_cons, Nat.ofDigits_reverse_cons, List.length_cons,
      List.length_map]
    ring

theorem decimalValue?_eq_some_iff {digits : List Char} {n : Nat} :
    decimalValue? digits = some n ↔ Decimal digits n := by
  have hall : digits.all Char.isDigit ↔ ∀ c ∈ digits, '0' ≤ c ∧ c ≤ '9' := by
    simp [Char.isDigit, Char.le_def, ge_iff_le]
  unfold decimalValue?
  rw [foldl_digit_eq, Nat.mul_zero, Nat.zero_add]
  constructor
  · intro h
    split at h
    · next hdigits => exact ⟨hdigits.1, hall.1 hdigits.2, Option.some.inj h⟩
    · simp at h
  · rintro ⟨hne, hdigits, rfl⟩
    rw [if_pos ⟨hne, hall.2 hdigits⟩]

theorem plus_not_digit : ¬('0' ≤ '+' ∧ '+' ≤ '9') := by decide

theorem iterationCount?_eq_some_iff {text : String} {n : Nat} :
    iterationCount? text = some n ↔ CountText text n ∧ 1 ≤ n ∧ n ≤ 1000000 := by
  have hcount : decimalValue?
      (if text.toList.head? = some '+' then text.toList.tail else text.toList) = some n ↔
        CountText text n := by
    rw [decimalValue?_eq_some_iff]
    unfold CountText
    split
    · next hplus =>
      obtain ⟨digits, hdigits⟩ := List.head?_eq_some_iff.1 hplus
      rw [hdigits]
      constructor
      · intro h
        exact .inr ⟨digits, rfl, h⟩
      · rintro (h | ⟨_, heq, h⟩)
        · exact absurd (h.isDigit '+' List.mem_cons_self) plus_not_digit
        · rwa [List.cons.inj heq |>.2]
    · next hplus =>
      constructor
      · exact .inl
      · rintro (h | ⟨digits, heq, -⟩)
        · exact h
        · simp [heq] at hplus
  rw [← hcount]
  unfold iterationCount? maxIterations
  dsimp only
  constructor
  · intro h
    split at h
    · next m hm =>
      split at h
      · next hrange =>
        obtain rfl := Option.some.inj h
        exact ⟨hm, hrange⟩
      · simp at h
    · simp at h
  · rintro ⟨hm, hrange⟩
    rw [hm]
    exact if_pos hrange

/-! ## What the message offers -/

/-- The message is the answer to `clientNonce` that names this nonce, salt and iteration
count. -/
def Offers (clientNonce : String) (message : Bytes) (first : ServerFirst) : Prop :=
  ∃ pieces, Pieces message pieces ∧ ¬HasKey 'e' pieces ∧
    LastValue 'r' first.nonce pieces ∧ clientNonce.toList <+: first.nonce.toList ∧
    LastValue 's' (Base64.encode first.salt) pieces ∧ first.salt ≠ [] ∧
    ∃ count, LastValue 'i' count pieces ∧ CountText count first.iterations ∧
      1 ≤ first.iterations ∧ first.iterations ≤ 1000000

/-- The nonce of the server stands in one piece. -/
theorem Offers.comma_notMem {clientNonce : String} {message : Bytes} {first : ServerFirst}
    (h : Offers clientNonce message first) : ',' ∉ first.nonce.toList := by
  obtain ⟨pieces, hpieces, -, hnonce, -⟩ := h
  exact (hnonce.comma_notMem hpieces).2

theorem ServerFirst.ofFrame_eq_ok_iff {clientNonce : String} {frame : Frame} {first : ServerFirst} :
    ofFrame clientNonce frame = .ok first ↔
      frame['e']? = none ∧ frame['r']? = some first.nonce ∧
        clientNonce.toList <+: first.nonce.toList ∧
        frame['s']? = some (Base64.encode first.salt) ∧ first.salt ≠ [] ∧
        ∃ count, frame['i']? = some count ∧ iterationCount? count = some first.iterations := by
  obtain ⟨nonce, salt, iterations⟩ := first
  constructor
  · intro h
    unfold ofFrame at h
    -- the checks in the order in which they are made
    cases he : frame['e']? with
    | some text => simp [he] at h
    | none =>
    cases hr : frame['r']? with
    | none => simp [he, hr] at h
    | some echoed =>
    by_cases hprefix : clientNonce.toList <+: echoed.toList
    case neg => simp [he, hr, hprefix] at h
    cases hs : frame['s']? with
    | none => simp [he, hr, hprefix, hs] at h
    | some saltText =>
    cases hdecode : Base64.decode? saltText with
    | none => simp [he, hr, hprefix, hs, hdecode] at h
    | some decoded =>
    by_cases hsalt : decoded = []
    case pos => simp [he, hr, hprefix, hs, hdecode, hsalt] at h
    cases hi : frame['i']? with
    | none => simp [he, hr, hprefix, hs, hdecode, hsalt, hi] at h
    | some count =>
    cases hcount : iterationCount? count with
    | none => simp [he, hr, hprefix, hs, hdecode, hsalt, hi, hcount] at h
    | some n =>
    simp only [he, hr, hprefix, hs, hdecode, hsalt, hi, hcount, not_true_eq_false, ↓reduceIte,
      pure_eq_ok_iff, ServerFirst.mk.injEq] at h
    obtain ⟨rfl, rfl, rfl⟩ := h
    exact ⟨rfl, rfl, hprefix, by rw [Base64.decode?_eq_some_iff.1 hdecode], hsalt, count, rfl,
      hcount⟩
  · rintro ⟨he, hr, hprefix, hs, hsalt, count, hi, hcount⟩
    simp [ofFrame, he, hr, hprefix, hs, Base64.decode?_encode, hsalt, hi, hcount]

/-- What is wrong with the message is no failure of the client's own. -/
theorem ServerFirst.ofFrame_avoids (clientNonce : String) (frame : Frame) :
    Avoids ClientError.IsOwn (ofFrame clientNonce frame) := by
  unfold ofFrame
  cases frame['e']? with
  | some text => exact .throw nofun
  | none =>
  cases frame['r']? with
  | none => exact .throw nofun
  | some echoed =>
  refine .guard nofun ?_
  cases frame['s']? with
  | none => exact .throw nofun
  | some saltText =>
  dsimp only
  cases Base64.decode? saltText with
  | none => exact .throw nofun
  | some salt =>
  refine .guard nofun ?_
  cases frame['i']? with
  | none => exact .throw nofun
  | some count =>
  dsimp only
  cases iterationCount? count with
  | none => exact .throw nofun
  | some iterations => exact .pure _

/-- Reading a message as the server's first yields what it offers. -/
theorem offers_iff {clientNonce : String} {message : Bytes} {first : ServerFirst} :
    Offers clientNonce message first ↔
      ∃ frame, Frame.parse message = .ok frame ∧
        ServerFirst.ofFrame clientNonce frame = .ok first := by
  simp only [ServerFirst.ofFrame_eq_ok_iff, iterationCount?_eq_some_iff, Frame.parse_eq_ok_iff]
  constructor
  · rintro ⟨pieces, hpieces, he, hr, hprefix, hs, hsalt, count, hi, hcount⟩
    simp only [← Frame.getElem?_ofPieces_eq_none_iff, ← Frame.getElem?_ofPieces_eq_some_iff]
      at he hr hs hi
    exact ⟨Frame.ofPieces pieces, ⟨pieces, hpieces, rfl⟩, he, hr, hprefix, hs, hsalt, count, hi,
      hcount⟩
  · rintro ⟨_, ⟨pieces, hpieces, rfl⟩, he, hr, hprefix, hs, hsalt, count, hi, hcount⟩
    simp only [Frame.getElem?_ofPieces_eq_none_iff, Frame.getElem?_ofPieces_eq_some_iff]
      at he hr hs hi
    exact ⟨pieces, hpieces, he, hr, hprefix, hs, hsalt, count, hi, hcount⟩

end SaslExchange.Scram
