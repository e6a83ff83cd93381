/-!
# Byte strings

Every message of an exchange is a list of bytes. Here are the few operations that the
formats share: the named ASCII bytes, trimming blanks, cutting at a separator, joining, and
the bytewise exclusive or.

    trim (trim b) = trim b                                (trim_trim)
    cut? s b = some (x, y) ↔ b = x ++ s :: y ∧ s ∉ x      (cut?_eq_some_iff)
    cut? s b = none ↔ s ∉ b                               (cut?_eq_none_iff)
    x ++ s :: y tells x and y where s ∉ x                 (append_cons_inj)
    a.length = b.length → xor? a b = some (…)             (xor?_of_length)
-/

namespace SaslExchange

/-- A byte string. -/
abbrev Bytes := List UInt8

/-! ## The bytes that have a role -/

namespace Ascii

abbrev tab : UInt8 := 0x09
abbrev lineFeed : UInt8 := 0x0A
abbrev formFeed : UInt8 := 0x0C
abbrev carriageReturn : UInt8 := 0x0D
abbrev space : UInt8 := 0x20
abbrev quote : UInt8 := 0x22
abbrev percent : UInt8 := 0x25
abbrev ampersand : UInt8 := 0x26
abbrev plus : UInt8 := 0x2B
abbrev comma : UInt8 := 0x2C
abbrev colon : UInt8 := 0x3A
abbrev equals : UInt8 := 0x3D
abbrev backslash : UInt8 := 0x5C

end Ascii

namespace Bytes

/-! ## Algorithm -/

/-- ASCII whitespace; the vertical tab 0x0B is not part of it. -/
def isBlank (b : UInt8) : Bool :=
  b = Ascii.space || b = Ascii.tab || b = Ascii.lineFeed || b = Ascii.formFeed ||
    b = Ascii.carriageReturn

/-- Strips the blanks at the front. -/
def trimFront (bytes : Bytes) : Bytes := bytes.dropWhile isBlank

/-- Strips the blanks at both ends. -/
def trim (bytes : Bytes) : Bytes := (trimFront (trimFront bytes).reverse).reverse

/-- What stands before and after the first `separator`, if there is one. -/
def cut? (separator : UInt8) : Bytes → Option (Bytes × Bytes)
  | [] => none
  | b :: rest =>
    if b = separator then some ([], rest)
    else (cut? separator rest).map fun (before, after) => (b :: before, after)

/-- The parts in order, with one `separator` between neighbours. -/
def joinWith (separator : UInt8) (parts : List Bytes) : Bytes := [separator].intercalate parts

/-- The bytewise exclusive or of two byte strings, which must have one length. -/
def xor? (a b : Bytes) : Option Bytes :=
  if a.length = b.length then some (List.zipWith (· ^^^ ·) a b) else none

/-! ## Lemmas -/

theorem trimFront_append {blanks : Bytes} (h : ∀ b ∈ blanks, isBlank b = true) (rest : Bytes) :
    trimFront (blanks ++ rest) = trimFront rest := List.dropWhile_append_of_pos h

theorem trimFront_cons {b : UInt8} (h : isBlank b = false) (rest : Bytes) :
    trimFront (b :: rest) = b :: rest := List.dropWhile_cons_of_neg (by simp [h])

theorem trimFront_trimFront (bytes : Bytes) : trimFront (trimFront bytes) = trimFront bytes := by
  induction bytes with
  | nil => rfl
  | cons b rest ih =>
    cases hblank : isBlank b with
    | false => rw [trimFront_cons hblank, trimFront_cons hblank]
    | true =>
      have hstrip : trimFront (b :: rest) = trimFront rest := List.dropWhile_cons_of_pos hblank
      rw [hstrip, ih]

/-- Nothing is stripped from the front exactly when no blank stands there. -/
theorem trimFront_eq_self_iff {bytes : Bytes} :
    trimFront bytes = bytes ↔ ∀ b, bytes.head? = some b → isBlank b = false := by
  cases bytes with
  | nil => simp [trimFront]
  | cons b rest =>
    cases hblank : isBlank b with
    | false => simp [trimFront_cons hblank, hblank]
    | true =>
      have hstrip : trimFront (b :: rest) = trimFront rest := List.dropWhile_cons_of_pos hblank
      have hle : (trimFront rest).length ≤ rest.length :=
        (List.dropWhile_sublist isBlank).length_le
      have hne : trimFront (b :: rest) ≠ b :: rest := by
        intro heq
        have hlength := congrArg List.length heq
        rw [hstrip, List.length_cons] at hlength
        omega
      simp [hne, hblank]

/-- Trimming leaves no blanks at either end. -/
theorem trim_trim (bytes : Bytes) : trim (trim bytes) = trim bytes := by
  have hfront : trimFront (trim bytes) = trim bytes := by
    rw [trimFront_eq_self_iff]
    intro b hb
    -- what is stripped at the back leaves the first byte in its place
    obtain ⟨dropped, hdropped⟩ :
        trimFront (trimFront bytes).reverse <:+ (trimFront bytes).reverse :=
      List.dropWhile_suffix isBlank
    have hhead : (trimFront bytes).head? = some b := by
      rw [← List.reverse_reverse (trimFront bytes), ← hdropped, List.reverse_append, ← trim,
        List.head?_append, hb, Option.some_or]
    exact trimFront_eq_self_iff.1 (trimFront_trimFront bytes) b hhead
  have hback : trimFront (trim bytes).reverse = (trim bytes).reverse := by
    rw [trim, List.reverse_reverse, trimFront_trimFront]
  rw [trim, hfront, hback, List.reverse_reverse]

theorem mem_of_mem_trim {b : UInt8} {bytes : Bytes} (h : b ∈ trim bytes) : b ∈ bytes := by
  have hback : b ∈ (trimFront bytes).reverse :=
    (List.dropWhile_sublist isBlank).mem (List.mem_reverse.1 h)
  exact (List.dropWhile_sublist isBlank).mem (List.mem_reverse.1 hback)

theorem cut?_eq_none_iff {separator : UInt8} {bytes : Bytes} :
    cut? separator bytes = none ↔ separator ∉ bytes := by
  induction bytes with
  | nil => simp [cut?]
  | cons b rest ih =>
    by_cases h : b = separator
    · simp [cut?, h]
    · simp [cut?, h, ih, Ne.symm h]

theorem cut?_append {separator : UInt8} {before : Bytes} (after : Bytes)
    (h : separator ∉ before) :
    cut? separator (before ++ separator :: after) = some (before, after) := by
  induction before with
  | nil => simp [cut?]
  | cons b rest ih =>
    simp only [List.mem_cons, not_or] at h
    simp [cut?, Ne.symm h.1, ih h.2]

theorem eq_append_of_cut? {separator : UInt8} {bytes before after : Bytes}
    (h : cut? separator bytes = some (before, after)) :
    bytes = before ++ separator :: after ∧ separator ∉ before := by
  induction bytes generalizing before with
  | nil => simp [cut?] at h
  | cons b rest ih =>
    by_cases hb : b = separator
    · simp only [cut?, hb, ↓reduceIte, Option.some.injEq, Prod.mk.injEq] at h
      obtain ⟨rfl, rfl⟩ := h
      simp [hb]
    · simp only [cut?, hb, ↓reduceIte, Option.map_eq_some_iff, Prod.mk.injEq, Prod.exists] at h
      obtain ⟨x, y, hcut, rfl, rfl⟩ := h
      obtain ⟨rfl, hx⟩ := ih hcut
      simp [hx, Ne.symm hb]

theorem cut?_eq_some_iff {separator : UInt8} {bytes before after : Bytes} :
    cut? separator bytes = some (before, after) ↔
      bytes = before ++ separator :: after ∧ separator ∉ before :=
  ⟨eq_append_of_cut?, fun ⟨h, hx⟩ => h ▸ cut?_append after hx⟩

/-- What stands before the first separator can be told from what follows it. -/
theorem append_cons_inj {α : Type} {separator : α} {a a' b b' : List α} (ha : separator ∉ a)
    (ha' : separator ∉ a') (h : a ++ separator :: b = a' ++ separator :: b') :
    a = a' ∧ b = b' := by
  induction a generalizing a' with
  | nil =>
    cases a' with
    | nil => exact ⟨rfl, (List.cons.inj h).2⟩
    | cons d a' => exact absurd (List.cons.inj h).1 (List.ne_of_not_mem_cons ha')
  | cons c a ih =>
    cases a' with
    | nil => exact absurd (List.cons.inj h).1.symm (List.ne_of_not_mem_cons ha)
    | cons d a' =>
      obtain ⟨rfl, htail⟩ := List.cons.inj h
      obtain ⟨rfl, rfl⟩ :=
        ih (List.not_mem_of_not_mem_cons ha) (List.not_mem_of_not_mem_cons ha') htail
      exact ⟨rfl, rfl⟩

/-- What stands after the last separator can be told from what precedes it. -/
theorem append_cons_inj_last {separator : UInt8} {a a' b b' : Bytes} (hb : separator ∉ b)
    (hb' : separator ∉ b') (h : a ++ separator :: b = a' ++ separator :: b') :
    a = a' ∧ b = b' := by
  have hreverse : b.reverse ++ separator :: a.reverse = b'.reverse ++ separator :: a'.reverse := by
    simpa using congrArg List.reverse h
  obtain ⟨hafter, hbefore⟩ := append_cons_inj (by simpa using hb) (by simpa using hb') hreverse
  exact ⟨List.reverse_inj.1 hbefore, List.reverse_inj.1 hafter⟩

theorem length_of_cut? {separator : UInt8} {bytes before after : Bytes}
    (h : cut? separator bytes = some (before, after)) : after.length < bytes.length := by
  rw [(eq_append_of_cut? h).1]
  simp only [List.length_append, List.length_cons]
  omega

theorem length_joinWith (separator : UInt8) (parts : List Bytes) :
    (joinWith separator parts).length = parts.flatten.length + (parts.length - 1) := by
  unfold joinWith
  induction parts with
  | nil => rfl
  | cons part parts ih =>
    cases parts with
    | nil => simp
    | cons next parts =>
      rw [List.intercalate_cons_cons, List.length_append, List.length_append, ih]
      simp only [List.flatten_cons, List.length_append, List.length_cons, List.length_nil]
      omega

/-- A byte of joined parts is the separator or stands in one of them. -/
theorem eq_or_exists_of_mem_joinWith {separator b : UInt8} {parts : List Bytes}
    (h : b ∈ joinWith separator parts) : b = separator ∨ ∃ part ∈ parts, b ∈ part := by
  unfold joinWith at h
  induction parts with
  | nil => simp at h
  | cons part parts ih =>
    cases parts with
    | nil =>
      right
      exact ⟨part, List.mem_cons_self, by simpa using h⟩
    | cons next parts =>
      rw [List.intercalate_cons_cons, List.mem_append, List.mem_append, List.mem_singleton] at h
      rcases h with (h | h) | h
      · exact .inr ⟨part, List.mem_cons_self, h⟩
      · exact .inl h
      · rcases ih h with h | ⟨other, hother, hb⟩
        · exact .inl h
        · exact .inr ⟨other, List.mem_cons_of_mem _ hother, hb⟩

theorem xor?_of_length {a b : Bytes} (h : a.length = b.length) :
    xor? a b = some (List.zipWith (· ^^^ ·) a b) := if_pos h

end Bytes

end SaslExchange
