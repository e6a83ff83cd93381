import Mathlib.Tactic.SplitIfs
import SaslExchange.Credentials
import SaslExchange.Hex

/-!
# Credentials shown without their secrets

A rendering tells the public fields and nothing else. A quoted text tells where it ends, whatever
it is followed by and whichever characters are taken for hidden, so no field can pass for another
one or for a part of it.

    at the front of any text, a form of a character tells the character     (Form.append_inj)
    at the front of any text, a quoted text tells what it quotes          (quote_append_inj)
    renderings agree ↔ the credentials differ in their secrets at most
                                                                     (shows_all_but_secrets)
-/

namespace SaslExchange

namespace Quoted

/-! ## Code points -/

theorem digitValue?_digitChar : ∀ d < 16, Hex.digitValue? (Nat.digitChar d) = some d := by decide

/-- Hexadecimal digits tell their number. -/
theorem foldl_toDigits (n : Nat) :
    (Nat.toDigits 16 n).foldl (fun value c => 16 * value + (Hex.digitValue? c).getD 0) 0 = n := by
  induction n using Nat.strongRecOn with
  | ind n ih =>
    by_cases hn : n < 16
    · rw [Nat.toDigits_of_lt_base hn]
      simp [digitValue?_digitChar n hn]
    · have hdiv := ih (n / 16) (by omega)
      have hdigit := digitValue?_digitChar (n % 16) (by omega)
      rw [Nat.toDigits_of_base_le (by decide) (by omega), List.foldl_append, hdiv]
      simp only [List.foldl_cons, List.foldl_nil, hdigit, Option.getD_some]
      omega

theorem toDigits_inj {m n : Nat} (h : Nat.toDigits 16 m = Nat.toDigits 16 n) : m = n := by
  rw [← foldl_toDigits m, h, foldl_toDigits]

theorem brace_notMem_toDigits (n : Nat) : '\x7d' ∉ Nat.toDigits 16 n := by
  have hdigit : ∀ d < 16, '\x7d' ≠ Nat.digitChar d := by decide
  induction n using Nat.strongRecOn with
  | ind n ih =>
    by_cases hn : n < 16
    · rw [Nat.toDigits_of_lt_base hn, List.mem_singleton]
      exact hdigit n hn
    · rw [Nat.toDigits_of_base_le (by decide) (by omega), List.mem_append, List.mem_singleton]
      rintro (hmem | heq)
      · exact ih (n / 16) (by omega) hmem
      · exact hdigit (n % 16) (by omega) heq

/-! ## Characters -/

/-- The character that a letter behind a backslash stands for. -/
def named? : Char → Option Char
  | '"' => some '"'
  | '\\' => some '\\'
  | 't' => some '\t'
  | 'n' => some '\n'
  | 'r' => some '\r'
  | '0' => some '\x00'
  | _ => none

/-- The forms that a character can take inside quotes. -/
inductive Form (c : Char) : List Char → Prop
  | named (letter : Char) : named? letter = some c → Form c ['\\', letter]
  | codePoint : Form c (['\\', 'u', '\x7b'] ++ Nat.toDigits 16 c.toNat ++ ['\x7d'])
  | itself : c ≠ '"' → c ≠ '\\' → Form c [c]

theorem form_escape (hidden : Char → Bool) (c : Char) : Form c (escape hidden c) := by
  unfold escape
  split_ifs with hquote hbackslash htab hlineFeed hreturn hnul
  · exact .named '"' (by rw [hquote]; rfl)
  · exact .named '\\' (by rw [hbackslash]; rfl)
  · exact .named 't' (by rw [htab]; rfl)
  · exact .named 'n' (by rw [hlineFeed]; rfl)
  · exact .named 'r' (by rw [hreturn]; rfl)
  · exact .named '0' (by rw [hnul]; rfl)
  · exact .codePoint
  · exact .itself hquote hbackslash

theorem Form.append_ne_quote_cons {c : Char} {form : List Char} (h : Form c form)
    (rest x : List Char) : form ++ rest ≠ '"' :: x := by
  cases h with
  | named letter hletter => simp
  | codePoint => simp
  | itself hquote hbackslash => simp [hquote]

/-- A form tells its character and where it ends. -/
theorem Form.append_inj {c d : Char} {s t : List Char} (hs : Form c s) (ht : Form d t)
    {x y : List Char} (h : s ++ x = t ++ y) : c = d ∧ x = y := by
  -- forms of two kinds part at the backslash, or behind it at the `u`, which names no character
  cases hs with
  | named letter hletter =>
    cases ht with
    | named letter' hletter' =>
      simp only [List.cons_append, List.nil_append, List.cons.injEq, true_and] at h
      obtain ⟨rfl, rfl⟩ := h
      exact ⟨Option.some.inj (hletter.symm.trans hletter'), rfl⟩
    | codePoint =>
      simp only [List.cons_append, List.cons.injEq, true_and] at h
      rw [h.1] at hletter
      cases hletter
    | itself hquote hbackslash => exact absurd (List.cons.inj h).1.symm hbackslash
  | codePoint =>
    cases ht with
    | named letter' hletter' =>
      simp only [List.cons_append, List.cons.injEq, true_and] at h
      rw [← h.1] at hletter'
      cases hletter'
    | codePoint =>
      simp only [List.cons_append, List.append_assoc, List.nil_append, List.cons.injEq,
        true_and] at h
      obtain ⟨hdigits, hrest⟩ :=
        Bytes.append_cons_inj (brace_notMem_toDigits _) (brace_notMem_toDigits _) h
      exact ⟨Char.toNat_inj.1 (toDigits_inj hdigits), hrest⟩
    | itself hquote hbackslash => exact absurd (List.cons.inj h).1.symm hbackslash
  | itself hquote hbackslash =>
    cases ht with
    | named letter' hletter' => exact absurd (List.cons.inj h).1 hbackslash
    | codePoint => exact absurd (List.cons.inj h).1 hbackslash
    | itself hquote' hbackslash' => exact List.cons.inj h

/-! ## Texts -/

theorem flatMap_escape_append_inj {hidden : Char → Bool} {s t x y : List Char}
    (h : s.flatMap (escape hidden) ++ '"' :: x = t.flatMap (escape hidden) ++ '"' :: y) :
    s = t ∧ x = y := by
  induction s generalizing t with
  | nil =>
    cases t with
    | nil => exact ⟨rfl, (List.cons.inj h).2⟩
    | cons d t =>
      rw [List.flatMap_cons, List.append_assoc] at h
      exact absurd h.symm ((form_escape hidden d).append_ne_quote_cons _ x)
  | cons c s ih =>
    cases t with
    | nil =>
      rw [List.flatMap_cons, List.append_assoc] at h
      exact absurd h ((form_escape hidden c).append_ne_quote_cons _ y)
    | cons d t =>
      rw [List.flatMap_cons, List.flatMap_cons, List.append_assoc, List.append_assoc] at h
      obtain ⟨rfl, hrest⟩ := (form_escape hidden c).append_inj (form_escape hidden d) h
      obtain ⟨rfl, rfl⟩ := ih hrest
      exact ⟨rfl, rfl⟩

theorem quote_append_inj {hidden : Char → Bool} {s t : String} {x y : List Char}
    (h : (quoteWith hidden s).toList ++ x = (quoteWith hidden t).toList ++ y) : s = t ∧ x = y := by
  simp only [quoteWith, String.toList_ofList, List.cons_append, List.append_assoc,
    List.nil_append, List.cons.injEq, true_and] at h
  obtain ⟨htext, hrest⟩ := flatMap_escape_append_inj h
  exact ⟨String.toList_inj.1 htext, hrest⟩

end Quoted

namespace Credentials

/-! ## Fields -/

/-- The two may differ in the password and in the password's digest. -/
structure SameButSecrets (a b : Credentials) : Prop where
  username : a.username = b.username
  host : a.host = b.host
  serviceType : a.serviceType = b.serviceType
  realm : a.realm = b.realm

theorem sameButSecrets_iff {a b : Credentials} :
    SameButSecrets a b ↔ a.publicFields = b.publicFields := by
  constructor
  · rintro ⟨husername, hhost, hserviceType, hrealm⟩
    rw [publicFields, publicFields, husername, hhost, hserviceType, hrealm]
  · intro h
    simp only [publicFields, List.cons.injEq, Prod.mk.injEq, true_and, and_true] at h
    obtain ⟨husername, hhost, hserviceType, hrealm⟩ := h
    exact ⟨husername, hhost, hserviceType, hrealm⟩

variable {hidden : Char → Bool}

theorem renderField_append_inj {label s t : String} {x y : List Char}
    (h : (renderField hidden (label, s)).toList ++ x =
      (renderField hidden (label, t)).toList ++ y) : s = t ∧ x = y := by
  simp only [renderField, String.toList_append, List.append_assoc, List.append_cancel_left_eq] at h
  exact Quoted.quote_append_inj h

/-- Fields of the same labels, each between the same two texts. -/
theorem join_renderField_append_inj {before after : String} {fields others : List (String × String)}
    (hlabels : fields.map Prod.fst = others.map Prod.fst) {x y : List Char}
    (h : (String.join (fields.map fun f => before ++ renderField hidden f ++ after)).toList ++ x =
      (String.join (others.map fun f => before ++ renderField hidden f ++ after)).toList ++ y) :
    fields = others := by
  induction fields generalizing others with
  | nil => exact (List.map_eq_nil_iff.1 hlabels.symm).symm
  | cons field fields ih =>
    cases others with
    | nil => simp at hlabels
    | cons other others =>
      obtain ⟨label, s⟩ := field
      obtain ⟨label', t⟩ := other
      obtain ⟨hlabel, htail⟩ := List.cons.inj hlabels
      obtain rfl : label = label' := hlabel
      simp only [List.map_cons, String.join_cons, String.toList_append, List.append_assoc,
        List.append_cancel_left_eq] at h
      obtain ⟨rfl, hrest⟩ := renderField_append_inj h
      rw [List.append_cancel_left_eq] at hrest
      rw [ih htail hrest]

/-- What stands around the fields doesn't matter, as long as it is the same. -/
theorem renderFields_eq_iff (a b : Credentials) (opening before after closing : String) :
    opening ++ a.renderFields hidden before after ++ closing =
        opening ++ b.renderFields hidden before after ++ closing ↔
      SameButSecrets a b := by
  rw [sameButSecrets_iff]
  constructor
  · intro h
    have hfields := String.toList_inj.2 h
    simp only [String.toList_append, List.append_assoc, List.append_cancel_left_eq] at hfields
    exact join_renderField_append_inj rfl hfields
  · intro h
    rw [renderFields, renderFields, h]

/-! ## Top theorem -/

/-- On one line or on a line each, the fields are shown alike exactly where the credentials differ
in their secrets at most, also where more or fewer characters than the control characters are
taken for hidden. -/
theorem shows_all_but_secrets (a b : Credentials) :
    (a.render = b.render ↔ SameButSecrets a b) ∧
    (a.renderLines = b.renderLines ↔ SameButSecrets a b) ∧
    ∀ hidden : Char → Bool,
      (a.renderWith hidden = b.renderWith hidden ↔ SameButSecrets a b) ∧
      (a.renderLinesWith hidden = b.renderLinesWith hidden ↔ SameButSecrets a b) := by
  have hline : ∀ hidden, a.renderWith hidden = b.renderWith hidden ↔ SameButSecrets a b :=
    fun _ => renderFields_eq_iff a b _ _ _ _
  have hlines : ∀ hidden, a.renderLinesWith hidden = b.renderLinesWith hidden ↔
      SameButSecrets a b := fun _ => renderFields_eq_iff a b _ _ _ _
  refine ⟨hline Quoted.isControl, hlines Quoted.isControl, ?_⟩
  intro hidden
  exact ⟨hline hidden, hlines hidden⟩

example :
    ({ username := "a\", host: \"b", password := "pencil" } : Credentials).render =
      "Credentials \x7b username: \"a\\\", host: \\\"b\", host: \"\", service_type: \"\", " ++
        "realm: \"\", .. \x7d" := by
  decide +kernel

end Credentials

end SaslExchange
