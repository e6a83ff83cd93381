/-!
# Usernames in frames

A username in a frame can't hold a comma, which would end the piece. The comma and the equals
sign are written as `=2C` and `=3D`.

    unescape (escape name) = name      (unescape_escape)
-/

namespace SaslExchange.Scram.Saslname

def escapeChar (c : Char) : List Char :=
  if c = '=' then ['=', '3', 'D'] else if c = ',' then ['=', '2', 'C'] else [c]

/-- The name as it stands in a frame. -/
def escape (name : String) : String := String.ofList (name.toList.flatMap escapeChar)

def unescapeChars : List Char → List Char
  | '=' :: '2' :: 'C' :: rest => ',' :: unescapeChars rest
  | '=' :: '3' :: 'D' :: rest => '=' :: unescapeChars rest
  | c :: rest => c :: unescapeChars rest
  | [] => []

/-- The name that stands in a frame as `text`. -/
def unescape (text : String) : String := String.ofList (unescapeChars text.toList)

theorem unescapeChars_escapeChar_append (c : Char) (rest : List Char) :
    unescapeChars (escapeChar c ++ rest) = c :: unescapeChars rest := by
  unfold escapeChar
  split
  · next h => simp [unescapeChars, h]
  · split
    · next h => simp [unescapeChars, h]
    · next h _ =>
      exact unescapeChars.eq_3 _ _ (fun _ hc => absurd hc h) (fun _ hc => absurd hc h)

theorem unescapeChars_flatMap_escapeChar (name : List Char) :
    unescapeChars (name.flatMap escapeChar) = name := by
  induction name with
  | nil => rfl
  | cons c rest ih => rw [List.flatMap_cons, unescapeChars_escapeChar_append, ih]

theorem unescape_escape (name : String) : unescape (escape name) = name := by
  simp [unescape, escape, unescapeChars_flatMap_escapeChar]

end SaslExchange.Scram.Saslname
