import SaslExchange.Text.Utf8

/-!
# ASCII characters in UTF-8

The encoding of a character beyond ASCII has no byte below 0x80. So a separator stands among
the bytes of a text exactly where it stands in the text.

    c is ASCII → (c.toUInt8 ∈ encode text ↔ c ∈ text)      (toUInt8_mem_encode_iff)
-/

namespace SaslExchange.Utf8

theorem toUInt8_mem_utf8EncodeChar_iff {c d : Char} (hc : c.toNat < 0x80) :
    c.toUInt8 ∈ String.utf8EncodeChar d ↔ c = d := by
  have hbyte : c.toUInt8.toNat = c.toNat := by
    simp only [Char.toUInt8, UInt32.toNat_toUInt8, Char.toNat_val]
    omega
  have hval : d.val.toNat = d.toNat := rfl
  rw [← Char.toNat_inj]
  unfold String.utf8EncodeChar
  dsimp only
  rw [hval]
  repeat' split
  all_goals
    simp only [List.mem_cons, List.not_mem_nil, or_false, ← UInt8.toNat_inj, hbyte,
      UInt8.toNat_ofNat', Nat.reducePow]
    omega

/-- An ASCII character stands in a text when its byte stands in the encoding. -/
theorem toUInt8_mem_encode_iff {c : Char} {text : String} (hc : c.toNat < 0x80) :
    c.toUInt8 ∈ encode text ↔ c ∈ text.toList := by
  simp only [encode, List.mem_flatMap, toUInt8_mem_utf8EncodeChar_iff hc]
  constructor
  · rintro ⟨d, hd, rfl⟩
    exact hd
  · intro h
    exact ⟨c, h, rfl⟩

theorem encode_comma : encode "," = [Ascii.comma] := by decide

theorem comma_mem_encode_iff {text : String} :
    Ascii.comma ∈ encode text ↔ ',' ∈ text.toList :=
  toUInt8_mem_encode_iff (c := ',') (by decide)

end SaslExchange.Utf8
