/-!
# UTF-8

The encoding of characters in one to four bytes. `IsSequence` says by the bytes themselves
when they are the encoding of a character that is not in ASCII, as the Unicode standard does:
by ranges for the bytes after the first one, so that there are no overlong encodings, no
surrogates, and nothing beyond the last code point. These are all of them, and no others
(`isSequence_iff`).
-/

namespace Utf8

open String

/-- The encoding of a text. -/
def encode (text : List Char) : List UInt8 := text.flatMap utf8EncodeChar

/-- The bytes of a string. -/
def ofString (s : String) : List UInt8 := s.toUTF8.data.toList

/-- The string with these bytes, if they encode one. -/
def toString (bytes : List UInt8) : String := (String.fromUTF8? ⟨bytes.toArray⟩).getD ""

@[simp]
theorem encode_nil : encode [] = [] := rfl

@[simp]
theorem encode_cons (c : Char) (text : List Char) :
    encode (c :: text) = utf8EncodeChar c ++ encode text := rfl

@[simp]
theorem encode_append (text text' : List Char) :
    encode (text ++ text') = encode text ++ encode text' := List.flatMap_append

theorem ofString_ofList (text : List Char) : ofString (.ofList text) = encode text := by
  rw [ofString, toUTF8_eq_toByteArray, toByteArray_ofList]
  exact List.toList_data_toByteArray

theorem toString_ofString (s : String) : toString (ofString s) = s := by
  have hbytes : (⟨(ofString s).toArray⟩ : ByteArray) = s.toByteArray := by
    rw [ofString, Array.toArray_toList]
    rfl
  rw [toString, hbytes, fromUTF8?, dif_pos s.isValidUTF8]
  rfl

/-- Every string is the text of its characters. -/
theorem ofString_eq_encode (s : String) : ofString s = encode s.toList := by
  rw [← ofString_ofList, ofList_toList]

/-! ## The encoding of a character -/

variable {c : Char} {n : Nat}

theorem exists_char (h : n.isValidChar) : ∃ c : Char, c.toNat = n := ⟨Char.ofNatAux n h, rfl⟩

theorem encodeChar_one (h : c.toNat < 0x80) : utf8EncodeChar c = [UInt8.ofNat c.toNat] :=
  if_pos (Nat.le_of_lt_succ h)

theorem encodeChar_two (h : 0x80 ≤ c.toNat) (h' : c.toNat < 0x800) :
    utf8EncodeChar c = [.ofNat (c.toNat / 64 % 0x20 + 0xc0), .ofNat (c.toNat % 0x40 + 0x80)] :=
  (if_neg (Nat.not_le.2 h)).trans (if_pos (Nat.le_of_lt_succ h'))

theorem encodeChar_three (h : 0x800 ≤ c.toNat) (h' : c.toNat < 0x10000) :
    utf8EncodeChar c = [.ofNat (c.toNat / 4096 % 0x10 + 0xe0),
      .ofNat (c.toNat / 64 % 0x40 + 0x80), .ofNat (c.toNat % 0x40 + 0x80)] :=
  (if_neg (by omega : ¬c.toNat ≤ 0x7f)).trans
    ((if_neg (Nat.not_le.2 h)).trans (if_pos (Nat.le_of_lt_succ h')))

theorem encodeChar_four (h : 0x10000 ≤ c.toNat) :
    utf8EncodeChar c = [.ofNat (c.toNat / 262144 % 0x08 + 0xf0),
      .ofNat (c.toNat / 4096 % 0x40 + 0x80), .ofNat (c.toNat / 64 % 0x40 + 0x80),
      .ofNat (c.toNat % 0x40 + 0x80)] :=
  (if_neg (by omega : ¬c.toNat ≤ 0x7f)).trans
    ((if_neg (by omega : ¬c.toNat ≤ 0x7ff)).trans (if_neg (Nat.not_le.2 h)))

/-- A byte after the first one. -/
def Continues (b : UInt8) : Prop := 0x80 ≤ b.toNat ∧ b.toNat ≤ 0xbf

/-- The well-formed sequences of more than one byte. -/
inductive IsSequence : List UInt8 → Prop
  | two {b₀ b₁ : UInt8} : 0xc2 ≤ b₀.toNat → b₀.toNat ≤ 0xdf → Continues b₁ → IsSequence [b₀, b₁]
  | three {b₀ b₁ b₂ : UInt8} : 0xe0 ≤ b₀.toNat → b₀.toNat ≤ 0xef → Continues b₁ → Continues b₂ →
      (b₀.toNat = 0xe0 → 0xa0 ≤ b₁.toNat) → (b₀.toNat = 0xed → b₁.toNat ≤ 0x9f) →
      IsSequence [b₀, b₁, b₂]
  | four {b₀ b₁ b₂ b₃ : UInt8} : 0xf0 ≤ b₀.toNat → b₀.toNat ≤ 0xf4 → Continues b₁ →
      Continues b₂ → Continues b₃ → (b₀.toNat = 0xf0 → 0x90 ≤ b₁.toNat) →
      (b₀.toNat = 0xf4 → b₁.toNat ≤ 0x8f) → IsSequence [b₀, b₁, b₂, b₃]

theorem ofNat_eq_iff {b : UInt8} (h : n < 256) : UInt8.ofNat n = b ↔ n = b.toNat := by
  rw [← UInt8.toNat_inj, UInt8.toNat_ofNat', Nat.mod_eq_of_lt h]

theorem toNat_lt (c : Char) : c.toNat < 0xd800 ∨ 0xdfff < c.toNat ∧ c.toNat < 0x110000 := c.valid

/-- The well-formed sequences are the encodings of the characters beyond ASCII. -/
theorem isSequence_iff {bytes : List UInt8} :
    IsSequence bytes ↔ ∃ c : Char, 0x80 ≤ c.toNat ∧ utf8EncodeChar c = bytes := by
  constructor
  · intro h
    cases h with
    | @two b₀ b₁ h₀ h₀' h₁ =>
      obtain ⟨h₁, h₁'⟩ := h₁
      obtain ⟨c, hc⟩ := exists_char (n := (b₀.toNat - 0xc0) * 64 + (b₁.toNat - 0x80))
        (.inl (by omega))
      refine ⟨c, by omega, ?_⟩
      rw [encodeChar_two (by omega) (by omega), List.cons.injEq, List.cons.injEq,
        ofNat_eq_iff (by omega), ofNat_eq_iff (by omega)]
      exact ⟨by omega, by omega, rfl⟩
    | @three b₀ b₁ b₂ h₀ h₀' h₁ h₂ hlow hhigh =>
      obtain ⟨h₁, h₁'⟩ := h₁
      obtain ⟨h₂, h₂'⟩ := h₂
      have hvalid : ((b₀.toNat - 0xe0) * 4096 + (b₁.toNat - 0x80) * 64 +
          (b₂.toNat - 0x80)).isValidChar := by
        rw [Nat.isValidChar]
        omega
      obtain ⟨c, hc⟩ := exists_char hvalid
      refine ⟨c, by omega, ?_⟩
      rw [encodeChar_three (by omega) (by omega), List.cons.injEq, List.cons.injEq,
        List.cons.injEq, ofNat_eq_iff (by omega), ofNat_eq_iff (by omega), ofNat_eq_iff (by omega)]
      exact ⟨by omega, by omega, by omega, rfl⟩
    | @four b₀ b₁ b₂ b₃ h₀ h₀' h₁ h₂ h₃ hlow hhigh =>
      obtain ⟨h₁, h₁'⟩ := h₁
      obtain ⟨h₂, h₂'⟩ := h₂
      obtain ⟨h₃, h₃'⟩ := h₃
      have hvalid : ((b₀.toNat - 0xf0) * 262144 + (b₁.toNat - 0x80) * 4096 +
          (b₂.toNat - 0x80) * 64 + (b₃.toNat - 0x80)).isValidChar := by
        rw [Nat.isValidChar]
        omega
      obtain ⟨c, hc⟩ := exists_char hvalid
      refine ⟨c, by omega, ?_⟩
      rw [encodeChar_four (by omega), List.cons.injEq, List.cons.injEq, List.cons.injEq,
        List.cons.injEq, ofNat_eq_iff (by omega), ofNat_eq_iff (by omega), ofNat_eq_iff (by omega),
        ofNat_eq_iff (by omega)]
      exact ⟨by omega, by omega, by omega, by omega, rfl⟩
  · rintro ⟨c, hc, rfl⟩
    have hvalid := toNat_lt c
    rcases Nat.lt_or_ge c.toNat 0x800 with htwo | hthree
    · rw [encodeChar_two hc htwo]
      refine .two ?_ ?_ ⟨?_, ?_⟩ <;> rw [UInt8.toNat_ofNat'] <;> omega
    · rcases Nat.lt_or_ge c.toNat 0x10000 with hthree' | hfour
      · rw [encodeChar_three hthree hthree']
        refine .three ?_ ?_ ⟨?_, ?_⟩ ⟨?_, ?_⟩ ?_ ?_ <;> simp only [UInt8.toNat_ofNat'] <;> omega
      · rw [encodeChar_four hfour]
        refine .four ?_ ?_ ⟨?_, ?_⟩ ⟨?_, ?_⟩ ⟨?_, ?_⟩ ?_ ?_ <;>
          simp only [UInt8.toNat_ofNat'] <;> omega

end Utf8
