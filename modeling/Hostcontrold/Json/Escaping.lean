import Hostcontrold.Json.Validity
import Hostcontrold.Json.Strings

/-!
# Escaped strings

Escaping replaces each character by its escape: the result of the final size is filled from left
to right, every escape finds the backslashes that it relies on, and nothing is left over
(`escape_in_place`). The shortcut for strings without such characters makes no difference
(`dumpEscaped_eq`).

What is written between the quotes is a string of the grammar, which denotes the text that was
escaped (`dumpEscaped_eq_ok_iff`).
-/

namespace Hostcontrold.Json.Serializer

open String

variable {b c e : UInt8} {s done : List UInt8} {n : Nat}

/-- What is written for a character. -/
def escapeByte (c : UInt8) : List UInt8 :=
  match escapes.lookup c with
  | some e => [0x5C, e]
  | none =>
    if c ≤ 0x1F then
      [0x5C, 0x75, Escaping.digitAt c.toNat 12, Escaping.digitAt c.toNat 8,
        Escaping.digitAt c.toNat 4, Escaping.digitAt c.toNat 0]
    else [c]

/-- What is written for a string. -/
abbrev escape (s : List UInt8) : List UInt8 := s.flatMap escapeByte

theorem escapeByte_short (h : escapes.lookup c = some e) : escapeByte c = [0x5C, e] := by
  rw [escapeByte, h]

theorem escapeByte_control (h : escapes.lookup c = none) (hc : c ≤ 0x1F) :
    escapeByte c = [0x5C, 0x75, Escaping.digitAt c.toNat 12, Escaping.digitAt c.toNat 8,
      Escaping.digitAt c.toNat 4, Escaping.digitAt c.toNat 0] := by
  rw [escapeByte, h]
  exact if_pos hc

theorem escapeByte_plain (h : escapes.lookup c = none) (hc : ¬c ≤ 0x1F) : escapeByte c = [c] := by
  rw [escapeByte, h]
  exact if_neg hc

theorem length_escapeByte_pos : 0 < (escapeByte c).length := by
  rcases h : escapes.lookup c with _ | e
  · by_cases hc : c ≤ 0x1F
    · rw [escapeByte_control h hc]
      exact Nat.succ_pos _
    · rw [escapeByte_plain h hc]
      exact Nat.one_pos
  · rw [escapeByte_short h]
    exact Nat.two_pos

theorem escapeByte_of_length (hlength : (escapeByte c).length ≤ 1) : escapeByte c = [c] := by
  rcases h : escapes.lookup c with _ | e
  · by_cases hc : c ≤ 0x1F
    · rw [escapeByte_control h hc] at hlength
      exact absurd hlength (by simp)
    · exact escapeByte_plain h hc
  · rw [escapeByte_short h] at hlength
    exact absurd hlength (by simp)

/-! ## The result -/

/-- The result with `done` written, and room for `n` more characters. -/
def Escaping.filled (done : List UInt8) (n : Nat) : Escaping :=
  { result := done ++ .replicate n 0x5C, pos := done.length }

theorem extraSpace_cons : extraSpace (c :: s) + 1 = (escapeByte c).length + extraSpace s := by
  rw [extraSpace]
  rcases h : escapes.lookup c with _ | e
  · rw [if_neg (by decide)]
    split_ifs with hc
    · rw [escapeByte_control h hc]
      exact Nat.add_right_comm 5 _ 1
    · rw [escapeByte_plain h hc]
      exact Nat.add_right_comm 0 _ 1
  · rw [escapeByte_short h, if_pos Option.isSome_some]
    exact Nat.add_right_comm 1 _ 1

theorem length_escape (s : List UInt8) : (escape s).length = s.length + extraSpace s := by
  induction s with
  | nil => rfl
  | cons c s ih =>
    have hcons := @extraSpace_cons c s
    rw [escape, List.flatMap_cons, List.length_append, ih, List.length_cons]
    omega

/-- The next character is written after the others. -/
theorem next_filled : (Escaping.filled done ((escapeByte c).length + n)).next c =
    Escaping.filled (done ++ escapeByte c) n := by
  rw [Escaping.next]
  by_cases hbackslash : c = 0x5C
  · subst hbackslash
    simp [escapeByte_short (c := 0x5C) rfl, Escaping.filled, Escaping.move, List.replicate_add]
  · rw [if_neg hbackslash]
    rcases h : escapes.lookup c with _ | e
    · by_cases hc : c ≤ 0x1F
      · simp [escapeByte_control h hc, hc, Escaping.filled, Escaping.escapeCodepoint,
          Escaping.write, Escaping.move, List.replicate_add, List.replicate_succ]
      · simp [escapeByte_plain h hc, hc, Escaping.filled, Escaping.write, Escaping.move,
          List.replicate_add]
    · simp [escapeByte_short h, Escaping.filled, Escaping.write, Escaping.move,
        List.replicate_add, List.replicate_succ]

theorem foldl_next_filled : s.foldl Escaping.next (Escaping.filled done (escape s).length) =
    Escaping.filled (done ++ escape s) 0 := by
  induction s generalizing done with
  | nil => rw [List.foldl_nil, escape, List.flatMap_nil, List.append_nil]; rfl
  | cons c s ih =>
    rw [List.foldl_cons, escape, List.flatMap_cons, List.length_append, next_filled, ih,
      List.append_assoc]

/-- Without characters to escape, the string is written as it is. -/
theorem escape_of_extraSpace (h : extraSpace s = 0) : escape s = s := by
  induction s with
  | nil => rfl
  | cons c s ih =>
    have hcons := @extraSpace_cons c s
    have hpos := @length_escapeByte_pos c
    rw [escape, List.flatMap_cons, escapeByte_of_length (by omega)]
    exact congrArg (c :: ·) (ih (by omega))

/-- In the end, the result is full, and the escapes are in it one after the other. -/
theorem escape_in_place (s : List UInt8) :
    s.foldl Escaping.next { result := .replicate (s.length + extraSpace s) 0x5C } =
      { result := escape s, pos := (escape s).length } := by
  have hfilled := @foldl_next_filled s []
  rw [length_escape, List.nil_append] at hfilled
  refine hfilled.trans ?_
  rw [Escaping.filled, List.replicate_zero, List.append_nil]

/-- A string is escaped if it is valid. -/
theorem dumpEscaped_eq (s : List UInt8) :
    dumpEscaped s = (throwIfInvalidUtf8 s).map fun _ => escape s := by
  rw [dumpEscaped]
  cases throwIfInvalidUtf8 s with
  | error e => rfl
  | ok u =>
    change (if _ then _ else _) = Except.ok _
    split_ifs with hspace
    · rw [escape_of_extraSpace hspace]
      rfl
    · exact congrArg (fun r => Except.ok r.result) (escape_in_place s)

/-! ## The grammar -/

theorem hexDigit_digitAt {bit : Nat} :
    HexDigit (Escaping.digitAt n bit) (n / 2 ^ bit % 16) := by
  have h : ∀ v < 16, HexDigit (Escaping.hexify.getD v 0) v := by
    unfold HexDigit
    decide
  have hdigit : n >>> bit &&& 0x0F = n / 2 ^ bit % 16 :=
    (Nat.and_two_pow_sub_one_eq_mod _ 4).trans (by rw [Nat.shiftRight_eq_div_pow])
  rw [Escaping.digitAt, hdigit]
  exact h _ (Nat.mod_lt _ (by decide))

theorem fourDigits_digitAt (h : n < 0x10000) :
    FourDigits [Escaping.digitAt n 12, Escaping.digitAt n 8, Escaping.digitAt n 4,
      Escaping.digitAt n 0] n := by
  have hvalue : n / 2 ^ 12 % 16 * 4096 + n / 2 ^ 8 % 16 * 256 + n / 2 ^ 4 % 16 * 16 +
      n / 2 ^ 0 % 16 = n := by
    omega
  have hdigits := FourDigits.intro (@hexDigit_digitAt n 12) (@hexDigit_digitAt n 8)
    (@hexDigit_digitAt n 4) (@hexDigit_digitAt n 0)
  rwa [hvalue] at hdigits

theorem mem_escapes (h : escapes.lookup c = some e) : (c, e) ∈ escapes := by
  obtain ⟨before, after, hescapes, -⟩ := List.lookup_eq_some_iff.1 h
  exact hescapes ▸ List.mem_append_cons_self

/-- A character of ASCII is written as one of its texts. -/
theorem charText_ascii {ch : Char} (hascii : ch.toNat < 0x80) :
    CharText (escapeByte (.ofNat ch.toNat)) ch := by
  have hbyte : (UInt8.ofNat ch.toNat).toNat = ch.toNat := by
    rw [UInt8.toNat_ofNat']
    omega
  rcases h : escapes.lookup (.ofNat ch.toNat) with _ | e
  · by_cases hc : UInt8.ofNat ch.toNat ≤ 0x1F
    · rw [escapeByte_control h hc, hbyte]
      exact .escape (.unicode (fourDigits_digitAt (by omega)))
    · have hchar := Utf8.encodeChar_one hascii
      rw [escapeByte_plain h hc, ← hchar]
      refine .plain ?_ ?_ ?_
      · rw [UInt8.le_iff_toNat_le, hbyte] at hc
        exact Nat.lt_of_not_le hc
      · intro hquote
        rw [hquote] at h
        cases h
      · intro hbackslash
        rw [hbackslash] at h
        cases h
  · have hshort : ∀ m ∈ escapes, (m.2, Char.ofNat m.1.toNat) ∈ shortEscapes :=
      List.forall_iff_forall_mem.1 (by decide)
    have hmem := hshort _ (mem_escapes h)
    rw [hbyte, Char.ofNat_toNat] at hmem
    rw [escapeByte_short h]
    exact .escape (.short hmem)

theorem escapeByte_high (hc : 0x80 ≤ c.toNat) : escapeByte c = [c] := by
  refine escapeByte_plain ?_ ?_
  · rcases h : escapes.lookup c with _ | e
    · rfl
    · have hlow : ∀ m ∈ escapes, m.1.toNat < 0x80 :=
        List.forall_iff_forall_mem.1 (by decide)
      exact absurd hc (Nat.not_le.2 (hlow _ (mem_escapes h)))
  · rw [UInt8.le_iff_toNat_le]
    exact Nat.not_le.2 (Nat.lt_of_lt_of_le (by decide) hc)

/-- The other characters are written as they are. -/
theorem escape_sequence (h : Utf8.IsSequence s) : escape s = s := by
  cases h with
  | two h h' h₁ =>
    simp [escape, escapeByte_high (Nat.le_trans (by decide) h), escapeByte_high h₁.1]
  | three h h' h₁ h₂ =>
    simp [escape, escapeByte_high (Nat.le_trans (by decide) h), escapeByte_high h₁.1,
      escapeByte_high h₂.1]
  | four h h' h₁ h₂ h₃ =>
    simp [escape, escapeByte_high (Nat.le_trans (by decide) h), escapeByte_high h₁.1,
      escapeByte_high h₂.1, escapeByte_high h₃.1]

/-- An escaped text is a text between quotes that denotes it. -/
theorem stringText_escape (text : List Char) :
    StringText (escape (Utf8.encode text)) text := by
  induction text with
  | nil => exact .nil
  | cons ch text ih =>
    rw [Utf8.encode_cons, escape, List.flatMap_append]
    refine .cons ?_ ih
    rcases Nat.lt_or_ge ch.toNat 0x80 with hascii | hseq
    · rw [Utf8.encodeChar_one hascii, List.flatMap_singleton]
      exact charText_ascii hascii
    · rw [← escape, escape_sequence (Utf8.isSequence_iff.2 ⟨ch, hseq, rfl⟩)]
      exact .plain (by omega) (by omega) (by omega)

/-- A string is written if it is the encoding of a text, and what is written between the quotes
    denotes this text. -/
theorem dumpEscaped_eq_ok_iff {body : List UInt8} : dumpEscaped s = .ok body ↔
    ∃ text, Utf8.encode text = s ∧ body = escape s ∧ StringText body text := by
  rw [dumpEscaped_eq]
  constructor
  · intro h
    cases hvalid : throwIfInvalidUtf8 s with
    | error e =>
      rw [hvalid] at h
      cases h
    | ok u =>
      rw [hvalid] at h
      obtain rfl := Except.ok.inj h
      obtain ⟨text, rfl⟩ := throwIfInvalidUtf8_iff.1 hvalid
      exact ⟨text, rfl, rfl, stringText_escape text⟩
  · rintro ⟨text, hs, rfl, -⟩
    rw [throwIfInvalidUtf8_iff.2 ⟨text, hs⟩]
    rfl

end Hostcontrold.Json.Serializer
