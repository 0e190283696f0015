import Hostcontrold.Json.Grammar

/-!
# Reading strings

`Reads l text added l'`: from the state `l`, the lexer has read `text` and added the bytes
`added` to the text of the token, and nothing else; this determines the state `l'`. What the
functions of the lexer do, if they succeed, is stated in these terms, as an equivalence: they
read a text of the grammar, and every such text is read.

So `scanString` accepts the strings of the grammar, and no others, and the text it collects is
the UTF-8 encoding of the characters that the string denotes (`scanString_iff`). In particular
it is always valid.
-/

namespace Hostcontrold.Json

open Lexer String

/-! ## Reading -/

variable {l l' l'' : Lexer} {c : UInt8} {text text' added added' : List UInt8}

@[simp]
theorem Lexer.input_get : l.get.input = l.input.tail := by
  unfold Lexer.get
  cases l.input <;> rfl

@[simp]
theorem Lexer.current_get : l.get.current = l.input.head? := by
  unfold Lexer.get
  cases l.input <;> rfl

@[simp]
theorem Lexer.charsRead_get : l.get.charsRead = l.charsRead + 1 := by
  unfold Lexer.get
  cases l.input <;> rfl

/-- The state after `text` has been read and `added` has been added. -/
def Lexer.advance (text added : List UInt8) (l : Lexer) : Lexer :=
  { l with
    input := l.input.drop text.length, current := text.getLast?.or l.current
    charsRead := l.charsRead + text.length, tokenString := l.tokenString ++ text
    yytext := l.yytext ++ added }

/-- The lexer reads a text that the input begins with, and adds bytes to that of the token. -/
def Reads (l : Lexer) (text added : List UInt8) (l' : Lexer) : Prop :=
  text <+: l.input ∧ l' = l.advance text added

theorem Reads.input (h : Reads l text added l') : l.input = text ++ l'.input := by
  obtain ⟨⟨rest, hrest⟩, rfl⟩ := h
  simp [advance, ← hrest]

theorem Reads.yytext (h : Reads l text added l') : l'.yytext = l.yytext ++ added := by
  obtain ⟨-, rfl⟩ := h
  rfl

theorem Reads.charsRead (h : Reads l text added l') :
    l'.charsRead = l.charsRead + text.length := by
  obtain ⟨-, rfl⟩ := h
  rfl

theorem exists_reads {rest : List UInt8} (h : l.input = text ++ rest) (added : List UInt8) :
    ∃ l', Reads l text added l' ∧ l'.input = rest :=
  ⟨_, ⟨⟨rest, h.symm⟩, rfl⟩, by simp [advance, h]⟩

@[simp]
theorem reads_nil : Reads l [] [] l' ↔ l' = l := by
  simp [Reads, advance]

theorem get_eq_advance (h : l.input.head? = some c) : l.get = l.advance [c] [] := by
  obtain ⟨rest, hrest⟩ := List.head?_eq_some_iff.1 h
  simp [Lexer.get, advance, hrest]

theorem advance_advance :
    (l.advance text added).advance text' added' = l.advance (text ++ text') (added ++ added') := by
  simp [advance, Nat.add_assoc, Option.or_assoc, List.getLast?_append]

theorem reads_append : Reads l (text ++ text') (added ++ added') l'' ↔
    ∃ l', Reads l text added l' ∧ Reads l' text' added' l'' := by
  constructor
  · rintro ⟨⟨rest, hrest⟩, rfl⟩
    refine ⟨_, ⟨⟨text' ++ rest, by rw [← hrest, List.append_assoc]⟩, rfl⟩, ⟨rest, ?_⟩, ?_⟩
    · simp [advance, ← hrest]
    · rw [advance_advance]
  · rintro ⟨l', h, h'⟩
    refine ⟨⟨l''.input, ?_⟩, ?_⟩
    · rw [h.input, h'.input, List.append_assoc]
    · rw [h'.2, h.2, advance_advance]

/-- Read a character. -/
theorem reads_cons : Reads l (c :: text) added l' ↔
    l.input.head? = some c ∧ Reads l.get text added l' := by
  rw [← List.singleton_append, ← List.nil_append added, reads_append]
  constructor
  · rintro ⟨_, ⟨⟨rest, hrest⟩, rfl⟩, h⟩
    have hhead : l.input.head? = some c := by rw [← hrest]; rfl
    exact ⟨hhead, get_eq_advance hhead ▸ h⟩
  · rintro ⟨hhead, h⟩
    obtain ⟨rest, hrest⟩ := List.head?_eq_some_iff.1 hhead
    exact ⟨l.get, ⟨⟨rest, hrest.symm⟩, get_eq_advance hhead⟩, h⟩

/-- Add a character. -/
theorem reads_add : Reads (l.add c) text added l' ↔ Reads l text (c :: added) l' := by
  simp [Reads, advance, add]

/-! ## Code points -/

theorem hexDigit?_eq_some_iff {v : Nat} : hexDigit? c = some v ↔ HexDigit c v := by
  unfold hexDigit? HexDigit
  split_ifs <;> simp only [Option.some.injEq, false_iff] <;> omega

/-- Four digits have been read, from the first one. -/
def ReadsDigits (l : Lexer) (n : Nat) (l' : Lexer) : Prop :=
  ∃ digits, FourDigits digits n ∧ Reads l digits [] l'

theorem getCodepointFrom_cons {factor n : Nat} {factors : List Nat} {codepoint : Nat} :
    getCodepointFrom (factor :: factors) codepoint l = (some n, l') ↔
      ∃ c v, l.input.head? = some c ∧ HexDigit c v ∧
        getCodepointFrom factors (codepoint + v <<< factor) l.get = (some n, l') := by
  rw [getCodepointFrom, current_get]
  cases hhead : l.input.head? with
  | none => simp
  | some c =>
    cases hdigit : hexDigit? c with
    | none => simp [hdigit, ← hexDigit?_eq_some_iff]
    | some v => simp [hdigit, ← hexDigit?_eq_some_iff]

theorem getCodepoint_iff {n : Nat} : l.getCodepoint = (some n, l') ↔ ReadsDigits l n l' := by
  simp only [getCodepoint, getCodepointFrom_cons]
  constructor
  · rintro ⟨a, u, ha, hu, b, v, hb, hv, c, w, hc, hw, d, x, hd, hx, h⟩
    obtain ⟨hn, rfl⟩ := Prod.mk.inj h
    obtain rfl := Option.some.inj hn
    refine ⟨[a, b, c, d], ?_, ?_⟩
    · convert FourDigits.intro hu hv hw hx using 1
      simp only [Nat.shiftLeft_eq]
      omega
    · simp only [reads_cons, reads_nil, true_and, ha, hb, hc, hd]
  · rintro ⟨_, ⟨hu, hv, hw, hx⟩, h⟩
    simp only [reads_cons, reads_nil] at h
    obtain ⟨ha, hb, hc, hd, rfl⟩ := h
    refine ⟨_, _, ha, hu, _, _, hb, hv, _, _, hc, hw, _, _, hd, hx, ?_⟩
    simp only [getCodepointFrom, Nat.shiftLeft_eq, Prod.mk.injEq, Option.some.injEq, and_true]
    omega

theorem FourDigits.lt {n : Nat} (h : FourDigits text n) : n < 0x10000 := by
  obtain ⟨hu, hv, hw, hx⟩ := h
  simp only [HexDigit] at hu hv hw hx
  omega

theorem or_eq_add {n b : Nat} (k : Nat) (hn : n % 2 ^ k = 0) (hb : b < 2 ^ k) :
    n ||| b = b + n := by
  obtain ⟨m, rfl⟩ := Nat.dvd_of_mod_eq_zero hn
  rw [← Nat.two_pow_add_eq_or_of_lt hb m, Nat.add_comm]

/-- A code point is translated into the encoding of the character. -/
theorem addCodepoint_eq (ch : Char) :
    l.addCodepoint ch.toNat = l.advance [] (utf8EncodeChar ch) := by
  have hvalid := Utf8.toNat_lt ch
  have hmask (n : Nat) : n &&& 0x3F = n % 0x40 := Nat.and_two_pow_sub_one_eq_mod n 6
  have hnext (b : Nat) (h : b < 0x40) : 0x80 ||| b = b + 0x80 := or_eq_add 7 rfl (by omega)
  unfold addCodepoint
  simp only [Nat.shiftRight_eq_div_pow, hmask]
  split_ifs with hone htwo hthree
  · rw [Utf8.encodeChar_one hone]
    simp [advance, add]
  · have hfirst : 0xC0 ||| ch.toNat / 2 ^ 6 = ch.toNat / 64 % 0x20 + 0xC0 := by
      rw [or_eq_add 6 rfl (by omega)]
      omega
    rw [Utf8.encodeChar_two (by omega) (by omega), hfirst, hnext _ (by omega)]
    simp [advance, add]
  · have hfirst : 0xE0 ||| ch.toNat / 2 ^ 12 = ch.toNat / 4096 % 0x10 + 0xE0 := by
      rw [or_eq_add 5 rfl (by omega)]
      omega
    rw [Utf8.encodeChar_three (by omega) (by omega), hfirst, hnext _ (by omega),
      hnext _ (by omega)]
    simp [advance, add]
  · have hfirst : 0xF0 ||| ch.toNat / 2 ^ 18 = ch.toNat / 262144 % 0x08 + 0xF0 := by
      rw [or_eq_add 4 rfl (by omega)]
      omega
    rw [Utf8.encodeChar_four (by omega), hfirst, hnext _ (by omega), hnext _ (by omega),
      hnext _ (by omega)]
    simp [advance, add]

/-- Read a text, and then add a character. -/
theorem reads_addCodepoint {ch : Char} : Reads l text (utf8EncodeChar ch) l'' ↔
    ∃ l', Reads l text [] l' ∧ l'' = l'.addCodepoint ch.toNat := by
  have hsplit := @reads_append l l'' text [] [] (utf8EncodeChar ch)
  rw [List.append_nil, List.nil_append] at hsplit
  refine hsplit.trans (exists_congr fun l' => and_congr_right fun _ => ?_)
  simp only [Reads, List.nil_prefix, true_and, addCodepoint_eq]

/-! ## Escapes -/

/-- A high surrogate and a low one stand for one character. -/
theorem exists_char_of_surrogates {high low : Nat} (hhigh : 0xD800 ≤ high ∧ high ≤ 0xDBFF)
    (hlow : 0xDC00 ≤ low ∧ low ≤ 0xDFFF) : ∃ ch : Char, ch.toNat = high <<< 10 + low - 0x35FDC00 ∧
      ch.toNat = 0x10000 + (high - 0xD800) * 0x400 + (low - 0xDC00) := by
  rw [Nat.shiftLeft_eq]
  obtain ⟨ch, hch⟩ := Utf8.exists_char (n := high * 2 ^ 10 + low - 0x35FDC00) (.inr (by omega))
  exact ⟨ch, hch, by omega⟩

theorem scanLowSurrogate_iff {high : Nat} (hhigh : 0xD800 ≤ high ∧ high ≤ 0xDBFF) :
    scanLowSurrogate high l = (true, l') ↔
      ∃ digits low ch, FourDigits digits low ∧ (0xDC00 ≤ low ∧ low ≤ 0xDFFF) ∧
        ch.toNat = 0x10000 + (high - 0xD800) * 0x400 + (low - 0xDC00) ∧
        Reads l (0x5C :: 0x75 :: digits) (utf8EncodeChar ch) l' := by
  rw [scanLowSurrogate, current_get, current_get]
  simp only [reads_cons]
  constructor
  · intro h
    split_ifs at h with hbackslash hu
    · rcases hcodepoint : l.get.get.getCodepoint with ⟨_ | low, l₁⟩
      · simp [hcodepoint] at h
      · simp only [hcodepoint] at h
        split_ifs at h with hlow
        · obtain ⟨digits, hdigits, hreads⟩ := getCodepoint_iff.1 hcodepoint
          obtain ⟨ch, hch, hvalue⟩ := exists_char_of_surrogates hhigh hlow
          rw [← hch] at h
          exact ⟨digits, low, ch, hdigits, hlow, hvalue, hbackslash, hu,
            reads_addCodepoint.2 ⟨l₁, hreads, (Prod.mk.inj h).2.symm⟩⟩
        · simp at h
    · simp at h
    · simp at h
  · rintro ⟨digits, low, ch, hdigits, hlow, hvalue, hbackslash, hu, hreads⟩
    obtain ⟨l₁, hdigits', rfl⟩ := reads_addCodepoint.1 hreads
    obtain ⟨ch', hch, hvalue'⟩ := exists_char_of_surrogates hhigh hlow
    rw [if_pos hbackslash, if_pos hu, getCodepoint_iff.2 ⟨digits, hdigits, hdigits'⟩]
    simp only [if_pos hlow]
    rw [← hch, hvalue', ← hvalue]

/-- A surrogate is no character. -/
theorem toNat_ne_surrogate {ch : Char} {n : Nat} (h : ch.toNat = n) :
    ¬(0xD800 ≤ n ∧ n ≤ 0xDBFF) ∧ ¬(0xDC00 ≤ n ∧ n ≤ 0xDFFF) := by
  have := Utf8.toNat_lt ch
  omega

/-- The escape `\u`, after these two characters. -/
theorem scanUnicodeEscape_iff : scanUnicodeEscape l = (true, l') ↔
    ∃ text ch, EscapeText (0x75 :: text) ch ∧ Reads l text (utf8EncodeChar ch) l' := by
  rw [scanUnicodeEscape]
  constructor
  · intro h
    rcases hcodepoint : l.getCodepoint with ⟨_ | n, l₁⟩
    · simp [hcodepoint] at h
    · simp only [hcodepoint] at h
      obtain ⟨digits, hdigits, hreads⟩ := getCodepoint_iff.1 hcodepoint
      split_ifs at h with hhigh hlow
      · obtain ⟨digits', low, ch, hdigits', hlow, hvalue, hreads'⟩ :=
          (scanLowSurrogate_iff hhigh).1 h
        exact ⟨_, ch, .surrogates hdigits hdigits' hhigh hlow hvalue,
          (@reads_append _ _ _ _ [] _).2 ⟨l₁, hreads, hreads'⟩⟩
      · simp at h
      · have hlt := hdigits.lt
        obtain ⟨ch, rfl⟩ := Utf8.exists_char (n := n) (by rw [Nat.isValidChar]; omega)
        exact ⟨digits, ch, .unicode hdigits,
          reads_addCodepoint.2 ⟨l₁, hreads, (Prod.mk.inj h).2.symm⟩⟩
  · rintro ⟨text, ch, htext, hreads⟩
    cases htext with
    | short h => simp [shortEscapes] at h
    | unicode hdigits =>
      obtain ⟨l₁, hdigits', rfl⟩ := reads_addCodepoint.1 hreads
      obtain ⟨hhigh, hlow⟩ := @toNat_ne_surrogate ch _ rfl
      rw [getCodepoint_iff.2 ⟨_, hdigits, hdigits'⟩]
      simp only [if_neg hhigh, if_neg hlow]
    | surrogates hdigits hdigits' hhigh hlow hvalue =>
      obtain ⟨l₁, hreads, hreads'⟩ := (@reads_append _ _ _ _ [] _).1 hreads
      rw [getCodepoint_iff.2 ⟨_, hdigits, hreads⟩]
      simp only [if_pos hhigh]
      exact (scanLowSurrogate_iff hhigh).2 ⟨_, _, ch, hdigits', hlow, hvalue, hreads'⟩

/-- The short escapes of the grammar are those of the lexer. -/
theorem lookup_escapes {e : UInt8} {ch : Char} (h : (e, ch) ∈ shortEscapes) :
    escapes.lookup e = some (.ofNat ch.toNat) ∧ utf8EncodeChar ch = [.ofNat ch.toNat] := by
  have hall : ∀ q ∈ shortEscapes, escapes.lookup q.1 = some (.ofNat q.2.toNat) ∧
      utf8EncodeChar q.2 = [.ofNat q.2.toNat] :=
    List.forall_iff_forall_mem.1 (by decide)
  exact hall _ h

theorem mem_shortEscapes {e b : UInt8} (h : escapes.lookup e = some b) :
    (e, .ofNat b.toNat) ∈ shortEscapes ∧ utf8EncodeChar (.ofNat b.toNat) = [b] := by
  have hall : ∀ p ∈ escapes, (p.1, .ofNat p.2.toNat) ∈ shortEscapes ∧
      utf8EncodeChar (.ofNat p.2.toNat) = [p.2] :=
    List.forall_iff_forall_mem.1 (by decide)
  obtain ⟨before, after, hescapes, -⟩ := List.lookup_eq_some_iff.1 h
  exact hall (e, b) (hescapes ▸ List.mem_append_cons_self)

theorem scanEscape_iff : scanEscape l = (true, l') ↔
    ∃ text ch, EscapeText text ch ∧ Reads l text (utf8EncodeChar ch) l' := by
  rw [scanEscape, current_get]
  constructor
  · intro h
    rcases hhead : l.input.head? with _ | c
    · simp [hhead] at h
    · simp only [hhead] at h
      rcases hescape : escapes.lookup c with _ | b
      · simp only [hescape] at h
        split_ifs at h with hu
        · obtain ⟨text, ch, htext, hreads⟩ := scanUnicodeEscape_iff.1 h
          exact ⟨0x75 :: text, ch, htext, reads_cons.2 ⟨hu ▸ hhead, hreads⟩⟩
        · simp at h
      · simp only [hescape, Prod.mk.injEq, true_and] at h
        obtain ⟨hmem, hencode⟩ := mem_shortEscapes hescape
        refine ⟨[c], _, .short hmem, reads_cons.2 ⟨hhead, ?_⟩⟩
        rw [hencode, ← reads_add, reads_nil]
        exact h.symm
  · rintro ⟨text, ch, htext, hreads⟩
    cases htext with
    | short hmem =>
      obtain ⟨hb, hch⟩ := lookup_escapes hmem
      obtain ⟨hhead, hreads⟩ := reads_cons.1 hreads
      simp only [hhead, hb]
      rw [hch, ← reads_add, reads_nil] at hreads
      rw [hreads]
    | unicode hdigits =>
      obtain ⟨hhead, hreads⟩ := reads_cons.1 hreads
      have hnone : escapes.lookup 0x75 = none := rfl
      simp only [hhead, hnone, if_true]
      exact scanUnicodeEscape_iff.2 ⟨_, ch, .unicode hdigits, hreads⟩
    | surrogates hdigits hdigits' hhigh hlow hvalue =>
      obtain ⟨hhead, hreads⟩ := reads_cons.1 hreads
      have hnone : escapes.lookup 0x75 = none := rfl
      simp only [hhead, hnone, if_true]
      exact scanUnicodeEscape_iff.2
        ⟨_, ch, .surrogates hdigits hdigits' hhigh hlow hvalue, hreads⟩

/-! ## Characters -/

/-- Bytes in ranges. -/
def InRanges (ranges : List (Nat × Nat)) (text : List UInt8) : Prop :=
  List.Forall₂ (fun range c => range.1 ≤ c.toNat ∧ c.toNat ≤ range.2) ranges text

theorem bytesInRange_iff {ranges : List (Nat × Nat)} :
    bytesInRange ranges l = (true, l') ↔ ∃ text, InRanges ranges text ∧ Reads l text text l' := by
  induction ranges generalizing l with
  | nil => simp [bytesInRange, InRanges, eq_comm]
  | cons range ranges ih =>
    obtain ⟨low, high⟩ := range
    rw [bytesInRange, current_get]
    constructor
    · intro h
      rcases hhead : l.input.head? with _ | c
      · simp [hhead] at h
      · simp only [hhead] at h
        split_ifs at h with hrange
        · obtain ⟨text, htext, hreads⟩ := ih.1 h
          exact ⟨c :: text, .cons hrange htext, reads_cons.2 ⟨hhead, reads_add.1 hreads⟩⟩
        · simp at h
    · rintro ⟨_, ⟨⟩ | @⟨_, c, _, text, hrange, htext⟩, hreads⟩
      obtain ⟨hhead, hreads⟩ := reads_cons.1 hreads
      simp only [hhead, if_pos hrange]
      exact ih.2 ⟨text, htext, reads_add.2 hreads⟩

/-- The ranges are those of the well-formed sequences. -/
theorem inRanges_iff : (∃ ranges, rangesAfter c.toNat = some ranges ∧ InRanges ranges text) ↔
    Utf8.IsSequence (c :: text) := by
  simp only [InRanges]
  constructor
  · rintro ⟨ranges, hranges, htext⟩
    unfold rangesAfter at hranges
    split_ifs at hranges with hlead hE0 hthree hED hF0 hfour hF4 <;>
      obtain rfl := Option.some.inj hranges
    · rcases htext with _ | ⟨h₁, ⟨⟩⟩
      exact .two hlead.1 hlead.2 h₁
    · rcases htext with _ | ⟨h₁, _ | ⟨h₂, ⟨⟩⟩⟩
      exact .three (by omega) (by omega) ⟨by omega, h₁.2⟩ h₂ (fun _ => h₁.1) (by omega)
    · rcases htext with _ | ⟨h₁, _ | ⟨h₂, ⟨⟩⟩⟩
      exact .three (by omega) (by omega) h₁ h₂ (by omega) (by omega)
    · rcases htext with _ | ⟨h₁, _ | ⟨h₂, ⟨⟩⟩⟩
      exact .three (by omega) (by omega) ⟨h₁.1, by omega⟩ h₂ (by omega) (fun _ => h₁.2)
    · rcases htext with _ | ⟨h₁, _ | ⟨h₂, _ | ⟨h₃, ⟨⟩⟩⟩⟩
      exact .four (by omega) (by omega) ⟨by omega, h₁.2⟩ h₂ h₃ (fun _ => h₁.1) (by omega)
    · rcases htext with _ | ⟨h₁, _ | ⟨h₂, _ | ⟨h₃, ⟨⟩⟩⟩⟩
      exact .four (by omega) (by omega) h₁ h₂ h₃ (by omega) (by omega)
    · rcases htext with _ | ⟨h₁, _ | ⟨h₂, _ | ⟨h₃, ⟨⟩⟩⟩⟩
      exact .four (by omega) (by omega) ⟨h₁.1, by omega⟩ h₂ h₃ (by omega) (fun _ => h₁.2)
  · intro h
    cases h with
    | two h₀ h₀' h₁ =>
      exact ⟨[(0x80, 0xBF)], if_pos ⟨h₀, h₀'⟩, .cons h₁ .nil⟩
    | three h₀ h₀' h₁ h₂ hlow hhigh =>
      unfold rangesAfter
      rw [if_neg (by omega)]
      split_ifs with hE0 hthree hED hF0 hfour hF4
      · exact ⟨_, rfl, .cons ⟨hlow hE0, h₁.2⟩ (.cons h₂ .nil)⟩
      · exact ⟨_, rfl, .cons h₁ (.cons h₂ .nil)⟩
      · exact ⟨_, rfl, .cons ⟨h₁.1, hhigh hED⟩ (.cons h₂ .nil)⟩
      all_goals omega
    | four h₀ h₀' h₁ h₂ h₃ hlow hhigh =>
      unfold rangesAfter
      rw [if_neg (by omega), if_neg (by omega), if_neg (by omega), if_neg (by omega)]
      split_ifs with hF0 hfour hF4
      · exact ⟨_, rfl, .cons ⟨hlow hF0, h₁.2⟩ (.cons h₂ (.cons h₃ .nil))⟩
      · exact ⟨_, rfl, .cons h₁ (.cons h₂ (.cons h₃ .nil))⟩
      · exact ⟨_, rfl, .cons ⟨h₁.1, hhigh hF4⟩ (.cons h₂ (.cons h₃ .nil))⟩
      · omega

/-- The bytes of a character, from the first one. -/
theorem encodeChar_eq_cons {ch : Char} (h : utf8EncodeChar ch = c :: text) :
    c.toNat ≤ 0x7F ∧ ch.toNat = c.toNat ∧ text = [] ∨
      0x7F < c.toNat ∧ 0x80 ≤ ch.toNat ∧ Utf8.IsSequence (c :: text) := by
  rcases Nat.lt_or_ge ch.toNat 0x80 with hone | hmore
  · rw [Utf8.encodeChar_one hone] at h
    obtain ⟨hc, htext⟩ := List.cons.inj h
    have hvalue := (Utf8.ofNat_eq_iff (by omega)).1 hc
    exact .inl ⟨by omega, hvalue, htext.symm⟩
  · have hsequence := Utf8.isSequence_iff.2 ⟨ch, hmore, h⟩
    refine .inr ⟨?_, hmore, hsequence⟩
    cases hsequence <;> omega

theorem scanChar_iff (hcurrent : l.current = some c) (hc : c ≠ 0x22) :
    scanChar c l = (true, l') ↔
      ∃ text ch, CharText (c :: text) ch ∧ Reads l text (utf8EncodeChar ch) l' := by
  have hchar : l.currentChar = c := by rw [currentChar, hcurrent]; rfl
  rw [scanChar]
  constructor
  · intro h
    split_ifs at h with hbackslash hcontrol hascii
    · obtain ⟨text, ch, htext, hreads⟩ := scanEscape_iff.1 h
      exact ⟨text, ch, hbackslash ▸ .escape htext, hreads⟩
    · simp at h
    · obtain ⟨ch, hch⟩ := Utf8.exists_char (n := c.toNat) (.inl (by omega))
      have hencode : utf8EncodeChar ch = [c] := by
        rw [Utf8.encodeChar_one (by omega), hch, UInt8.ofNat_toNat]
      refine ⟨[], ch, hencode ▸ .plain (by omega) ?_ ?_, ?_⟩
      · exact fun h => hc (UInt8.toNat_inj.1 (hch ▸ h))
      · exact fun h => hbackslash (UInt8.toNat_inj.1 (hch ▸ h))
      · rw [hencode, ← reads_add, reads_nil]
        exact (Prod.mk.inj h).2.symm
    · rcases hranges : rangesAfter c.toNat with _ | ranges
      · simp [hranges] at h
      · simp only [hranges, nextByteInRange, hchar] at h
        obtain ⟨text, htext, hreads⟩ := bytesInRange_iff.1 h
        obtain ⟨ch, hch, hencode⟩ :=
          Utf8.isSequence_iff.1 (inRanges_iff.1 ⟨ranges, hranges, htext⟩)
        refine ⟨text, ch, hencode ▸ .plain ?_ ?_ ?_, hencode ▸ reads_add.1 hreads⟩ <;> omega
  · rintro ⟨text, ch, htext, hreads⟩
    obtain ⟨bytes, hbytes⟩ : ∃ bytes, bytes = c :: text := ⟨_, rfl⟩
    rw [← hbytes] at htext
    cases htext with
    | escape htext =>
      obtain ⟨rfl, rfl⟩ := List.cons.inj hbytes
      rw [if_pos rfl]
      exact scanEscape_iff.2 ⟨_, ch, htext, hreads⟩
    | plain hcontrol hquote hbackslash =>
      rcases encodeChar_eq_cons hbytes with ⟨hascii, hvalue, rfl⟩ | ⟨hascii, hvalue, hsequence⟩
      · rw [hbytes, ← reads_add, reads_nil] at hreads
        have hc : c ≠ 0x5C := fun h => hbackslash (hvalue.trans (congrArg UInt8.toNat h))
        rw [if_neg hc, if_neg (by omega), if_pos hascii, hreads]
      · obtain ⟨ranges, hranges, hin⟩ := inRanges_iff.2 hsequence
        have hc : c ≠ 0x5C := by
          rintro rfl
          exact absurd hascii (by decide)
        rw [if_neg hc, if_neg (by omega), if_neg (by omega), hranges]
        simp only [nextByteInRange, hchar]
        exact bytesInRange_iff.2 ⟨text, hin, reads_add.2 (hbytes ▸ hreads)⟩

/-! ## Strings -/

/-- No character begins with a quote. -/
theorem CharText.exists_cons {bytes : List UInt8} {ch : Char} (h : CharText bytes ch) :
    ∃ c text, bytes = c :: text ∧ c ≠ 0x22 := by
  cases h with
  | escape => exact ⟨_, _, rfl, by decide⟩
  | plain hcontrol hquote hbackslash =>
    obtain ⟨c, text, hbytes⟩ := List.exists_cons_of_ne_nil (String.utf8EncodeChar_ne_nil (c := ch))
    refine ⟨c, text, hbytes, ?_⟩
    rintro rfl
    rcases encodeChar_eq_cons hbytes with ⟨-, h, -⟩ | ⟨h, -, -⟩
    · exact hquote h
    · exact absurd h (by decide)

/-- At the end of the input, nothing can be read. -/
theorem not_reads_of_nil (h : l.input = []) : ¬Reads l (text ++ [c]) added l' := by
  intro hreads
  have hinput := hreads.input
  simp [h] at hinput

theorem scanStringFrom_iff {bound : Nat} (hbound : l.input.length ≤ bound) :
    scanStringFrom bound l = (.valueString, l') ↔
      ∃ body text, StringText body text ∧ Reads l (body ++ [0x22]) (Utf8.encode text) l' := by
  induction bound generalizing l with
  | zero =>
    have hnil := List.eq_nil_of_length_eq_zero (Nat.le_zero.1 hbound)
    simp [scanStringFrom, not_reads_of_nil hnil]
  | succ bound ih =>
    rw [scanStringFrom, current_get]
    rcases hhead : l.input.head? with _ | c
    · simp [not_reads_of_nil (List.head?_eq_none_iff.1 hhead)]
    · have hlength : l.get.input.length ≤ bound := by
        rw [input_get, List.length_tail]
        omega
      constructor
      · intro h
        dsimp only at h
        split_ifs at h with hquote
        · refine ⟨[], [], .nil, reads_cons.2 ⟨hquote ▸ hhead, ?_⟩⟩
          exact reads_nil.2 (Prod.mk.inj h).2.symm
        · rcases hscan : scanChar c l.get with ⟨_ | _, l₁⟩
          · simp [hscan] at h
          · simp only [hscan] at h
            obtain ⟨bytes, ch, hchar, hreads⟩ :=
              (scanChar_iff (by rw [current_get, hhead]) hquote).1 hscan
            have hle := congrArg List.length hreads.input
            rw [List.length_append] at hle
            obtain ⟨body, text, htext, hreads'⟩ := (ih (by omega)).1 h
            refine ⟨_, _, .cons hchar htext, ?_⟩
            rw [List.append_assoc, List.cons_append, Utf8.encode_cons]
            exact reads_cons.2 ⟨hhead, reads_append.2 ⟨l₁, hreads, hreads'⟩⟩
      · rintro ⟨_, _, ⟨⟩ | ⟨hchar, htext⟩, hreads⟩
        · obtain ⟨hquote, hreads⟩ := reads_cons.1 hreads
          obtain rfl := Option.some.inj (hhead.symm.trans hquote)
          simp only [if_true, reads_nil.1 hreads]
        · obtain ⟨c', bytes, rfl, hquote⟩ := hchar.exists_cons
          rw [List.append_assoc, List.cons_append, Utf8.encode_cons] at hreads
          obtain ⟨hhead', hget⟩ := reads_cons.1 hreads
          obtain rfl := Option.some.inj (hhead.symm.trans hhead')
          obtain ⟨l₁, hbytes, hreads'⟩ := reads_append.1 hget
          have hscan := (scanChar_iff (by rw [current_get, hhead]) hquote).2
            ⟨_, _, hchar, hbytes⟩
          have hle := congrArg List.length hbytes.input
          rw [List.length_append] at hle
          simp only [if_neg hquote, hscan]
          exact (ih (by omega)).2 ⟨_, _, htext, hreads'⟩

/-- The lexer accepts the strings of the grammar, after the opening quote. -/
theorem scanString_iff : scanString l = (.valueString, l') ↔
    ∃ body text, StringText body text ∧ Reads l.reset (body ++ [0x22]) (Utf8.encode text) l' :=
  scanStringFrom_iff (Nat.le_refl _)

end Hostcontrold.Json
