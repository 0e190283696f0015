import Hostcontrold.Json.Serializer

/-!
# Valid strings

The check of the serializer accepts the UTF-8 encodings of texts, and no other strings
(`throwIfInvalidUtf8_iff`). What the automaton accepts from each state is read off its table:
the state 0 is the one between two characters, and the other states that do not reject wait for
the bytes that are missing, the first one of them in a certain range.
-/

namespace Hostcontrold.Json.Serializer

variable {b : UInt8} {bytes rest seq : List UInt8} {state state' : Nat}

/-! ## The table -/

/-- The class of a byte. -/
def byteClass (n : Nat) : Nat :=
  if n < 0x80 then 0 else if n < 0x90 then 1 else if n < 0xa0 then 9 else if n < 0xc0 then 7
  else if n < 0xc2 then 8 else if n < 0xe0 then 2 else if n = 0xe0 then 10
  else if n = 0xed then 4 else if n < 0xf0 then 3 else if n = 0xf0 then 11
  else if n < 0xf4 then 6 else if n = 0xf4 then 5 else 8

/-- The next state for a class. -/
def afterClass (state type : Nat) : Nat := utf8d.getD (256 + state * 16 + type) 0

set_option maxRecDepth 1000 in
theorem take_utf8d : utf8d.take 256 = (List.range 256).map byteClass := by decide

theorem decode_eq (b : UInt8) : decode state b = afterClass state (byteClass b.toNat) := by
  have hlookup : utf8d.getD b.toNat 0 = byteClass b.toNat := by
    rw [List.getD_eq_getElem?_getD, ← List.getElem?_take_of_lt b.toNat_lt, take_utf8d,
      List.getElem?_map, List.getElem?_range b.toNat_lt]
    rfl
  exact congrArg (afterClass state) hlookup

-- The continuation bytes have three classes, told apart by the first four tests.
theorem byteClass_eq_one_iff {n : Nat} : byteClass n = 1 ↔ 0x80 ≤ n ∧ n ≤ 0x8f := by
  rcases Nat.lt_or_ge n 0xc0 with h | h <;> grind [byteClass]

theorem byteClass_eq_nine_iff {n : Nat} : byteClass n = 9 ↔ 0x90 ≤ n ∧ n ≤ 0x9f := by
  rcases Nat.lt_or_ge n 0xc0 with h | h <;> grind [byteClass]

theorem byteClass_eq_seven_iff {n : Nat} : byteClass n = 7 ↔ 0xa0 ≤ n ∧ n ≤ 0xbf := by
  rcases Nat.lt_or_ge n 0xc0 with h | h <;> grind [byteClass]

theorem byteClass_lt (n : Nat) : byteClass n < 12 := by
  rcases Nat.lt_or_ge n 0xe0 with h | h <;> grind [byteClass]

theorem decode_reject : decode 1 b = 1 := by
  have h : ∀ type < 12, afterClass 1 type = 1 := by decide
  exact (decode_eq b).trans (h _ (byteClass_lt _))

/-! ## What is accepted -/

/-- From a state, the automaton ends between two characters. -/
def Accepts (state : Nat) (bytes : List UInt8) : Prop := bytes.foldl decode state = 0

theorem accepts_cons : Accepts state (b :: bytes) ↔ Accepts (decode state b) bytes := Iff.rfl

theorem not_accepts_reject : ¬Accepts 1 bytes := by
  induction bytes with
  | nil => exact Nat.one_ne_zero
  | cons b bytes ih =>
    intro h
    refine ih ?_
    rwa [Accepts, List.foldl_cons, decode_reject] at h

/-- The loop stops at the first rejected byte, as the automaton stays in this state. -/
theorem throwIfInvalidFrom_iff {str : List UInt8} {i : Nat} :
    throwIfInvalidFrom str state i bytes = .ok () ↔ Accepts state bytes := by
  induction bytes generalizing state i with
  | nil =>
    rw [throwIfInvalidFrom]
    by_cases h : state = 0
    · rw [if_neg (not_not.2 h)]
      exact iff_of_true rfl h
    · rw [if_pos h]
      exact iff_of_false (fun he => by cases he) h
  | cons b bytes ih =>
    rw [throwIfInvalidFrom, accepts_cons]
    split_ifs with h
    · rw [h]
      exact iff_of_false (fun he => by cases he) not_accepts_reject
    · exact ih

/-! ## The states -/

/-- A state that waits for a byte in a range, which are the bytes of some classes. -/
theorem accepts_iff_of_range {classes : List Nat} {low high : Nat} (hstate : state ≠ 0)
    (hnext : ∀ type < 12, afterClass state type = if type ∈ classes then state' else 1)
    (hrange : ∀ n, byteClass n ∈ classes ↔ low ≤ n ∧ n ≤ high) :
    Accepts state bytes ↔
      ∃ b rest, bytes = b :: rest ∧ (low ≤ b.toNat ∧ b.toNat ≤ high) ∧ Accepts state' rest := by
  rcases bytes with _ | ⟨b, rest⟩
  · exact iff_of_false hstate fun ⟨_, _, he, _⟩ => by cases he
  · rw [accepts_cons, decode_eq, hnext _ (byteClass_lt _)]
    split_ifs with hb
    · constructor
      · exact fun ha => ⟨b, rest, rfl, (hrange _).1 hb, ha⟩
      · rintro ⟨_, _, he, -, ha⟩
        cases he
        exact ha
    · refine iff_of_false not_accepts_reject ?_
      rintro ⟨_, _, he, hb', -⟩
      cases he
      exact hb ((hrange _).2 hb')

theorem continues_iff (n : Nat) : byteClass n ∈ [1, 9, 7] ↔ 0x80 ≤ n ∧ n ≤ 0xbf := by
  simp only [List.mem_cons, List.not_mem_nil, or_false, byteClass_eq_one_iff,
    byteClass_eq_nine_iff, byteClass_eq_seven_iff]
  omega

theorem accepts_two : Accepts 2 bytes ↔
    ∃ b rest, bytes = b :: rest ∧ Utf8.Continues b ∧ Accepts 0 rest :=
  accepts_iff_of_range (by decide) (by decide) continues_iff

theorem accepts_three : Accepts 3 bytes ↔
    ∃ b rest, bytes = b :: rest ∧ Utf8.Continues b ∧ Accepts 2 rest :=
  accepts_iff_of_range (by decide) (by decide) continues_iff

/-- After the byte E0, there is no overlong encoding. -/
theorem accepts_four : Accepts 4 bytes ↔
    ∃ b rest, bytes = b :: rest ∧ (0xa0 ≤ b.toNat ∧ b.toNat ≤ 0xbf) ∧ Accepts 2 rest :=
  @accepts_iff_of_range _ _ _ [7] _ _ (by decide) (by decide) fun _ => by
    rw [List.mem_singleton, byteClass_eq_seven_iff]

/-- After the byte ED, there are no surrogates. -/
theorem accepts_five : Accepts 5 bytes ↔
    ∃ b rest, bytes = b :: rest ∧ (0x80 ≤ b.toNat ∧ b.toNat ≤ 0x9f) ∧ Accepts 2 rest :=
  @accepts_iff_of_range _ _ _ [1, 9] _ _ (by decide) (by decide) fun _ => by
    rw [List.mem_pair, byteClass_eq_one_iff, byteClass_eq_nine_iff]
    omega

/-- After the byte F0, there is no overlong encoding. -/
theorem accepts_six : Accepts 6 bytes ↔
    ∃ b rest, bytes = b :: rest ∧ (0x90 ≤ b.toNat ∧ b.toNat ≤ 0xbf) ∧ Accepts 3 rest :=
  @accepts_iff_of_range _ _ _ [9, 7] _ _ (by decide) (by decide) fun _ => by
    rw [List.mem_pair, byteClass_eq_nine_iff, byteClass_eq_seven_iff]
    omega

theorem accepts_seven : Accepts 7 bytes ↔
    ∃ b rest, bytes = b :: rest ∧ Utf8.Continues b ∧ Accepts 3 rest :=
  accepts_iff_of_range (by decide) (by decide) continues_iff

/-- After the byte F4, the code points end at 10FFFF. -/
theorem accepts_eight : Accepts 8 bytes ↔
    ∃ b rest, bytes = b :: rest ∧ (0x80 ≤ b.toNat ∧ b.toNat ≤ 0x8f) ∧ Accepts 3 rest :=
  @accepts_iff_of_range _ _ _ [1] _ _ (by decide) (by decide) fun _ => by
    rw [List.mem_singleton, byteClass_eq_one_iff]

/-- The states after the first byte of a character. -/
theorem decode_zero (b : UInt8) : decode 0 b =
    if b.toNat < 0x80 then 0 else if b.toNat < 0xc2 then 1 else if b.toNat ≤ 0xdf then 2
    else if b.toNat = 0xe0 then 4 else if b.toNat = 0xed then 5 else if b.toNat ≤ 0xef then 3
    else if b.toNat = 0xf0 then 6 else if b.toNat ≤ 0xf3 then 7 else if b.toNat = 0xf4 then 8
    else 1 := by
  have hafter : afterClass 0 0 = 0 ∧ afterClass 0 1 = 1 ∧ afterClass 0 9 = 1 ∧
      afterClass 0 7 = 1 ∧ afterClass 0 8 = 1 ∧ afterClass 0 2 = 2 ∧ afterClass 0 10 = 4 ∧
      afterClass 0 4 = 5 ∧ afterClass 0 3 = 3 ∧ afterClass 0 11 = 6 ∧ afterClass 0 6 = 7 ∧
      afterClass 0 5 = 8 := by decide
  rw [decode_eq]
  rcases Nat.lt_or_ge b.toNat 0xe0 with h | h <;> grind [byteClass]

/-! ## Texts -/

/-- A character of several bytes is read. -/
theorem accepts_append (hseq : Utf8.IsSequence seq) (hrest : Accepts 0 rest) :
    Accepts 0 (seq ++ rest) := by
  cases hseq with
  | @two b₀ _ h h' h₁ =>
    have hfirst : decode 0 b₀ = 2 := by
      rw [decode_zero, if_neg (by omega), if_neg (by omega), if_pos h']
    rw [List.cons_append, accepts_cons, hfirst]
    exact accepts_two.2 ⟨_, _, rfl, h₁, hrest⟩
  | @three b₀ b₁ b₂ h h' h₁ h₂ hlow hhigh =>
    have hlast : Accepts 2 (b₂ :: rest) := accepts_two.2 ⟨_, _, rfl, h₂, hrest⟩
    rw [List.cons_append, accepts_cons, decode_zero, if_neg (by omega), if_neg (by omega),
      if_neg (by omega)]
    split_ifs with hfour hfive
    · exact accepts_four.2 ⟨_, _, rfl, ⟨hlow hfour, h₁.2⟩, hlast⟩
    · exact accepts_five.2 ⟨_, _, rfl, ⟨h₁.1, hhigh hfive⟩, hlast⟩
    · exact accepts_three.2 ⟨_, _, rfl, h₁, hlast⟩
  | @four b₀ b₁ b₂ b₃ h h' h₁ h₂ h₃ hlow hhigh =>
    have hlast : Accepts 3 (b₂ :: b₃ :: rest) :=
      accepts_three.2 ⟨_, _, rfl, h₂, accepts_two.2 ⟨_, _, rfl, h₃, hrest⟩⟩
    rw [List.cons_append, accepts_cons, decode_zero, if_neg (by omega), if_neg (by omega),
      if_neg (by omega), if_neg (by omega), if_neg (by omega), if_neg (by omega)]
    split_ifs with hsix hseven height
    · exact accepts_six.2 ⟨_, _, rfl, ⟨hlow hsix, h₁.2⟩, hlast⟩
    · exact accepts_seven.2 ⟨_, _, rfl, h₁, hlast⟩
    · exact accepts_eight.2 ⟨_, _, rfl, ⟨h₁.1, hhigh height⟩, hlast⟩
    · omega

/-- What is accepted begins with a character. -/
theorem exists_of_accepts (h : Accepts 0 (b :: rest)) : b.toNat < 0x80 ∧ Accepts 0 rest ∨
    ∃ seq rest', Utf8.IsSequence seq ∧ b :: rest = seq ++ rest' ∧ Accepts 0 rest' := by
  rw [accepts_cons, decode_zero] at h
  split_ifs at h with h₀ h₁ htwo hfour hfive hthree hsix hseven height
  · exact .inl ⟨h₀, h⟩
  · exact absurd h not_accepts_reject
  · obtain ⟨b₁, rest, rfl, hb₁, h⟩ := accepts_two.1 h
    exact .inr ⟨[b, b₁], rest, .two (by omega) htwo hb₁, rfl, h⟩
  · obtain ⟨b₁, rest, rfl, ⟨hlow, hhigh⟩, h⟩ := accepts_four.1 h
    obtain ⟨b₂, rest, rfl, hb₂, h⟩ := accepts_two.1 h
    exact .inr ⟨[b, b₁, b₂], rest, .three (by omega) (by omega) ⟨by omega, hhigh⟩ hb₂
      (fun _ => hlow) (by omega), rfl, h⟩
  · obtain ⟨b₁, rest, rfl, ⟨hlow, hhigh⟩, h⟩ := accepts_five.1 h
    obtain ⟨b₂, rest, rfl, hb₂, h⟩ := accepts_two.1 h
    exact .inr ⟨[b, b₁, b₂], rest, .three (by omega) (by omega) ⟨hlow, by omega⟩ hb₂
      (by omega) (fun _ => hhigh), rfl, h⟩
  · obtain ⟨b₁, rest, rfl, hb₁, h⟩ := accepts_three.1 h
    obtain ⟨b₂, rest, rfl, hb₂, h⟩ := accepts_two.1 h
    exact .inr ⟨[b, b₁, b₂], rest, .three (by omega) hthree hb₁ hb₂ (by omega) (by omega), rfl, h⟩
  · obtain ⟨b₁, rest, rfl, ⟨hlow, hhigh⟩, h⟩ := accepts_six.1 h
    obtain ⟨b₂, rest, rfl, hb₂, h⟩ := accepts_three.1 h
    obtain ⟨b₃, rest, rfl, hb₃, h⟩ := accepts_two.1 h
    exact .inr ⟨[b, b₁, b₂, b₃], rest, .four (by omega) (by omega) ⟨by omega, hhigh⟩ hb₂ hb₃
      (fun _ => hlow) (by omega), rfl, h⟩
  · obtain ⟨b₁, rest, rfl, hb₁, h⟩ := accepts_seven.1 h
    obtain ⟨b₂, rest, rfl, hb₂, h⟩ := accepts_three.1 h
    obtain ⟨b₃, rest, rfl, hb₃, h⟩ := accepts_two.1 h
    exact .inr ⟨[b, b₁, b₂, b₃], rest, .four (by omega) (by omega) hb₁ hb₂ hb₃ (by omega)
      (by omega), rfl, h⟩
  · obtain ⟨b₁, rest, rfl, ⟨hlow, hhigh⟩, h⟩ := accepts_eight.1 h
    obtain ⟨b₂, rest, rfl, hb₂, h⟩ := accepts_three.1 h
    obtain ⟨b₃, rest, rfl, hb₃, h⟩ := accepts_two.1 h
    exact .inr ⟨[b, b₁, b₂, b₃], rest, .four (by omega) (by omega) ⟨hlow, by omega⟩ hb₂ hb₃
      (by omega) (fun _ => hhigh), rfl, h⟩
  · exact absurd h not_accepts_reject

theorem accepts_encode (text : List Char) : Accepts 0 (Utf8.encode text) := by
  induction text with
  | nil => rfl
  | cons c text ih =>
    rw [Utf8.encode_cons]
    rcases Nat.lt_or_ge c.toNat 0x80 with hascii | hseq
    · have hfirst : decode 0 (.ofNat c.toNat) = 0 := by
        rw [decode_zero, UInt8.toNat_ofNat', if_pos (by omega)]
      rw [Utf8.encodeChar_one hascii, List.singleton_append, accepts_cons, hfirst]
      exact ih
    · exact accepts_append (Utf8.isSequence_iff.2 ⟨c, hseq, rfl⟩) ih

theorem encode_of_accepts {bound : Nat} (hbound : bytes.length ≤ bound) (h : Accepts 0 bytes) :
    ∃ text, Utf8.encode text = bytes := by
  induction bound generalizing bytes with
  | zero => exact ⟨[], (List.eq_nil_of_length_eq_zero (Nat.le_zero.1 hbound)).symm⟩
  | succ bound ih =>
    rcases bytes with _ | ⟨b, rest⟩
    · exact ⟨[], rfl⟩
    · rcases exists_of_accepts h with ⟨hascii, h⟩ | ⟨seq, rest', hseq, hsplit, h⟩
      · obtain ⟨text, rfl⟩ := ih (Nat.le_of_succ_le_succ hbound) h
        obtain ⟨c, hc⟩ := Utf8.exists_char (.inl (by omega : b.toNat < 0xd800))
        refine ⟨c :: text, ?_⟩
        rw [Utf8.encode_cons, Utf8.encodeChar_one (by omega), hc, UInt8.ofNat_toNat]
        rfl
      · obtain ⟨c, -, hc⟩ := Utf8.isSequence_iff.1 hseq
        have hpos : 0 < seq.length := hc ▸ String.length_utf8EncodeChar c ▸ c.utf8Size_pos
        have hlength := congrArg List.length hsplit
        rw [List.length_append] at hlength
        obtain ⟨text, rfl⟩ := ih (by omega) h
        exact ⟨c :: text, by rw [Utf8.encode_cons, hc, hsplit]⟩

/-- The strings that pass the check are the encodings of the texts. -/
theorem throwIfInvalidUtf8_iff :
    throwIfInvalidUtf8 bytes = .ok () ↔ ∃ text, Utf8.encode text = bytes := by
  refine throwIfInvalidFrom_iff.trans ⟨encode_of_accepts (Nat.le_refl _), ?_⟩
  rintro ⟨text, rfl⟩
  exact accepts_encode text

end Hostcontrold.Json.Serializer
