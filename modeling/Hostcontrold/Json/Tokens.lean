import Hostcontrold.Json.Numbers

/-!
# Reading tokens

What `scan` does on the input: it skips blanks, and reads a structural character
(`scan_structural_iff`) or the text of a value without parts (`scan_value_sound`,
`scan_value_complete`), as the grammar has it. Everything else is an error, or the end.
-/

namespace Hostcontrold.Json

open Lexer

variable {strtod : List UInt8 → Option ℚ} {l l' : Lexer} {c : UInt8}
  {blanks text rest : List UInt8} {type : TokenType} {v : Json}

/-! ## Blanks -/

/-- Every text begins with blanks, and goes on with another character, or ends. -/
theorem exists_blanks (text : List UInt8) :
    ∃ blanks rest, text = blanks ++ rest ∧ Blanks blanks ∧ ∀ c ∈ rest.head?, ¬IsBlank c := by
  induction text with
  | nil => exact ⟨[], [], rfl, List.forall_mem_nil _, fun _ hc => nomatch hc⟩
  | cons c text ih =>
    by_cases hc : IsBlank c
    · obtain ⟨blanks, rest, rfl, hblanks, hrest⟩ := ih
      exact ⟨c :: blanks, rest, rfl, List.forall_mem_cons.2 ⟨hc, hblanks⟩, hrest⟩
    · refine ⟨[], c :: text, rfl, List.forall_mem_nil _, ?_⟩
      rintro _ ⟨⟩
      exact hc

theorem skipBlanks_eq {bound : Nat} (hbound : l.input.length ≤ bound) (hblanks : Blanks blanks)
    (hinput : l.input = blanks ++ rest) (hrest : ∀ c ∈ rest.head?, ¬IsBlank c) :
    (skipBlanks bound l).input = rest.tail ∧ (skipBlanks bound l).current = rest.head? := by
  induction bound generalizing l blanks with
  | zero =>
    have hnil := List.eq_nil_of_length_eq_zero (Nat.le_zero.1 hbound)
    obtain ⟨rfl, rfl⟩ := List.append_eq_nil_iff.1 (hinput.symm.trans hnil)
    simp [skipBlanks, hnil]
  | succ bound ih =>
    rw [skipBlanks, current_get]
    cases blanks with
    | nil =>
      rw [List.nil_append] at hinput
      subst hinput
      rcases hhead : l.input.head? with _ | c
      · simp [hhead]
      · simp [hhead, hrest c hhead]
    | cons c blanks =>
      obtain ⟨hc, hblanks⟩ := List.forall_mem_cons.1 hblanks
      have hlength : l.get.input.length ≤ bound := by
        rw [input_get, List.length_tail]
        omega
      simp only [hinput, List.cons_append, List.head?_cons, if_pos hc]
      exact ih hlength hblanks (by rw [input_get, hinput]; rfl)

/-- The token begins with the first character that is not blank. -/
theorem scan_of_cons (hblanks : Blanks blanks) (hinput : l.input = blanks ++ c :: rest)
    (hc : ¬IsBlank c) : ∃ l₁, scan strtod l = scanToken strtod c l₁ ∧ l₁.current = some c ∧
      l₁.input = rest := by
  obtain ⟨hrest, hcurrent⟩ := skipBlanks_eq (Nat.le_refl _) hblanks hinput (by simpa using hc)
  refine ⟨skipBlanks l.input.length l, ?_, hcurrent, hrest⟩
  rw [scan]
  simp only [hcurrent, List.head?_cons]

/-- Unless the input ends, there is a token. -/
theorem scan_cases : (scan strtod l).1 = .endOfInput ∨
    ∃ blanks c l₁, Blanks blanks ∧ l.input = blanks ++ c :: l₁.input ∧ l₁.current = some c ∧
      scan strtod l = scanToken strtod c l₁ := by
  obtain ⟨blanks, rest, hinput, hblanks, hrest⟩ := exists_blanks l.input
  cases rest with
  | nil =>
    obtain ⟨-, hcurrent⟩ := skipBlanks_eq (Nat.le_refl _) hblanks hinput hrest
    refine .inl ?_
    rw [scan]
    simp only [hcurrent, List.head?_nil]
  | cons c rest =>
    obtain ⟨l₁, hscan, hcurrent, rfl⟩ := scan_of_cons hblanks hinput (hrest c rfl)
    exact .inr ⟨blanks, c, l₁, hblanks, hinput, hcurrent, hscan⟩

/-! ## Literals -/

theorem scanLiteral_iff (htype : type ≠ .parseError) :
    scanLiteral text type l = (type, l') ↔ Reads l text [] l' := by
  induction text generalizing l with
  | nil => simp [scanLiteral, eq_comm]
  | cons c text ih =>
    rw [scanLiteral, reads_cons, current_get]
    split_ifs with hhead
    · rw [ih, and_iff_right hhead]
    · simp [hhead, htype.symm]

theorem scanLiteral_type : (scanLiteral text type l).1 = type ∨
    (scanLiteral text type l).1 = .parseError := by
  induction text generalizing l with
  | nil => exact .inl rfl
  | cons c text ih =>
    rw [scanLiteral]
    split_ifs
    · exact ih
    · exact .inr rfl

/-! ## Structural characters -/

theorem type_scanString : (scanString l).1 = .valueString ∨ (scanString l).1 = .parseError := by
  have hfrom (bound : Nat) (l : Lexer) : (scanStringFrom bound l).1 = .valueString ∨
      (scanStringFrom bound l).1 = .parseError := by
    induction bound generalizing l with
    | zero => exact .inr rfl
    | succ bound ih =>
      rw [scanStringFrom]
      split
      · exact .inr rfl
      · split_ifs
        · exact .inl rfl
        · split
          · exact ih _
          · exact .inr rfl
  exact hfrom _ _

theorem type_scanNumber (hcurrent : l.current = some c) (hc : c = 0x2D ∨ IsDigit c) :
    (scanNumber strtod l).1.IsNumber ∨ (scanNumber strtod l).1 = .parseError := by
  by_cases htype : (scanNumber strtod l).1 = .parseError
  · exact .inr htype
  · obtain ⟨_, -, -, -, hnumber, -⟩ := scanNumber_sound hcurrent hc htype rfl
    exact .inl hnumber

/-- The types of the tokens that begin with another character than the structural ones. -/
theorem type_scanToken (hcurrent : l.current = some c) (hc : structural.lookup c = none)
    (h : scanToken strtod c l = (type, l')) :
    type = .literalTrue ∨ type = .literalFalse ∨ type = .literalNull ∨ type = .valueString ∨
      type.IsNumber ∨ type = .endOfInput ∨ type = .parseError := by
  obtain rfl : (scanToken strtod c l).1 = type := congrArg Prod.fst h
  simp only [scanToken, hc]
  split_ifs with htrue hfalse hnull hquote hnumber hend
  · rcases @scanLiteral_type l [0x72, 0x75, 0x65] .literalTrue with h | h <;> simp [h]
  · rcases @scanLiteral_type l [0x61, 0x6C, 0x73, 0x65] .literalFalse with h | h <;> simp [h]
  · rcases @scanLiteral_type l [0x75, 0x6C, 0x6C] .literalNull with h | h <;> simp [h]
  · rcases @type_scanString l with h | h <;> simp [h]
  · rcases @type_scanNumber strtod l c hcurrent hnumber with h | h <;> simp [h]
  · simp
  · simp

/-- The types of the structural characters. -/
abbrev TokenType.IsStructural (type : TokenType) : Prop := type ∈ structural.map Prod.snd

/-- Only structural characters have their types. -/
theorem scanToken_structural (hcurrent : l.current = some c) (htype : type.IsStructural)
    (h : scanToken strtod c l = (type, l')) : structural.lookup c = some type ∧ l' = l := by
  rcases hlookup : structural.lookup c with _ | type'
  · rcases type_scanToken hcurrent hlookup h with rfl | rfl | rfl | rfl | (rfl | rfl | rfl) | rfl |
      rfl <;> exact absurd htype (by decide)
  · simp only [scanToken, hlookup] at h
    obtain ⟨rfl, rfl⟩ := Prod.mk.inj h
    exact ⟨rfl, rfl⟩

/-- The structural characters are not blank. -/
theorem not_isBlank_of_lookup (h : structural.lookup c = some type) : ¬IsBlank c := by
  rintro (rfl | rfl | rfl | rfl) <;> exact absurd h nofun

theorem scan_structural_iff (htype : type.IsStructural) :
    (∃ l', scan strtod l = (type, l') ∧ l'.input = rest) ↔
      ∃ blanks c, structural.lookup c = some type ∧ Blanks blanks ∧
        l.input = blanks ++ c :: rest := by
  constructor
  · rintro ⟨l', h, rfl⟩
    rcases @scan_cases strtod l with hend | ⟨blanks, c, l₁, hblanks, hinput, hcurrent, hscan⟩
    · obtain rfl : type = .endOfInput := by rwa [h] at hend
      exact absurd htype (by decide)
    · obtain ⟨hc, rfl⟩ := scanToken_structural hcurrent htype (hscan.symm.trans h)
      exact ⟨blanks, c, hc, hblanks, hinput⟩
  · rintro ⟨blanks, c, hc, hblanks, hinput⟩
    obtain ⟨l₁, hscan, -, hrest⟩ := scan_of_cons hblanks hinput (not_isBlank_of_lookup hc)
    refine ⟨l₁, hscan.trans ?_, hrest⟩
    simp only [scanToken, hc]

/-! ## Values -/

/-- Only a number goes on. -/
theorem endsBefore_of_head (h : ¬(c = 0x2D ∨ IsDigit c)) : EndsBefore (c :: text) rest := by
  intro _ _ suffix hnumber
  rw [List.cons_append] at hnumber
  exact h (number_cons_iff.1 hnumber).1

theorem toString_encode (text : List Char) : Utf8.toString (Utf8.encode text) = .ofList text := by
  rw [← Utf8.ofString_ofList, Utf8.toString_ofString]

theorem value?_parseError (hv : value? type l = some v) : type ≠ .parseError := by
  rintro rfl
  cases hv

theorem scanLiteral_value {literal : TokenType} (h : scanLiteral text literal l = (type, l'))
    (hv : value? type l' = some v) : type = literal ∧ l.input = text ++ l'.input := by
  obtain rfl : type = literal := by
    have htype := @scanLiteral_type l text literal
    rw [h] at htype
    exact htype.resolve_right (value?_parseError hv)
  exact ⟨rfl, ((scanLiteral_iff (value?_parseError hv)).1 h).input⟩

/-- A token with a value is the text of this value. -/
theorem scanToken_value_sound (hcurrent : l.current = some c)
    (h : scanToken strtod c l = (type, l')) (hv : value? type l' = some v) :
    ∃ text, Scalar strtod (c :: text) v ∧ EndsBefore (c :: text) l'.input ∧
      l.input = text ++ l'.input := by
  rcases hlookup : structural.lookup c with _ | type'
  · simp only [scanToken, hlookup] at h
    split_ifs at h with htrue hfalse hnull hquote hnumber hend
    · obtain ⟨rfl, hinput⟩ := scanLiteral_value h hv
      obtain rfl := Option.some.inj hv
      exact ⟨_, htrue ▸ .true, endsBefore_of_head (htrue ▸ by decide), hinput⟩
    · obtain ⟨rfl, hinput⟩ := scanLiteral_value h hv
      obtain rfl := Option.some.inj hv
      exact ⟨_, hfalse ▸ .false, endsBefore_of_head (hfalse ▸ by decide), hinput⟩
    · obtain ⟨rfl, hinput⟩ := scanLiteral_value h hv
      obtain rfl := Option.some.inj hv
      exact ⟨_, hnull ▸ .null, endsBefore_of_head (hnull ▸ by decide), hinput⟩
    · obtain rfl : type = .valueString := by
        have htype := @type_scanString l
        rw [h] at htype
        exact htype.resolve_right (value?_parseError hv)
      obtain ⟨body, key, htext, hreads⟩ := scanString_iff.1 h
      obtain rfl := Option.some.inj hv
      have hyytext : l'.yytext = Utf8.encode key := hreads.yytext
      refine ⟨body ++ [0x22], ?_, endsBefore_of_head (hquote ▸ by decide), hreads.input⟩
      rw [hquote, hyytext, toString_encode]
      exact .string htext
    · obtain ⟨text, hnum, hinput, hends, -, hvalue⟩ :=
        scanNumber_sound hcurrent hnumber (value?_parseError hv) h
      exact ⟨text, .number hnum (hvalue.symm.trans hv), hends, hinput⟩
    · obtain ⟨rfl, rfl⟩ := Prod.mk.inj h
      cases hv
    · exact absurd (Prod.mk.inj h).1.symm (value?_parseError hv)
  · simp only [scanToken, hlookup] at h
    obtain ⟨rfl, rfl⟩ := Prod.mk.inj h
    have htype : type'.IsStructural := by
      obtain ⟨before, after, hstructural, -⟩ := List.lookup_eq_some_iff.1 hlookup
      exact List.mem_map_of_mem (f := Prod.snd) (hstructural ▸ List.mem_append_cons_self)
    simp only [TokenType.IsStructural, structural, List.map_cons, List.map_nil, List.mem_cons,
      List.not_mem_nil, or_false] at htype
    rcases htype with rfl | rfl | rfl | rfl | rfl | rfl <;> cases hv

theorem scan_value_sound (h : scan strtod l = (type, l')) (hv : value? type l' = some v) :
    ∃ blanks text, Blanks blanks ∧ Scalar strtod text v ∧ EndsBefore text l'.input ∧
      l.input = blanks ++ text ++ l'.input := by
  rcases @scan_cases strtod l with hend | ⟨blanks, c, l₁, hblanks, hinput, hcurrent, hscan⟩
  · obtain rfl : type = .endOfInput := by rwa [h] at hend
    cases hv
  · obtain ⟨text, hscalar, hends, hrest⟩ :=
      scanToken_value_sound hcurrent (hscan.symm.trans h) hv
    exact ⟨blanks, c :: text, hblanks, hscalar, hends, by rw [hinput, hrest]; simp⟩

theorem scanToken_number (hc : c = 0x2D ∨ IsDigit c) :
    scanToken strtod c l = scanNumber strtod l := by
  have hne {d : UInt8} (hd : ¬(d = 0x2D ∨ IsDigit d)) : c ≠ d := fun h => hd (h ▸ hc)
  have hlookup : structural.lookup c = none := by
    rw [List.lookup_eq_none_iff]
    intro p hp
    have hall : ∀ p ∈ structural, ¬(p.1 = 0x2D ∨ IsDigit p.1) := by decide
    simpa using hne (hall p hp)
  simp only [scanToken, hlookup]
  rw [if_neg (hne (by decide)), if_neg (hne (by decide)), if_neg (hne (by decide)),
    if_neg (hne (by decide)), if_pos hc]

/-- The text of a value is read as a token with this value. -/
theorem scanToken_value_complete (hcurrent : l.current = some c)
    (hscalar : Scalar strtod (c :: text) v) (hends : EndsBefore (c :: text) rest)
    (hinput : l.input = text ++ rest) : ∃ type l', scanToken strtod c l = (type, l') ∧
      value? type l' = some v ∧ l'.input = rest := by
  obtain ⟨bytes, hbytes⟩ : ∃ bytes, bytes = c :: text := ⟨_, rfl⟩
  rw [← hbytes] at hscalar
  cases hscalar with
  | null | true | false =>
    obtain ⟨rfl, rfl⟩ := List.cons.inj hbytes
    obtain ⟨l', hreads, hrest⟩ := exists_reads hinput []
    exact ⟨_, l', (scanLiteral_iff (by decide)).2 hreads, rfl, hrest⟩
  | @string body key htext =>
    obtain ⟨rfl, rfl⟩ := List.cons.inj hbytes
    obtain ⟨l', hreads, hrest⟩ := @exists_reads l.reset _ _ hinput (Utf8.encode key)
    refine ⟨_, l', scanString_iff.2 ⟨body, key, htext, hreads⟩, ?_, hrest⟩
    have hyytext : l'.yytext = Utf8.encode key := hreads.yytext
    rw [value?, hyytext, toString_encode]
  | number hnumber hvalue =>
    subst hbytes
    obtain ⟨type, l', hscan, -, hrest, hv⟩ :=
      @scanNumber_complete _ _ _ strtod hcurrent _ hnumber hinput hends
    exact ⟨type, l', (scanToken_number (number_cons_iff.1 hnumber).1).trans hscan,
      hv.trans hvalue, hrest⟩

/-- No text of a value begins with a blank. -/
theorem Scalar.exists_cons (h : Scalar strtod text v) :
    ∃ c text', text = c :: text' ∧ ¬IsBlank c := by
  cases h with
  | null | true | false | string => exact ⟨_, _, rfl, by decide⟩
  | number hnumber =>
    obtain ⟨c, text, rfl⟩ := List.exists_cons_of_ne_nil (number_ne_nil hnumber)
    refine ⟨c, text, rfl, ?_⟩
    rintro (rfl | rfl | rfl | rfl) <;> exact absurd (number_cons_iff.1 hnumber).1 (by decide)

theorem scan_value_complete (hblanks : Blanks blanks) (hscalar : Scalar strtod text v)
    (hends : EndsBefore text rest) (hinput : l.input = blanks ++ text ++ rest) :
    ∃ type l', scan strtod l = (type, l') ∧ value? type l' = some v ∧ l'.input = rest := by
  obtain ⟨c, text', rfl, hc⟩ := hscalar.exists_cons
  rw [List.append_assoc, List.cons_append] at hinput
  obtain ⟨l₁, hscan, hcurrent, hrest⟩ := @scan_of_cons strtod _ _ _ _ hblanks hinput hc
  obtain ⟨type, l', htoken, hv, hrest'⟩ :=
    scanToken_value_complete hcurrent hscalar hends hrest
  exact ⟨type, l', hscan.trans htoken, hv, hrest'⟩

end Hostcontrold.Json
