import Hostcontrold.Json.Members
import Hostcontrold.Json.Tokens

/-!
# Parsing

The parser accepts an input if and only if it begins with a text of the grammar, and returns the
value of this text (`parse_eq_ok_iff`). Soundness is by induction on the fuel, completeness by
induction on the derivation. Otherwise, one of two exceptions is thrown (`isThrown_parse`): the
fuel never runs out, as every token that is accepted is read from the input.

What follows the value is ignored: it may be anything, unless the value is a number, which could
go on there (`parse_append`).
-/

namespace Hostcontrold.Json

open Lexer Json.Parser

variable {strtod : List UInt8 → Option ℚ} {p p' q : Parser} {v : Json} {fuel : Nat}
  {es : List Json} {ms : List (String × Json)} {text rest : List UInt8} {e : Failure}

/-! ## Steps -/

theorem Parser.expect_eq_ok_iff {expected : TokenType} {u : Unit} :
    p.expect expected = .ok u ↔ p.lastToken = expected := by
  rw [expect]
  split_ifs with h
  · simp [h]
  · simp [Ne.symm h]

/-- The exceptions that are thrown, for an unexpected token and for a number that is too
    large. -/
def Failure.IsThrown : Failure → Prop
  | .parseError id _ _ => id = 101
  | .outOfRange id _ => id = 406
  | .outOfFuel => False

/-- A value without parts is the last token. -/
theorem parseInternal_value (h : value? p.lastToken p.lexer = some v) :
    parseInternal strtod (fuel + 1) p = .ok (v, p) := by
  rw [parseInternal]
  cases htoken : p.lastToken with
  | valueFloat =>
    rw [htoken, value?, Option.map_eq_some_iff] at h
    obtain ⟨x, hx, rfl⟩ := h
    simp only [hx]
  | _ =>
    rw [htoken] at h
    first
      | exact congrArg (fun v => Except.ok (v, p)) (Option.some.inj h)
      | cases h

/-- Other tokens do not begin a value, unless they begin an array or an object. -/
theorem parseInternal_error (hobject : p.lastToken ≠ .beginObject)
    (harray : p.lastToken ≠ .beginArray) (h : value? p.lastToken p.lexer = none) :
    ∃ e : Failure, parseInternal strtod (fuel + 1) p = .error e ∧ e.IsThrown := by
  rw [parseInternal]
  cases htoken : p.lastToken with
  | valueFloat =>
    rw [htoken, value?, Option.map_eq_none_iff] at h
    rw [h]
    exact ⟨_, rfl, rfl⟩
  | beginObject => exact absurd htoken hobject
  | beginArray => exact absurd htoken harray
  | literalNull | literalTrue | literalFalse | valueString | valueUnsigned | valueInteger =>
    rw [htoken] at h
    cases h
  | _ => exact ⟨_, rfl, rfl⟩

theorem parseInternal_beginObject (h : p.lastToken = .beginObject) :
    parseInternal strtod (fuel + 1) p =
      if (p.getToken strtod).lastToken = .endObject then .ok (.object [], p.getToken strtod)
      else parseMembers strtod fuel [] (p.getToken strtod) := by
  rw [parseInternal, h]

theorem parseInternal_beginArray (h : p.lastToken = .beginArray) :
    parseInternal strtod (fuel + 1) p =
      if (p.getToken strtod).lastToken = .endArray then .ok (.array [], p.getToken strtod)
      else parseElements strtod fuel [] (p.getToken strtod) := by
  rw [parseInternal, h]

/-- What is left to do after an element. -/
theorem parseElements_succ : parseElements strtod (fuel + 1) es p =
    parseInternal strtod fuel p >>= fun (v, p) =>
      if (p.getToken strtod).lastToken = .valueSeparator then
        parseElements strtod fuel (es ++ [v]) ((p.getToken strtod).getToken strtod)
      else (p.getToken strtod).expect .endArray >>= fun _ =>
        .ok (.array (es ++ [v]), p.getToken strtod) := by
  rw [parseElements]
  rfl

theorem parseMembers_succ : parseMembers strtod (fuel + 1) ms p =
    p.expect .valueString >>= fun _ => (p.getToken strtod).expect .nameSeparator >>= fun _ =>
      parseInternal strtod fuel ((p.getToken strtod).getToken strtod) >>= fun (v, p') =>
        let ms := emplace (Utf8.toString p.lexer.yytext) v ms
        if (p'.getToken strtod).lastToken = .valueSeparator then
          parseMembers strtod fuel ms ((p'.getToken strtod).getToken strtod)
        else (p'.getToken strtod).expect .endObject >>= fun _ =>
          .ok (.object ms, p'.getToken strtod) := by
  rw [parseMembers]
  rfl

theorem parseElements_last (hparse : parseInternal strtod fuel p = .ok (v, p'))
    (hend : (p'.getToken strtod).lastToken = .endArray) :
    parseElements strtod (fuel + 1) es p = .ok (.array (es ++ [v]), p'.getToken strtod) := by
  have hexpect : (p'.getToken strtod).expect .endArray = .ok () := expect_eq_ok_iff.2 hend
  rw [parseElements_succ, hparse]
  change (if _ then _ else _) = _
  rw [if_neg (by rw [hend]; decide), hexpect]
  rfl

theorem parseElements_next (hparse : parseInternal strtod fuel p = .ok (v, p'))
    (hseparator : (p'.getToken strtod).lastToken = .valueSeparator) :
    parseElements strtod (fuel + 1) es p =
      parseElements strtod fuel (es ++ [v]) ((p'.getToken strtod).getToken strtod) := by
  rw [parseElements_succ, hparse]
  exact if_pos hseparator

section Members

variable {key : String} (hkey : p.lastToken = .valueString)
  (hyytext : Utf8.toString p.lexer.yytext = key)
  (hname : (p.getToken strtod).lastToken = .nameSeparator)
  (hparse : parseInternal strtod fuel ((p.getToken strtod).getToken strtod) = .ok (v, p'))

include hkey hyytext hname hparse

theorem parseMembers_last (hend : (p'.getToken strtod).lastToken = .endObject) :
    parseMembers strtod (fuel + 1) ms p =
      .ok (.object (emplace key v ms), p'.getToken strtod) := by
  have hexpect : p.expect .valueString = .ok () := expect_eq_ok_iff.2 hkey
  have hexpect' : (p.getToken strtod).expect .nameSeparator = .ok () := expect_eq_ok_iff.2 hname
  have hexpect'' : (p'.getToken strtod).expect .endObject = .ok () := expect_eq_ok_iff.2 hend
  rw [parseMembers_succ, hexpect, hexpect', hparse, hyytext]
  change (if _ then _ else _) = _
  rw [if_neg (by rw [hend]; decide), hexpect'']
  rfl

theorem parseMembers_next (hseparator : (p'.getToken strtod).lastToken = .valueSeparator) :
    parseMembers strtod (fuel + 1) ms p =
      parseMembers strtod fuel (emplace key v ms) ((p'.getToken strtod).getToken strtod) := by
  have hexpect : p.expect .valueString = .ok () := expect_eq_ok_iff.2 hkey
  have hexpect' : (p.getToken strtod).expect .nameSeparator = .ok () := expect_eq_ok_iff.2 hname
  rw [parseMembers_succ, hexpect, hexpect', hparse, hyytext]
  exact if_pos hseparator

end Members

/-! ## Tokens -/

theorem lookup_structural_inj {c d : UInt8} {type : TokenType}
    (hc : structural.lookup c = some type) (hd : structural.lookup d = some type) : c = d := by
  have hmem {c : UInt8} (h : structural.lookup c = some type) : (c, type) ∈ structural := by
    obtain ⟨before, after, hstructural, -⟩ := List.lookup_eq_some_iff.1 h
    exact hstructural ▸ List.mem_append_cons_self
  have hinj : ∀ a ∈ structural, ∀ b ∈ structural, a.2 = b.2 → a.1 = b.1 := by decide
  exact hinj _ (hmem hc) _ (hmem hd) rfl

/-- A structural character has been read. -/
theorem getToken_structural {c : UInt8} {type : TokenType} (hc : structural.lookup c = some type)
    (h : (q.getToken strtod).lastToken = type) : ∃ blanks, Blanks blanks ∧
      q.lexer.input = blanks ++ c :: (q.getToken strtod).lexer.input := by
  have htype : type.IsStructural := by
    obtain ⟨before, after, hstructural, -⟩ := List.lookup_eq_some_iff.1 hc
    exact List.mem_map_of_mem (f := Prod.snd) (hstructural ▸ List.mem_append_cons_self)
  obtain ⟨blanks, d, hd, hblanks, hinput⟩ :=
    (@scan_structural_iff strtod q.lexer _ _ htype).1 ⟨_, Prod.ext h rfl, rfl⟩
  exact ⟨blanks, hblanks, lookup_structural_inj hd hc ▸ hinput⟩

/-- A structural character is read. -/
theorem exists_getToken {c : UInt8} {type : TokenType} {blanks : List UInt8}
    (hc : structural.lookup c = some type) (hblanks : Blanks blanks)
    (hinput : q.lexer.input = blanks ++ c :: rest) :
    (q.getToken strtod).lastToken = type ∧ (q.getToken strtod).lexer.input = rest := by
  obtain ⟨before, after, hstructural, -⟩ := List.lookup_eq_some_iff.1 hc
  have htype : type.IsStructural :=
    List.mem_map_of_mem (f := Prod.snd) (hstructural ▸ List.mem_append_cons_self)
  obtain ⟨l', hscan, hrest⟩ :=
    (@scan_structural_iff strtod q.lexer _ _ htype).2 ⟨blanks, c, hc, hblanks, hinput⟩
  rw [getToken, hscan]
  exact ⟨rfl, hrest⟩

/-! ## Soundness -/

/-- From the state before its first token, the text of a value has been read. -/
def ReadsValue (strtod : List UInt8 → Option ℚ) (q : Parser) (v : Json) (p' : Parser) : Prop :=
  ∃ blanks text, Blanks blanks ∧ Derives strtod (.value v) text ∧ EndsBefore text p'.lexer.input ∧
    q.lexer.input = blanks ++ text ++ p'.lexer.input

/-- The elements of an array, and its end. -/
def ReadsElements (strtod : List UInt8 → Option ℚ) (q : Parser) (vs : List Json) (p' : Parser) :
    Prop :=
  ∃ text, Derives strtod (.elements vs) text ∧ q.lexer.input = text ++ 0x5D :: p'.lexer.input

/-- The members of an object, and its end. -/
def ReadsMembers (strtod : List UInt8 → Option ℚ) (q : Parser) (ms : List (String × Json))
    (p' : Parser) : Prop :=
  ∃ text, Derives strtod (.members ms) text ∧ q.lexer.input = text ++ 0x7D :: p'.lexer.input

/-- A value, and the blanks after it. -/
theorem ReadsValue.element (h : ReadsValue strtod q v p) {blanks : List UInt8} {c : UInt8}
    (hblanks : Blanks blanks) (hinput : p.lexer.input = blanks ++ c :: rest) :
    ∃ text, Derives strtod (.element v) text ∧ q.lexer.input = text ++ c :: rest := by
  obtain ⟨before, text, hbefore, htext, -, hq⟩ := h
  exact ⟨_, .element hbefore htext hblanks, by rw [hq, hinput]; simp⟩

theorem parseInternal_sound
    (hmembers : ∀ q v p', parseMembers strtod fuel [] (q.getToken strtod) = .ok (v, p') →
      ∃ ms, ReadsMembers strtod q ms p' ∧ v = .object (emplaceAll [] ms))
    (helements : ∀ q v p', parseElements strtod fuel [] (q.getToken strtod) = .ok (v, p') →
      ∃ vs, ReadsElements strtod q vs p' ∧ v = .array vs)
    (h : parseInternal strtod (fuel + 1) (q.getToken strtod) = .ok (v, p')) :
    ReadsValue strtod q v p' := by
  by_cases hobject : (q.getToken strtod).lastToken = .beginObject
  · rw [parseInternal_beginObject hobject] at h
    obtain ⟨blanks, hblanks, hq⟩ := getToken_structural (c := 0x7B) rfl hobject
    split_ifs at h with hend
    · obtain ⟨rfl, rfl⟩ := Prod.mk.inj (Except.ok.inj h)
      obtain ⟨blanks', hblanks', hq'⟩ := getToken_structural (c := 0x7D) rfl hend
      refine ⟨blanks, _, hblanks, .emptyObject hblanks', endsBefore_of_head (by decide), ?_⟩
      rw [hq, hq']
      simp
    · obtain ⟨ms, ⟨text, htext, hq'⟩, rfl⟩ := hmembers _ _ _ h
      refine ⟨blanks, _, hblanks, .object htext (kept_emplaceAll ms),
        endsBefore_of_head (by decide), ?_⟩
      rw [hq, hq']
      simp
  · by_cases harray : (q.getToken strtod).lastToken = .beginArray
    · rw [parseInternal_beginArray harray] at h
      obtain ⟨blanks, hblanks, hq⟩ := getToken_structural (c := 0x5B) rfl harray
      split_ifs at h with hend
      · obtain ⟨rfl, rfl⟩ := Prod.mk.inj (Except.ok.inj h)
        obtain ⟨blanks', hblanks', hq'⟩ := getToken_structural (c := 0x5D) rfl hend
        refine ⟨blanks, _, hblanks, .emptyArray hblanks', endsBefore_of_head (by decide), ?_⟩
        rw [hq, hq']
        simp
      · obtain ⟨vs, ⟨text, htext, hq'⟩, rfl⟩ := helements _ _ _ h
        refine ⟨blanks, _, hblanks, .array htext, endsBefore_of_head (by decide), ?_⟩
        rw [hq, hq']
        simp
    · rcases hvalue : value? (q.getToken strtod).lastToken (q.getToken strtod).lexer with _ | v'
      · obtain ⟨e, he, -⟩ := @parseInternal_error strtod _ fuel hobject harray hvalue
        rw [he] at h
        cases h
      · rw [parseInternal_value hvalue] at h
        obtain ⟨rfl, rfl⟩ := Prod.mk.inj (Except.ok.inj h)
        obtain ⟨blanks, text, hblanks, hscalar, hends, hq⟩ :=
          @scan_value_sound strtod q.lexer _ _ _ rfl hvalue
        exact ⟨blanks, text, hblanks, .scalar hscalar, hends, hq⟩

theorem parseElements_sound
    (hvalue : ∀ q v p', parseInternal strtod fuel (q.getToken strtod) = .ok (v, p') →
      ReadsValue strtod q v p')
    (helements : ∀ q es v p', parseElements strtod fuel es (q.getToken strtod) = .ok (v, p') →
      ∃ vs, ReadsElements strtod q vs p' ∧ v = .array (es ++ vs))
    (h : parseElements strtod (fuel + 1) es (q.getToken strtod) = .ok (v, p')) :
    ∃ vs, ReadsElements strtod q vs p' ∧ v = .array (es ++ vs) := by
  rw [parseElements_succ] at h
  obtain ⟨⟨value, p₁⟩, hparse, h⟩ := bind_eq_ok_iff.1 h
  have hread := hvalue _ _ _ hparse
  dsimp only at h
  split_ifs at h with hseparator
  · obtain ⟨blanks, hblanks, hinput⟩ := getToken_structural (c := 0x2C) rfl hseparator
    obtain ⟨text, htext, hq⟩ := hread.element hblanks hinput
    obtain ⟨vs, ⟨text', htext', hq'⟩, rfl⟩ := helements _ _ _ _ h
    refine ⟨value :: vs, ⟨_, .nextElement htext htext', ?_⟩, by simp⟩
    rw [hq, hq']
    simp
  · obtain ⟨_, hend, h⟩ := bind_eq_ok_iff.1 h
    obtain ⟨rfl, rfl⟩ := Prod.mk.inj (Except.ok.inj h)
    obtain ⟨blanks, hblanks, hinput⟩ :=
      getToken_structural (c := 0x5D) rfl (expect_eq_ok_iff.1 hend)
    obtain ⟨text, htext, hq⟩ := hread.element hblanks hinput
    exact ⟨[value], ⟨text, .lastElement htext, hq⟩, rfl⟩

/-- The value of a string token is a string of the grammar. -/
theorem Scalar.of_string {s : String} (h : Scalar strtod text (.string s)) :
    ∃ body key, StringText body key ∧ text = 0x22 :: (body ++ [0x22]) ∧ s = .ofList key := by
  cases h with
  | string hbody => exact ⟨_, _, hbody, rfl, rfl⟩
  | number _ hvalue =>
    rw [numberValue] at hvalue
    split_ifs at hvalue
    · cases hvalue
    · cases hvalue
    · obtain ⟨_, -, hfloat⟩ := Option.map_eq_some_iff.1 hvalue
      cases hfloat

theorem parseMembers_sound
    (hvalue : ∀ q v p', parseInternal strtod fuel (q.getToken strtod) = .ok (v, p') →
      ReadsValue strtod q v p')
    (hmembers : ∀ q ms v p', parseMembers strtod fuel ms (q.getToken strtod) = .ok (v, p') →
      ∃ ms', ReadsMembers strtod q ms' p' ∧ v = .object (emplaceAll ms ms'))
    (h : parseMembers strtod (fuel + 1) ms (q.getToken strtod) = .ok (v, p')) :
    ∃ ms', ReadsMembers strtod q ms' p' ∧ v = .object (emplaceAll ms ms') := by
  rw [parseMembers_succ] at h
  obtain ⟨_, hkey, h⟩ := bind_eq_ok_iff.1 h
  obtain ⟨_, hname, h⟩ := bind_eq_ok_iff.1 h
  obtain ⟨⟨value, p₁⟩, hparse, h⟩ := bind_eq_ok_iff.1 h
  have hread := hvalue _ _ _ hparse
  have hstring : value? (q.getToken strtod).lastToken (q.getToken strtod).lexer =
      some (.string (Utf8.toString (q.getToken strtod).lexer.yytext)) := by
    rw [expect_eq_ok_iff.1 hkey]
    rfl
  obtain ⟨before, _, hbefore, hscalar, -, hq⟩ :=
    @scan_value_sound strtod q.lexer (q.getToken strtod).lexer _ _ rfl hstring
  obtain ⟨body, key, hbody, rfl, hs⟩ := hscalar.of_string
  obtain ⟨after, hafter, hq₁⟩ := getToken_structural (c := 0x3A) rfl (expect_eq_ok_iff.1 hname)
  dsimp only at h
  rw [hs] at h
  split_ifs at h with hseparator
  · obtain ⟨blanks, hblanks, hinput⟩ := getToken_structural (c := 0x2C) rfl hseparator
    obtain ⟨text, htext, hq₂⟩ := hread.element hblanks hinput
    obtain ⟨ms', ⟨text', htext', hq₃⟩, rfl⟩ := hmembers _ _ _ _ h
    refine ⟨_ :: ms', ⟨_, .nextMember hbefore hbody hafter htext htext', ?_⟩, rfl⟩
    rw [hq, hq₁, hq₂, hq₃]
    simp
  · obtain ⟨_, hend, h⟩ := bind_eq_ok_iff.1 h
    obtain ⟨rfl, rfl⟩ := Prod.mk.inj (Except.ok.inj h)
    obtain ⟨blanks, hblanks, hinput⟩ :=
      getToken_structural (c := 0x7D) rfl (expect_eq_ok_iff.1 hend)
    obtain ⟨text, htext, hq₂⟩ := hread.element hblanks hinput
    refine ⟨[_], ⟨_, .lastMember hbefore hbody hafter htext, ?_⟩, rfl⟩
    rw [hq, hq₁, hq₂]
    simp

theorem parse_sound (fuel : Nat) :
    (∀ q v p', parseInternal strtod fuel (q.getToken strtod) = .ok (v, p') →
      ReadsValue strtod q v p') ∧
    (∀ q es v p', parseElements strtod fuel es (q.getToken strtod) = .ok (v, p') →
      ∃ vs, ReadsElements strtod q vs p' ∧ v = .array (es ++ vs)) ∧
    ∀ q ms v p', parseMembers strtod fuel ms (q.getToken strtod) = .ok (v, p') →
      ∃ ms', ReadsMembers strtod q ms' p' ∧ v = .object (emplaceAll ms ms') := by
  induction fuel with
  | zero =>
    refine ⟨fun _ _ _ h => ?_, fun _ _ _ _ h => ?_, fun _ _ _ _ h => ?_⟩
    · rw [parseInternal_zero] at h
      cases h
    · rw [parseElements_zero] at h
      cases h
    · rw [parseMembers_zero] at h
      cases h
  | succ fuel ih =>
    obtain ⟨hvalue, helements, hmembers⟩ := ih
    exact ⟨fun q _ _ => parseInternal_sound (fun q => hmembers q []) fun q => helements q [],
      fun _ _ _ _ => parseElements_sound hvalue helements,
      fun _ _ _ _ => parseMembers_sound hvalue hmembers⟩

/-! ## Completeness -/

/-- A number does not go on with a blank, or with a structural character. -/
theorem endsBefore_of_delimiter {c : UInt8} (h : IsBlank c ∨ c = 0x2C ∨ c = 0x5D ∨ c = 0x7D) :
    EndsBefore text (c :: rest) := by
  refine endsBefore_of_not_numberChar ?_
  rcases h with (rfl | rfl | rfl | rfl) | rfl | rfl | rfl <;> decide

/-- What the parser does on the texts of a form, from the state before their first token, with
    enough fuel. -/
def Accepted (strtod : List UInt8 → Option ℚ) : Form → List UInt8 → Prop
  | .value v, text => ∀ (q : Parser) (blanks rest : List UInt8) (fuel : Nat), Blanks blanks →
      q.lexer.input = blanks ++ text ++ rest → EndsBefore text rest →
      2 * q.lexer.input.length + 1 ≤ fuel →
      ∃ p', parseInternal strtod fuel (q.getToken strtod) = .ok (v, p') ∧ p'.lexer.input = rest
  | .element v, text => ∀ (q : Parser) (c : UInt8) (rest : List UInt8) (fuel : Nat),
      q.lexer.input = text ++ c :: rest → (c = 0x2C ∨ c = 0x5D ∨ c = 0x7D) →
      2 * q.lexer.input.length + 1 ≤ fuel →
      ∃ p' blanks, parseInternal strtod fuel (q.getToken strtod) = .ok (v, p') ∧
        Blanks blanks ∧ p'.lexer.input = blanks ++ c :: rest
  | .elements vs, text => ∀ (q : Parser) (es : List Json) (rest : List UInt8) (fuel : Nat),
      q.lexer.input = text ++ 0x5D :: rest → 2 * q.lexer.input.length + 2 ≤ fuel →
      ∃ p', parseElements strtod fuel es (q.getToken strtod) = .ok (.array (es ++ vs), p') ∧
        p'.lexer.input = rest
  | .members ms, text => ∀ (q : Parser) (kept : List (String × Json)) (rest : List UInt8)
      (fuel : Nat), q.lexer.input = text ++ 0x7D :: rest → 2 * q.lexer.input.length + 1 ≤ fuel →
      ∃ p', parseMembers strtod fuel kept (q.getToken strtod) =
        .ok (.object (emplaceAll kept ms), p') ∧ p'.lexer.input = rest

theorem parseInternal_ne_endArray {r : Json × Parser}
    (h : parseInternal strtod fuel p = .ok r) : p.lastToken ≠ .endArray := by
  intro hend
  cases fuel with
  | zero =>
    rw [parseInternal_zero] at h
    cases h
  | succ fuel =>
    obtain ⟨e, he, -⟩ := @parseInternal_error strtod p fuel (by simp [hend]) (by simp [hend])
      (by rw [hend]; rfl)
    rw [he] at h
    cases h

theorem parseElements_ne_endArray {r : Json × Parser}
    (h : parseElements strtod fuel es p = .ok r) : p.lastToken ≠ .endArray := by
  cases fuel with
  | zero =>
    rw [parseElements_zero] at h
    cases h
  | succ fuel =>
    rw [parseElements_succ] at h
    obtain ⟨_, hparse, -⟩ := bind_eq_ok_iff.1 h
    exact parseInternal_ne_endArray hparse

theorem parseMembers_ne_endObject {r : Json × Parser}
    (h : parseMembers strtod fuel ms p = .ok r) : p.lastToken ≠ .endObject := by
  cases fuel with
  | zero =>
    rw [parseMembers_zero] at h
    cases h
  | succ fuel =>
    rw [parseMembers_succ] at h
    obtain ⟨_, hkey, -⟩ := bind_eq_ok_iff.1 h
    rw [expect_eq_ok_iff.1 hkey]
    decide

theorem value?_eq_string {type : TokenType} {l : Lexer} {s : String}
    (h : value? type l = some (.string s)) :
    type = .valueString ∧ Utf8.toString l.yytext = s := by
  cases type <;> simp [value?] at h
  exact ⟨rfl, h⟩

/-- A key is read. -/
theorem getToken_key {before body : List UInt8} {key : List Char} (hbefore : Blanks before)
    (hbody : StringText body key)
    (hinput : q.lexer.input = before ++ 0x22 :: (body ++ 0x22 :: rest)) :
    (q.getToken strtod).lastToken = .valueString ∧
      Utf8.toString (q.getToken strtod).lexer.yytext = .ofList key ∧
      (q.getToken strtod).lexer.input = rest := by
  have hinput' : q.lexer.input = before ++ 0x22 :: (body ++ [0x22]) ++ rest := by
    rw [hinput]
    simp
  obtain ⟨type, l', hscan, hvalue, hrest⟩ := @scan_value_complete strtod q.lexer _ _ _ _ hbefore
    (.string hbody) (endsBefore_of_head (by decide)) hinput'
  obtain ⟨rfl, hkey⟩ := value?_eq_string hvalue
  rw [getToken, hscan]
  exact ⟨rfl, hkey, hrest⟩

theorem accepted_of_derives {form : Form} (h : Derives strtod form text) :
    Accepted strtod form text := by
  induction h with
  | scalar hscalar =>
    intro q blanks rest fuel hblanks hinput hends hfuel
    obtain ⟨fuel, rfl⟩ : ∃ n, fuel = n + 1 := ⟨fuel - 1, by omega⟩
    obtain ⟨type, l', hscan, hvalue, hrest⟩ := scan_value_complete hblanks hscalar hends hinput
    have hq : q.getToken strtod = ⟨type, l'⟩ := by rw [getToken, hscan]
    exact ⟨_, parseInternal_value (hq ▸ hvalue), hq ▸ hrest⟩
  | @emptyArray inner hinner =>
    intro q blanks rest fuel hblanks hinput _ hfuel
    obtain ⟨fuel, rfl⟩ : ∃ n, fuel = n + 1 := ⟨fuel - 1, by omega⟩
    have hq : q.lexer.input = blanks ++ 0x5B :: (inner ++ 0x5D :: rest) := by simpa using hinput
    obtain ⟨hbegin, hq₁⟩ := @exists_getToken strtod q _ 0x5B _ _ rfl hblanks hq
    obtain ⟨hend, hq₂⟩ := @exists_getToken strtod _ _ 0x5D _ _ rfl hinner hq₁
    refine ⟨_, ?_, hq₂⟩
    rw [parseInternal_beginArray hbegin, if_pos hend]
  | @array vs text _ ih =>
    intro q blanks rest fuel hblanks hinput _ hfuel
    obtain ⟨fuel, rfl⟩ : ∃ n, fuel = n + 1 := ⟨fuel - 1, by omega⟩
    have hq : q.lexer.input = blanks ++ 0x5B :: (text ++ 0x5D :: rest) := by simpa using hinput
    obtain ⟨hbegin, hq₁⟩ := @exists_getToken strtod q _ 0x5B _ _ rfl hblanks hq
    have hlength := congrArg List.length hq
    rw [List.length_append, List.length_cons, ← hq₁] at hlength
    obtain ⟨p', hparse, hrest⟩ := ih _ [] rest fuel hq₁ (by omega)
    refine ⟨p', ?_, hrest⟩
    rw [parseInternal_beginArray hbegin, if_neg (parseElements_ne_endArray hparse)]
    exact hparse
  | @emptyObject inner hinner =>
    intro q blanks rest fuel hblanks hinput _ hfuel
    obtain ⟨fuel, rfl⟩ : ∃ n, fuel = n + 1 := ⟨fuel - 1, by omega⟩
    have hq : q.lexer.input = blanks ++ 0x7B :: (inner ++ 0x7D :: rest) := by simpa using hinput
    obtain ⟨hbegin, hq₁⟩ := @exists_getToken strtod q _ 0x7B _ _ rfl hblanks hq
    obtain ⟨hend, hq₂⟩ := @exists_getToken strtod _ _ 0x7D _ _ rfl hinner hq₁
    refine ⟨_, ?_, hq₂⟩
    rw [parseInternal_beginObject hbegin, if_pos hend]
  | @object ms kept text _ hkept ih =>
    intro q blanks rest fuel hblanks hinput _ hfuel
    obtain ⟨fuel, rfl⟩ : ∃ n, fuel = n + 1 := ⟨fuel - 1, by omega⟩
    have hq : q.lexer.input = blanks ++ 0x7B :: (text ++ 0x7D :: rest) := by simpa using hinput
    obtain ⟨hbegin, hq₁⟩ := @exists_getToken strtod q _ 0x7B _ _ rfl hblanks hq
    have hlength := congrArg List.length hq
    rw [List.length_append, List.length_cons, ← hq₁] at hlength
    obtain ⟨p', hparse, hrest⟩ := ih _ [] rest fuel hq₁ (by omega)
    refine ⟨p', ?_, hrest⟩
    rw [parseInternal_beginObject hbegin, if_neg (parseMembers_ne_endObject hparse),
      hkept.unique (kept_emplaceAll ms)]
    exact hparse
  | @element v before text after hbefore _ hafter ih =>
    intro q c rest fuel hinput hc hfuel
    have hends : EndsBefore text (after ++ c :: rest) := by
      cases after with
      | nil => exact endsBefore_of_delimiter (.inr hc)
      | cons b after => exact endsBefore_of_delimiter (.inl (hafter b List.mem_cons_self))
    obtain ⟨p', hparse, hrest⟩ :=
      ih q before (after ++ c :: rest) fuel hbefore (by simpa using hinput) hends hfuel
    exact ⟨p', after, hparse, hafter, hrest⟩
  | @lastElement v text _ ih =>
    intro q es rest fuel hinput hfuel
    obtain ⟨fuel, rfl⟩ : ∃ n, fuel = n + 1 := ⟨fuel - 1, by omega⟩
    obtain ⟨p', blanks, hparse, hblanks, hrest⟩ :=
      ih q 0x5D rest fuel hinput (.inr (.inl rfl)) (by omega)
    obtain ⟨hend, hq⟩ := @exists_getToken strtod _ _ 0x5D _ _ rfl hblanks hrest
    exact ⟨_, parseElements_last hparse hend, hq⟩
  | @nextElement v vs text text' _ _ ih ih' =>
    intro q es rest fuel hinput hfuel
    obtain ⟨fuel, rfl⟩ : ∃ n, fuel = n + 1 := ⟨fuel - 1, by omega⟩
    rw [List.append_assoc, List.cons_append] at hinput
    obtain ⟨p', blanks, hparse, hblanks, hrest⟩ :=
      ih q 0x2C (text' ++ 0x5D :: rest) fuel hinput (.inl rfl) (by omega)
    obtain ⟨hseparator, hq⟩ := @exists_getToken strtod _ _ 0x2C _ _ rfl hblanks hrest
    have hlength := congrArg List.length hinput
    rw [List.length_append, List.length_cons, ← hq] at hlength
    obtain ⟨p'', hparse', hrest'⟩ := ih' _ (es ++ [v]) rest fuel hq (by omega)
    refine ⟨p'', ?_, hrest'⟩
    rw [parseElements_next hparse hseparator, hparse']
    simp
  | @lastMember key v before body after text hbefore hbody hafter _ ih =>
    intro q kept rest fuel hinput hfuel
    obtain ⟨fuel, rfl⟩ : ∃ n, fuel = n + 1 := ⟨fuel - 1, by omega⟩
    have hq : q.lexer.input = before ++ 0x22 :: (body ++ 0x22 :: (after ++ 0x3A ::
        (text ++ 0x7D :: rest))) := by simpa using hinput
    obtain ⟨hkey, hyytext, hq₁⟩ := @getToken_key strtod q _ _ _ _ hbefore hbody hq
    obtain ⟨hname, hq₂⟩ := @exists_getToken strtod _ _ 0x3A _ _ rfl hafter hq₁
    have hlength := congrArg List.length hq
    simp only [List.length_append, List.length_cons] at hlength
    have hlength' := congrArg List.length hq₂
    simp only [List.length_append, List.length_cons] at hlength'
    obtain ⟨p', blanks, hparse, hblanks, hrest⟩ :=
      ih _ 0x7D rest fuel hq₂ (.inr (.inr rfl)) (by omega)
    obtain ⟨hend, hq₃⟩ := @exists_getToken strtod _ _ 0x7D _ _ rfl hblanks hrest
    exact ⟨_, parseMembers_last hkey hyytext hname hparse hend, hq₃⟩
  | @nextMember key v ms before body after text text' hbefore hbody hafter _ _ ih ih' =>
    intro q kept rest fuel hinput hfuel
    obtain ⟨fuel, rfl⟩ : ∃ n, fuel = n + 1 := ⟨fuel - 1, by omega⟩
    have hq : q.lexer.input = before ++ 0x22 :: (body ++ 0x22 :: (after ++ 0x3A ::
        (text ++ 0x2C :: (text' ++ 0x7D :: rest)))) := by simpa using hinput
    obtain ⟨hkey, hyytext, hq₁⟩ := @getToken_key strtod q _ _ _ _ hbefore hbody hq
    obtain ⟨hname, hq₂⟩ := @exists_getToken strtod _ _ 0x3A _ _ rfl hafter hq₁
    have hlength := congrArg List.length hq
    simp only [List.length_append, List.length_cons] at hlength
    have hlength' := congrArg List.length hq₂
    simp only [List.length_append, List.length_cons] at hlength'
    obtain ⟨p', blanks, hparse, hblanks, hrest⟩ :=
      ih _ 0x2C (text' ++ 0x7D :: rest) fuel hq₂ (.inl rfl) (by omega)
    obtain ⟨hseparator, hq₃⟩ := @exists_getToken strtod _ _ 0x2C _ _ rfl hblanks hrest
    have hlength'' := congrArg List.length hq₃
    simp only [List.length_append, List.length_cons] at hlength''
    obtain ⟨p'', hparse', hrest'⟩ := ih' _ (emplace (.ofList key) v kept) rest fuel hq₃ (by omega)
    refine ⟨p'', ?_, hrest'⟩
    rw [parseMembers_next hkey hyytext hname hparse hseparator, hparse', emplaceAll_cons]

/-! ## The fuel suffices -/

theorem bind_eq_error_iff {ε α β : Type} {x : Except ε α} {f : α → Except ε β} {e : ε} :
    (x >>= f) = .error e ↔ x = .error e ∨ ∃ a, x = .ok a ∧ f a = .error e := by
  cases x with
  | error e' => simp [bind, Except.bind]
  | ok a => simp [bind, Except.bind]

theorem isThrown_expect {expected : TokenType} (h : p.expect expected = .error e) :
    e.IsThrown := by
  rw [expect] at h
  split_ifs at h
  exact Except.error.inj h ▸ rfl

/-- A structural character has been read from the input. -/
theorem length_structural {c : UInt8} {type : TokenType} (hc : structural.lookup c = some type)
    (h : (q.getToken strtod).lastToken = type) :
    (q.getToken strtod).lexer.input.length < q.lexer.input.length := by
  obtain ⟨blanks, -, hinput⟩ := getToken_structural hc h
  rw [hinput, List.length_append, List.length_cons]
  omega

/-- A key has been read from the input. -/
theorem length_key (h : (q.getToken strtod).lastToken = .valueString) :
    (q.getToken strtod).lexer.input.length < q.lexer.input.length := by
  have hstring : value? (q.getToken strtod).lastToken (q.getToken strtod).lexer =
      some (.string (Utf8.toString (q.getToken strtod).lexer.yytext)) := by
    rw [h]
    rfl
  obtain ⟨blanks, text, -, hscalar, -, hinput⟩ :=
    @scan_value_sound strtod q.lexer (q.getToken strtod).lexer _ _ rfl hstring
  obtain ⟨c, text, rfl, -⟩ := hscalar.exists_cons
  rw [hinput, List.length_append, List.length_append, List.length_cons]
  omega

/-- A value has been read from the input. -/
theorem ReadsValue.length_lt (h : ReadsValue strtod q v p) :
    p.lexer.input.length < q.lexer.input.length := by
  obtain ⟨blanks, text, -, htext, -, hinput⟩ := h
  have hpos : 0 < text.length := by
    cases htext with
    | scalar hscalar =>
      obtain ⟨c, text, rfl, -⟩ := hscalar.exists_cons
      exact Nat.succ_pos _
    | _ => exact Nat.succ_pos _
  rw [hinput, List.length_append, List.length_append]
  omega

/-- With enough fuel, all errors are exceptions. -/
theorem isThrown_of_fuel (fuel : Nat) :
    (∀ (q : Parser) e, 2 * q.lexer.input.length + 1 ≤ fuel →
      parseInternal strtod fuel (q.getToken strtod) = .error e → e.IsThrown) ∧
    (∀ (q : Parser) es e, 2 * q.lexer.input.length + 2 ≤ fuel →
      parseElements strtod fuel es (q.getToken strtod) = .error e → e.IsThrown) ∧
    ∀ (q : Parser) ms e, 2 * q.lexer.input.length + 1 ≤ fuel →
      parseMembers strtod fuel ms (q.getToken strtod) = .error e → e.IsThrown := by
  induction fuel with
  | zero => exact ⟨fun _ _ h => by omega, fun _ _ _ h => by omega, fun _ _ _ h => by omega⟩
  | succ fuel ih =>
    obtain ⟨hvalue, helements, hmembers⟩ := ih
    have hsound := (@parse_sound strtod fuel).1
    refine ⟨fun q e hfuel h => ?_, fun q es e hfuel h => ?_, fun q ms e hfuel h => ?_⟩
    · by_cases hobject : (q.getToken strtod).lastToken = .beginObject
      · have hlt := length_structural (c := 0x7B) rfl hobject
        rw [parseInternal_beginObject hobject] at h
        split_ifs at h
        exact hmembers _ _ _ (by omega) h
      · by_cases harray : (q.getToken strtod).lastToken = .beginArray
        · have hlt := length_structural (c := 0x5B) rfl harray
          rw [parseInternal_beginArray harray] at h
          split_ifs at h
          exact helements _ _ _ (by omega) h
        · rcases hv : value? (q.getToken strtod).lastToken (q.getToken strtod).lexer with _ | v
          · obtain ⟨e', he, hthrown⟩ := @parseInternal_error strtod _ fuel hobject harray hv
            exact Except.error.inj (he.symm.trans h) ▸ hthrown
          · rw [parseInternal_value hv] at h
            cases h
    · rw [parseElements_succ] at h
      rcases bind_eq_error_iff.1 h with h | ⟨⟨v, p'⟩, hparse, h⟩
      · exact hvalue q _ (by omega) h
      · have hlt := (hsound _ _ _ hparse).length_lt
        dsimp only at h
        split_ifs at h with hseparator
        · have hlt₁ := length_structural (c := 0x2C) rfl hseparator
          exact helements _ _ _ (by omega) h
        · rcases bind_eq_error_iff.1 h with h | ⟨_, -, h⟩
          · exact isThrown_expect h
          · cases h
    · rw [parseMembers_succ] at h
      rcases bind_eq_error_iff.1 h with h | ⟨_, hkey, h⟩
      · exact isThrown_expect h
      rcases bind_eq_error_iff.1 h with h | ⟨_, hname, h⟩
      · exact isThrown_expect h
      have hlt := length_key (expect_eq_ok_iff.1 hkey)
      have hlt₁ := length_structural (c := 0x3A) rfl (expect_eq_ok_iff.1 hname)
      rcases bind_eq_error_iff.1 h with h | ⟨⟨v, p'⟩, hparse, h⟩
      · exact hvalue _ _ (by omega) h
      · have hlt₂ := (hsound _ _ _ hparse).length_lt
        dsimp only at h
        split_ifs at h with hseparator
        · have hlt₃ := length_structural (c := 0x2C) rfl hseparator
          exact hmembers _ _ _ (by omega) h
        · rcases bind_eq_error_iff.1 h with h | ⟨_, -, h⟩
          · exact isThrown_expect h
          · cases h

/-! ## Parsing -/

theorem length_skipByteOrderMark (input : List UInt8) :
    (skipByteOrderMark input).length ≤ input.length := by
  rw [skipByteOrderMark]
  split_ifs
  · rw [List.length_drop]
    omega
  · exact Nat.le_refl _

/-- What is not accepted is an error, or a number in it is too large. The fuel suffices. -/
theorem isThrown_parse {input : List UInt8} (h : parse strtod input = .error e) :
    e.IsThrown := by
  rcases bind_eq_error_iff.1 h with h | ⟨_, -, h⟩
  · have hlength := length_skipByteOrderMark input
    exact (isThrown_of_fuel _).1 { lexer := { input := skipByteOrderMark input } } e
      (by dsimp only; omega) h
  · cases h

/-- The parser accepts the inputs that begin with a value, and returns this value. -/
theorem parse_eq_ok_iff {input : List UInt8} :
    parse strtod input = .ok v ↔ BeginsWith strtod (skipByteOrderMark input) v := by
  have hlength := length_skipByteOrderMark input
  constructor
  · intro h
    obtain ⟨⟨v', p'⟩, hparse, h⟩ := bind_eq_ok_iff.1 h
    obtain rfl := Except.ok.inj h
    obtain ⟨blanks, text, hblanks, htext, hends, hinput⟩ := (parse_sound _).1 _ _ _ hparse
    exact ⟨blanks, text, p'.lexer.input, hinput, hblanks, htext, hends⟩
  · rintro ⟨blanks, text, rest, hinput, hblanks, htext, hends⟩
    obtain ⟨p', hparse, -⟩ := accepted_of_derives htext
      { lexer := { input := skipByteOrderMark input } } blanks rest (2 * input.length + 3) hblanks
      hinput hends (by dsimp only; omega)
    rw [parse, hparse]
    rfl

/-! ## What follows a value -/

/-- No text of a value begins like a byte order mark. -/
theorem Derives.exists_cons (h : Derives strtod (.value v) text) :
    ∃ c text', text = c :: text' ∧ c ≠ 0xEF := by
  cases h with
  | scalar hscalar =>
    cases hscalar with
    | null | true | false | string => exact ⟨_, _, rfl, by decide⟩
    | number hnumber =>
      obtain ⟨c, text, rfl⟩ := List.exists_cons_of_ne_nil (number_ne_nil hnumber)
      refine ⟨c, text, rfl, ?_⟩
      rintro rfl
      exact absurd (number_cons_iff.1 hnumber).1 (by decide)
  | emptyArray | array | emptyObject | object => exact ⟨_, _, rfl, by decide⟩

theorem BeginsWith.exists_cons {input : List UInt8} (h : BeginsWith strtod input v) :
    ∃ c input', input = c :: input' ∧ c ≠ 0xEF := by
  obtain ⟨blanks, text, rest, rfl, hblanks, htext, -⟩ := h
  obtain ⟨c, text', rfl, hc⟩ := htext.exists_cons
  rcases blanks with _ | ⟨blank, blanks⟩
  · exact ⟨c, _, rfl, hc⟩
  · refine ⟨blank, _, rfl, ?_⟩
    rintro rfl
    exact absurd (hblanks _ List.mem_cons_self) (by decide)

theorem skipByteOrderMark_cons {c : UInt8} (hc : c ≠ 0xEF) :
    skipByteOrderMark (c :: rest) = c :: rest := by
  refine if_neg fun hmark => hc ?_
  rw [List.take_succ_cons] at hmark
  exact (List.cons.inj hmark).1

/-- Input that begins with a value has no byte order mark to skip. -/
theorem BeginsWith.skipByteOrderMark_append {input : List UInt8} (h : BeginsWith strtod input v)
    (garbage : List UInt8) : skipByteOrderMark (input ++ garbage) = input ++ garbage := by
  obtain ⟨c, input', rfl, hc⟩ := h.exists_cons
  exact skipByteOrderMark_cons hc

/-- Nothing but a number goes on. -/
theorem Derives.endsBefore (h : Derives strtod (.value v) text) (hv : v.typeName ≠ "number")
    (rest : List UInt8) : EndsBefore text rest := by
  cases h with
  | scalar hscalar =>
    cases hscalar with
    | null | true | false | string => exact endsBefore_of_head (by decide)
    | number _ hvalue =>
      rw [numberValue] at hvalue
      split_ifs at hvalue
      · exact absurd (Option.some.inj hvalue ▸ rfl) hv
      · exact absurd (Option.some.inj hvalue ▸ rfl) hv
      · obtain ⟨_, -, rfl⟩ := Option.map_eq_some_iff.1 hvalue
        exact absurd rfl hv
  | emptyArray | array | emptyObject | object => exact endsBefore_of_head (by decide)

/-- After a value that is no number, the input is ignored. -/
theorem parse_append {input : List UInt8} (h : parse strtod input = .ok v)
    (hv : v.typeName ≠ "number") (garbage : List UInt8) :
    parse strtod (input ++ garbage) = .ok v := by
  have hbegins := parse_eq_ok_iff.1 h
  have hinput : skipByteOrderMark (input ++ garbage) = skipByteOrderMark input ++ garbage := by
    by_cases hmark : input.take 3 = [0xEF, 0xBB, 0xBF]
    · have hlength := congrArg List.length hmark
      rw [List.length_take, List.length_cons, List.length_cons, List.length_singleton] at hlength
      rw [skipByteOrderMark, skipByteOrderMark, List.take_append_of_le_length (by omega),
        if_pos hmark, if_pos hmark, List.drop_append_of_le_length (by omega)]
    · have hskip : skipByteOrderMark input = input := if_neg hmark
      rw [hskip] at hbegins ⊢
      exact hbegins.skipByteOrderMark_append garbage
  obtain ⟨blanks, text, rest, hsplit, hblanks, htext, -⟩ := hbegins
  refine parse_eq_ok_iff.2 ⟨blanks, text, rest ++ garbage, ?_, hblanks, htext,
    htext.endsBefore hv _⟩
  rw [hinput, hsplit, List.append_assoc]

/-- An empty array is read, whatever follows it. -/
theorem parse_append_example :
    parse (fun _ => none) ([0x5B, 0x5D] ++ [0x5D, 0x22]) = .ok (.array []) :=
  parse_append (by rfl) (by decide) [0x5D, 0x22]

end Hostcontrold.Json
