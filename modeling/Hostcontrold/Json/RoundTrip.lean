import Hostcontrold.Json.Escaping
import Hostcontrold.Json.Parsing
import Hostcontrold.Json.Values

/-!
# Writing and reading

The parser reads what the serializer writes (`parse_dump`): with any indentation, an ordered
value is read back as it was, but for the integers that are not negative, as the parser takes
these for unsigned (`reread`). They denote the same numbers.

The floating-point numbers are a condition: 15 digits are written, which is not enough for all
of them, so that those in the value must be among the numbers that are read back (`Portable`).
-/

namespace Hostcontrold.Json

open Lexer Serializer

variable {strtod : List UInt8 → Option ℚ} {snprintf : ℚ → List UInt8} {v : Json} {x : Int}
  {P : Json → Prop}
  {room step indent : Nat} {es : List Json} {ms : List (String × Json)}
  {text digits after : List UInt8}

/-! ## Integers -/

theorem decimal_append (digits : List UInt8) (d : UInt8) :
    decimal (digits ++ [d]) = 10 * decimal digits + (d.toNat - 0x30) := by
  rw [decimal, List.foldl_append]
  rfl

theorem writeDigits_succ (hx : x ≠ 0) : writeDigits (room + 1) x =
    .ofNat (0x30 + x.natAbs % 10) :: writeDigits room (x.tdiv 10) := by
  rw [writeDigits, if_neg hx, Int.natAbs_tmod]
  rfl

theorem writeDigits_zero (room : Nat) : writeDigits room 0 = [] := by
  cases room <;> rfl

theorem toNat_digit (n : Nat) : (UInt8.ofNat (0x30 + n % 10)).toNat = 0x30 + n % 10 := by
  rw [UInt8.toNat_ofNat']
  omega

theorem natAbs_quotient (x : Int) : (x.tdiv 10).natAbs = x.natAbs / 10 := Int.natAbs_tdiv x 10

/-- The digits denote the number, if there is room for them. -/
theorem decimal_writeDigits (h : x.natAbs < 10 ^ room) :
    decimal (writeDigits room x).reverse = x.natAbs := by
  induction room generalizing x with
  | zero => rw [Int.natAbs_eq_zero.1 (Nat.lt_one_iff.1 h)]; rfl
  | succ room ih =>
    have hquotient := natAbs_quotient x
    by_cases hx : x = 0
    · rw [hx]
      rfl
    · rw [writeDigits_succ hx, List.reverse_cons, decimal_append, ih (by omega), hquotient,
        toNat_digit]
      omega

theorem isDigit_writeDigits (room : Nat) (x : Int) : ∀ d ∈ writeDigits room x, IsDigit d := by
  induction room generalizing x with
  | zero => exact fun _ hd => absurd hd List.not_mem_nil
  | succ room ih =>
    by_cases hx : x = 0
    · rw [hx, writeDigits_zero]
      exact fun _ hd => absurd hd List.not_mem_nil
    · rw [writeDigits_succ hx]
      refine List.forall_mem_cons.2 ⟨?_, ih _⟩
      rw [IsDigit, toNat_digit]
      omega

/-- There is no leading zero. -/
theorem wholePart_writeDigits (hx : x ≠ 0) (h : x.natAbs < 10 ^ room) :
    WholePart (writeDigits room x).reverse := by
  have hdigits : ∀ d ∈ (writeDigits room x).reverse, IsDigit d :=
    fun d hd => isDigit_writeDigits room x d (List.mem_reverse.1 hd)
  have hhead : ∃ c digits, (writeDigits room x).reverse = c :: digits ∧ c ≠ 0x30 := by
    clear hdigits
    induction room generalizing x with
    | zero => exact absurd (Int.natAbs_eq_zero.1 (Nat.lt_one_iff.1 h)) hx
    | succ room ih =>
      have hquotient := natAbs_quotient x
      rw [writeDigits_succ hx, List.reverse_cons]
      by_cases hzero : x.tdiv 10 = 0
      · rw [hzero, writeDigits_zero]
        refine ⟨_, [], rfl, fun hdigit => ?_⟩
        have hvalue := (toNat_digit x.natAbs).symm.trans (congrArg UInt8.toNat hdigit)
        have hnonzero := Int.natAbs_ne_zero.2 hx
        rw [hzero] at hquotient
        simp only [UInt8.reduceToNat, Int.natAbs_zero] at hvalue hquotient
        omega
      · obtain ⟨c, digits, hreverse, hc⟩ := ih hzero (by omega)
        rw [hreverse]
        exact ⟨c, _, rfl, hc⟩
  obtain ⟨c, digits, hreverse, hc⟩ := hhead
  rw [hreverse] at hdigits ⊢
  obtain ⟨hdigit, hdigits⟩ := List.forall_mem_cons.1 hdigits
  exact .nonzero hdigit hc hdigits

theorem magnitude_of_wholePart (h : WholePart digits) : Magnitude digits := by
  have hmagnitude := Magnitude.intro h .none .none
  rwa [List.append_nil, List.append_nil] at hmagnitude

/-- A number that is not negative is written without a sign. -/
theorem dumpInteger_nonneg (hx : 0 ≤ x) (h : x.natAbs < 10 ^ 63) :
    Number (dumpInteger x) ∧ IsDigits (dumpInteger x) ∧
      decimal (dumpInteger x) = x.natAbs := by
  rw [dumpInteger]
  split_ifs with hzero hneg
  · subst hzero
    exact ⟨.positive (magnitude_of_wholePart .zero), List.forall_mem_singleton.2 (by decide), rfl⟩
  · omega
  · exact ⟨.positive (magnitude_of_wholePart (wholePart_writeDigits hzero h)),
      fun d hd => isDigit_writeDigits _ _ d (List.mem_reverse.1 hd), decimal_writeDigits h⟩

/-- A negative number is written with its sign. -/
theorem dumpInteger_neg (hx : x < 0) (h : x.natAbs < 10 ^ 63) :
    ∃ digits, dumpInteger x = 0x2D :: digits ∧ Number (dumpInteger x) ∧
      IsDigits digits ∧ decimal digits = x.natAbs := by
  have hdump : dumpInteger x = 0x2D :: (writeDigits 63 x).reverse := by
    rw [dumpInteger, if_neg (by omega)]
    dsimp only
    rw [if_pos hx, List.reverse_append]
    rfl
  rw [hdump]
  exact ⟨_, rfl, .negative (magnitude_of_wholePart (wholePart_writeDigits (by omega) h)),
    fun d hd => isDigit_writeDigits _ _ d (List.mem_reverse.1 hd), decimal_writeDigits h⟩

/-! ## What is read back -/

/-- A number that is not negative is read as an unsigned one. -/
def rereadNumber : Json → Json
  | .numberInteger i =>
    if 0 ≤ i.toInt then .numberUnsigned (.ofNat i.toInt.toNat) else .numberInteger i
  | json => json

/-- The value that is read when another one has been written. -/
abbrev reread : Json → Json := bottomUp rereadNumber

theorem reread_array : reread (.array es) = .array (es.map reread) := bottomUp_array

theorem reread_object : reread (.object ms) = .object (mapValues reread ms) := bottomUp_object

/-- A floating-point number is written as a number that is read back as itself. -/
def Portable (strtod : List UInt8 → Option ℚ) (snprintf : ℚ → List UInt8) : Json → Prop
  | .numberFloat q =>
    Number (dumpFloat snprintf q) ∧ strtod (dumpFloat snprintf q) = some q
  | _ => True

/-! ## Values without parts -/

theorem scalar_unsigned (n : UInt64) :
    Scalar strtod (dumpInteger n.toNat) (.numberUnsigned n) := by
  have hlt := n.toNat_lt
  obtain ⟨hnumber, hdigits, hvalue⟩ :=
    @dumpInteger_nonneg n.toNat (Int.natCast_nonneg _) (by rw [Int.natAbs_natCast]; omega)
  rw [Int.natAbs_natCast] at hvalue
  refine .number hnumber ?_
  rw [numberValue, if_pos ⟨hdigits, hvalue.symm ▸ hlt⟩, hvalue, UInt64.ofNat_toNat]

theorem scalar_integer (i : Int64) :
    Scalar strtod (dumpInteger i.toInt) (rereadNumber (.numberInteger i)) := by
  have hlow := i.le_toInt
  have hhigh := i.toInt_lt
  rw [rereadNumber]
  split_ifs with hsign
  · have hnat : (UInt64.ofNat i.toInt.toNat).toNat = i.toInt.toNat := by
      rw [UInt64.toNat_ofNat']
      omega
    have hscalar := @scalar_unsigned strtod (.ofNat i.toInt.toNat)
    rwa [hnat, Int.toNat_of_nonneg hsign] at hscalar
  · obtain ⟨digits, htext, hnumber, hdigits, hvalue⟩ :=
      @dumpInteger_neg i.toInt (by omega) (by omega)
    refine .number hnumber ?_
    rw [htext, numberValue, if_neg fun h => absurd (h.1 0x2D List.mem_cons_self) (by decide),
      List.tail_cons, if_pos ⟨rfl, hdigits, by omega⟩, hvalue]
    have habs : -(i.toInt.natAbs : Int) = i.toInt := by omega
    rw [habs, Int64.ofInt_toInt]

/-- What is written for a floating-point number does not look like an integer. -/
theorem numberValue_dumpFloat (q : ℚ) : numberValue strtod (dumpFloat snprintf q) =
    (strtod (dumpFloat snprintf q)).map .numberFloat := by
  have hmark : ∃ c ∈ dumpFloat snprintf q, c ≠ 0x2D ∧ ¬IsDigit c := by
    rw [dumpFloat]
    split_ifs with h
    · rcases h with hpoint | hexponent
      · exact ⟨_, hpoint, by decide⟩
      · exact ⟨_, hexponent, by decide⟩
    · exact ⟨0x2E, List.mem_append_right _ List.mem_cons_self, by decide⟩
  obtain ⟨c, hmem, hsign, hc⟩ := hmark
  rw [numberValue, if_neg fun h => hc (h.1 c hmem), if_neg]
  rintro ⟨hhead, hdigits, -⟩
  obtain ⟨digits, htext⟩ := List.head?_eq_some_iff.1 hhead
  rw [htext] at hmem hdigits
  exact hc (hdigits c ((List.mem_cons.1 hmem).resolve_left hsign))

/-- A string is written as one of its texts. -/
theorem dumpEscaped_ofString (s : String) :
    ∃ body, dumpEscaped (Utf8.ofString s) = .ok body ∧ StringText body s.toList := by
  rw [Utf8.ofString_eq_encode]
  exact ⟨_, dumpEscaped_eq_ok_iff.2 ⟨_, rfl, rfl, stringText_escape _⟩, stringText_escape _⟩

/-! ## Values -/

/-- What is written for a value denotes what is read back. -/
def Written (strtod : List UInt8 → Option ℚ) (snprintf : ℚ → List UInt8) (step : Nat) (v : Json) :
    Prop :=
  ∀ indent, ∃ text, Serializer.dump snprintf step indent v = .ok text ∧
    Derives strtod (.value (reread v)) text

theorem blanks_nil : Blanks [] := fun _ hc => absurd hc List.not_mem_nil

theorem blanks_line (n : Nat) : Blanks (0x0A :: indentation n) := by
  refine List.forall_mem_cons.2 ⟨by decide, fun c hc => ?_⟩
  rw [List.eq_of_mem_replicate hc]
  decide

/-- The elements of an array are on lines of their own. -/
theorem dumpElements_written (hes : ∀ v ∈ es, Written strtod snprintf step v) (hne : es ≠ [])
    (hafter : Blanks after) : ∃ body, dumpElements snprintf step indent es = .ok body ∧
      Derives strtod (.elements (es.map reread)) (0x0A :: body ++ after) := by
  induction es with
  | nil => exact absurd rfl hne
  | cons v es ih =>
    obtain ⟨hv, hes⟩ := List.forall_mem_cons.1 hes
    obtain ⟨text, hdump, htext⟩ := hv indent
    rw [dumpElements, hdump]
    rcases es with _ | ⟨v', es⟩
    · exact ⟨_, rfl, .lastElement (.element (blanks_line indent) htext hafter)⟩
    · obtain ⟨body, hbody, hderives⟩ := ih hes (List.cons_ne_nil _ _)
      have hfirst := Derives.element (blanks_line indent) htext blanks_nil
      have helements := Derives.nextElement hfirst hderives
      rw [hbody]
      refine ⟨_, rfl, ?_⟩
      simpa using helements

/-- The members of an object are on lines of their own. -/
theorem dumpMembers_written (hms : ∀ m ∈ ms, Written strtod snprintf step m.2) (hne : ms ≠ [])
    (hafter : Blanks after) : ∃ body, dumpMembers snprintf step indent ms = .ok body ∧
      Derives strtod (.members (mapValues reread ms)) (0x0A :: body ++ after) := by
  induction ms with
  | nil => exact absurd rfl hne
  | cons m ms ih =>
    obtain ⟨key, v⟩ := m
    obtain ⟨hv, hms⟩ := List.forall_mem_cons.1 hms
    obtain ⟨name, hname, hkey⟩ := dumpEscaped_ofString key
    obtain ⟨text, hdump, htext⟩ := hv indent
    have hspace : Blanks [0x20] := List.forall_mem_singleton.2 (by decide)
    rw [dumpMembers, hname]
    change ∃ body, (Serializer.dump snprintf step indent v >>= _) = _ ∧ _
    rw [hdump]
    rcases ms with _ | ⟨m', ms⟩
    · have hmember := Derives.lastMember (blanks_line indent) hkey blanks_nil
        (.element hspace htext hafter)
      rw [String.ofList_toList] at hmember
      refine ⟨_, rfl, ?_⟩
      simpa using hmember
    · obtain ⟨body, hbody, hderives⟩ := ih hms (List.cons_ne_nil _ _)
      have hmembers := Derives.nextMember (blanks_line indent) hkey blanks_nil
        (.element hspace htext blanks_nil) hderives
      rw [String.ofList_toList] at hmembers
      change ∃ body', (dumpMembers snprintf step indent (m' :: ms) >>= _) = _ ∧ _
      rw [hbody]
      refine ⟨_, rfl, ?_⟩
      simpa using hmembers

/-- Every value is written so. -/
theorem written_of_everywhere
    (h : Everywhere (fun w => InOrder w ∧ Portable strtod snprintf w) v) :
    Written strtod snprintf step v := by
  induction h with
  | @intro v hself hparts ih =>
    intro indent
    cases v with
    | array elements =>
      rw [reread_array]
      rcases elements with _ | ⟨v, elements⟩
      · exact ⟨_, rfl, .emptyArray blanks_nil⟩
      · obtain ⟨body, hbody, hderives⟩ :=
          @dumpElements_written strtod snprintf step (indent + step) (v :: elements) _ ih
            (List.cons_ne_nil _ _) (blanks_line indent)
        have harray := Derives.array hderives
        rw [Serializer.dump, hbody]
        refine ⟨_, rfl, ?_⟩
        simpa using harray
    | object members =>
      rw [reread_object]
      rcases members with _ | ⟨m, members⟩
      · exact ⟨_, rfl, .emptyObject blanks_nil⟩
      · have hmembers : ∀ m' ∈ m :: members, Written strtod snprintf step m'.2 :=
          fun _ hm => ih _ (List.mem_map_of_mem hm)
        obtain ⟨body, hbody, hderives⟩ :=
          @dumpMembers_written strtod snprintf step (indent + step) (m :: members) _ hmembers
            (List.cons_ne_nil _ _) (blanks_line indent)
        have hobject := Derives.object hderives ⟨pairwise_mapValues hself.1, fun _ => rfl⟩
        rw [Serializer.dump, hbody]
        refine ⟨_, rfl, ?_⟩
        simpa using hobject
    | string s =>
      obtain ⟨body, hbody, htext⟩ := dumpEscaped_ofString s
      have hscalar := @Scalar.string strtod _ _ htext
      rw [String.ofList_toList] at hscalar
      rw [Serializer.dump, hbody]
      exact ⟨_, rfl, .scalar hscalar⟩
    | boolean b =>
      cases b with
      | false => exact ⟨_, rfl, .scalar .false⟩
      | true => exact ⟨_, rfl, .scalar .true⟩
    | numberInteger i => exact ⟨_, rfl, .scalar (scalar_integer i)⟩
    | numberUnsigned n => exact ⟨_, rfl, .scalar (scalar_unsigned n)⟩
    | numberFloat q =>
      obtain ⟨hnumber, hvalue⟩ := hself.2
      refine ⟨_, rfl, .scalar (.number hnumber ?_)⟩
      rw [numberValue_dumpFloat, hvalue]
      rfl
    | null => exact ⟨_, rfl, .scalar .null⟩

/-! ## Writing again -/

theorem dumpElements_reread
    (hes : ∀ v ∈ es, ∀ indent, Serializer.dump snprintf step indent (reread v) =
      Serializer.dump snprintf step indent v) :
    dumpElements snprintf step indent (es.map reread) = dumpElements snprintf step indent es := by
  induction es with
  | nil => rfl
  | cons v es ih =>
    obtain ⟨hv, hes⟩ := List.forall_mem_cons.1 hes
    rw [List.map_cons, dumpElements, dumpElements, hv, ih hes, List.isEmpty_map]

theorem dumpMembers_reread
    (hms : ∀ m ∈ ms, ∀ indent, Serializer.dump snprintf step indent (reread m.2) =
      Serializer.dump snprintf step indent m.2) :
    dumpMembers snprintf step indent (mapValues reread ms) =
      dumpMembers snprintf step indent ms := by
  induction ms with
  | nil => rfl
  | cons m ms ih =>
    obtain ⟨key, v⟩ := m
    obtain ⟨hv, hms⟩ := List.forall_mem_cons.1 hms
    have hrest := ih hms
    rw [mapValues] at hrest ⊢
    rw [List.map_cons, dumpMembers, dumpMembers, hv, hrest, List.isEmpty_map]

/-- What is read back is written as before. -/
theorem dump_reread (h : Everywhere P v) (indent : Nat) :
    Serializer.dump snprintf step indent (reread v) = Serializer.dump snprintf step indent v := by
  induction h generalizing indent with
  | @intro v _ _ ih =>
    cases v with
    | array elements =>
      have helements := @dumpElements_reread snprintf step (indent + step) elements ih
      rw [reread_array, Serializer.dump, Serializer.dump, helements, List.isEmpty_map]
    | object members =>
      have hmembers := @dumpMembers_reread snprintf step (indent + step) members
        fun m hm => ih _ (List.mem_map_of_mem hm)
      rw [reread_object, Serializer.dump, Serializer.dump, hmembers, List.isEmpty_map]
    | numberInteger i =>
      have hlow := i.le_toInt
      have hhigh := i.toInt_lt
      change Serializer.dump snprintf step indent (rereadNumber (.numberInteger i)) = _
      rw [rereadNumber]
      split_ifs with hsign
      · have hnat : ((UInt64.ofNat i.toInt.toNat).toNat : Int) = i.toInt := by
          rw [UInt64.toNat_ofNat']
          omega
        rw [Serializer.dump, Serializer.dump, hnat]
      · rfl
    | _ => rfl

/-! ## Reading -/

/-- What has been written is read back, and written again as the same text. -/
theorem parse_dump (h : Everywhere (fun w => InOrder w ∧ Portable strtod snprintf w) v)
    (step : Nat) : ∃ text, dump snprintf step v = .ok text ∧
      parse strtod text = .ok (reread v) ∧ dump snprintf step (reread v) = .ok text := by
  obtain ⟨text, hdump, htext⟩ := @written_of_everywhere _ _ _ step h 0
  have hbegins : BeginsWith strtod text (reread v) :=
    ⟨[], text, [], by rw [List.nil_append, List.append_nil], blanks_nil, htext,
      fun _ hc => by cases hc⟩
  have hmark := hbegins.skipByteOrderMark_append []
  rw [List.append_nil] at hmark
  exact ⟨text, hdump, parse_eq_ok_iff.2 (hmark.symm ▸ hbegins), (dump_reread h 0).trans hdump⟩

/-! ## Values of the parser -/

/-- The values of a form are ordered. -/
def Form.Ordered : Form → Prop
  | .value v | .element v => Json.Ordered v
  | .elements vs => ∀ v ∈ vs, Json.Ordered v
  | .members ms => ∀ m ∈ ms, Json.Ordered m.2

theorem Scalar.ordered (h : Scalar strtod text v) : Ordered v := by
  have hleaf (hparts : v.parts = []) (horder : InOrder v) : Ordered v :=
    .intro horder fun _ hw => absurd (hparts ▸ hw) List.not_mem_nil
  cases h with
  | null | true | false | string => exact hleaf rfl trivial
  | number _ hvalue =>
    rw [numberValue] at hvalue
    split_ifs at hvalue
    · obtain rfl := Option.some.inj hvalue
      exact hleaf rfl trivial
    · obtain rfl := Option.some.inj hvalue
      exact hleaf rfl trivial
    · obtain ⟨_, -, rfl⟩ := Option.map_eq_some_iff.1 hvalue
      exact hleaf rfl trivial

theorem ordered_of_derives {form : Form} (h : Derives strtod form text) : form.Ordered := by
  induction h with
  | scalar hscalar => exact hscalar.ordered
  | emptyArray => exact .intro trivial fun _ hw => absurd hw List.not_mem_nil
  | array _ ih => exact .intro trivial ih
  | emptyObject => exact .intro .nil fun _ hw => absurd hw List.not_mem_nil
  | @object ms kept _ _ hkept ih =>
    obtain rfl := hkept.unique (kept_emplaceAll ms)
    refine .intro hkept.sorted (List.forall_mem_map.2 fun m hm => ?_)
    exact ih m ((mem_emplaceAll hm).resolve_left List.not_mem_nil)
  | element _ _ _ ih => exact ih
  | lastElement _ ih => exact List.forall_mem_singleton.2 ih
  | nextElement _ _ ih ih' => exact List.forall_mem_cons.2 ⟨ih, ih'⟩
  | lastMember _ _ _ _ ih => exact List.forall_mem_singleton.2 ih
  | nextMember _ _ _ _ _ ih ih' => exact List.forall_mem_cons.2 ⟨ih, ih'⟩

/-- The parser creates ordered values. -/
theorem ordered_of_parse {input : List UInt8} (h : parse strtod input = .ok v) : Ordered v := by
  obtain ⟨_, _, _, -, -, htext, -⟩ := parse_eq_ok_iff.1 h
  exact ordered_of_derives htext

theorem Everywhere.and {Q : Json → Prop} (h : Everywhere P v) (h' : Everywhere Q v) :
    Everywhere (fun w => P w ∧ Q w) v := by
  induction h with
  | intro hself _ ih =>
    exact .intro ⟨hself, h'.self⟩ fun w hw => ih w hw (h'.parts w hw)

/-- What has been read can be written and read again. -/
theorem parse_dump_of_parse {input : List UInt8} (h : parse strtod input = .ok v)
    (hportable : Everywhere (Portable strtod snprintf) v) (step : Nat) :
    ∃ text, dump snprintf step v = .ok text ∧ parse strtod text = .ok (reread v) ∧
      dump snprintf step (reread v) = .ok text :=
  parse_dump ((ordered_of_parse h).and hportable) step

end Hostcontrold.Json
