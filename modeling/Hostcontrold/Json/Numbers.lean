import Hostcontrold.Json.Strings

/-!
# Reading numbers

The states of `scan_number` form a deterministic automaton. The texts it accepts are the numbers
of the grammar (`number_cons_iff`), which is proved from the last states to the first ones. It
stops before the first character it cannot go on with; so the lexer reads the longest text that
a number can begin with, and succeeds if this is a number (`scanNumber_iff`).
-/

namespace Hostcontrold.Json

open Lexer

variable {l l' : Lexer} {c : UInt8} {text : List UInt8} {state state' : NumberState}

namespace Lexer.NumberState

/-- The state after a text. -/
def run : NumberState → List UInt8 → Option NumberState
  | state, [] => some state
  | state, c :: text =>
    match state.next c with
    | .goto state' => state'.run text
    | _ => none

theorem run_cons_iff : state.run (c :: text) = some state' ↔
    ∃ next, state.next c = .goto next ∧ next.run text = some state' := by
  rw [run]
  cases state.next c <;> simp

/-- The texts that take a state to one in which the number can end. -/
def Accepts (state : NumberState) (text : List UInt8) : Prop :=
  ∃ state', state.run text = some state' ∧ state'.atEnd = .done

theorem accepts_nil : state.Accepts [] ↔ state.atEnd = .done := by
  constructor
  · rintro ⟨_, ⟨⟩, hend⟩
    exact hend
  · exact fun hend => ⟨state, rfl, hend⟩

theorem accepts_cons : state.Accepts (c :: text) ↔
    ∃ state', state.next c = .goto state' ∧ state'.Accepts text := by
  simp only [Accepts, run_cons_iff]
  constructor
  · rintro ⟨state', ⟨next, hnext, hrun⟩, hend⟩
    exact ⟨next, hnext, state', hrun, hend⟩
  · rintro ⟨next, hnext, state', hrun, hend⟩
    exact ⟨state', ⟨next, hnext, hrun⟩, hend⟩

theorem run_append {text' : List UInt8} :
    state.run (text ++ text') = (state.run text).bind (·.run text') := by
  induction text generalizing state with
  | nil => rfl
  | cons c text ih =>
    rw [List.cons_append, run, run]
    cases state.next c with
    | goto state' => exact ih
    | done | error => rfl

theorem accepts_of_goto (h : state.next c = .goto state') :
    state.Accepts (c :: text) ↔ state'.Accepts text := by
  simp [accepts_cons, h]

theorem not_accepts (h : ∀ state', state.next c ≠ .goto state') :
    ¬state.Accepts (c :: text) := fun haccepts =>
  have ⟨state', hnext, _⟩ := accepts_cons.1 haccepts
  h state' hnext

/-! ## The texts accepted by the states -/

theorem accepts_any2 : any2.Accepts text ↔ IsDigits text := by
  induction text with
  | nil => simp [accepts_nil, atEnd]
  | cons c text ih =>
    rw [isDigits_cons]
    by_cases hdigit : IsDigit c
    · have hnext : any2.next c = .goto any2 := if_pos hdigit
      rw [accepts_of_goto hnext, ih, and_iff_right hdigit]
    · refine iff_of_false (not_accepts ?_) fun h => hdigit h.1
      simp [next, hdigit]

theorem digits_cons : Digits (c :: text) ↔ IsDigit c ∧ IsDigits text := by
  rw [Digits, isDigits_cons, and_iff_right (List.cons_ne_nil c text)]

theorem accepts_sign : sign.Accepts text ↔ Digits text := by
  cases text with
  | nil => simp [accepts_nil, atEnd, Digits]
  | cons c text =>
    rw [digits_cons]
    by_cases hdigit : IsDigit c
    · have hnext : sign.next c = .goto any2 := if_pos hdigit
      rw [accepts_of_goto hnext, accepts_any2, and_iff_right hdigit]
    · refine iff_of_false (not_accepts ?_) fun h => hdigit h.1
      simp [next, hdigit]

theorem accepts_exponent {e : UInt8} (he : IsExponentMark e) :
    exponent.Accepts text ↔ Exponent (e :: text) := by
  constructor
  · intro h
    cases text with
    | nil => simp [accepts_nil, atEnd] at h
    | cons c text =>
      obtain ⟨state', hnext, htext⟩ := accepts_cons.1 h
      rw [next] at hnext
      split_ifs at hnext with hsign hdigit
      · obtain rfl := Transition.goto.inj hnext
        exact .signed he hsign (accepts_sign.1 htext)
      · obtain rfl := Transition.goto.inj hnext
        exact .unsigned he (digits_cons.2 ⟨hdigit, accepts_any2.1 htext⟩)
  · rintro (_ | ⟨-, hdigits⟩ | ⟨-, hsign, hdigits⟩)
    · obtain ⟨c, text, rfl⟩ := List.exists_cons_of_ne_nil hdigits.1
      obtain ⟨hdigit, hdigits⟩ := digits_cons.1 hdigits
      have hsign : ¬(c = 0x2B ∨ c = 0x2D) := by
        rintro (rfl | rfl) <;> exact absurd hdigit (by decide)
      exact accepts_cons.2 ⟨any2, (if_neg hsign).trans (if_pos hdigit), accepts_any2.2 hdigits⟩
    · exact accepts_cons.2 ⟨sign, if_pos hsign, accepts_sign.2 hdigits⟩

/-- An exponent can follow the digits of a number. -/
theorem accepts_of_exponent {state : NumberState} (h : Exponent text)
    (hstate : state = decimal2 ∨ state = zero ∨ state = any1) : state.Accepts text := by
  have hmark {e : UInt8} (he : IsExponentMark e) : state.next e = .goto exponent := by
    rcases hstate with rfl | rfl | rfl <;> rcases he with rfl | rfl <;> rfl
  have hend : state.atEnd = .done := by rcases hstate with rfl | rfl | rfl <;> rfl
  cases h with
  | none => exact accepts_nil.2 hend
  | unsigned he hdigits =>
    exact accepts_cons.2 ⟨exponent, hmark he, (accepts_exponent he).2 (.unsigned he hdigits)⟩
  | signed he hsign hdigits =>
    exact accepts_cons.2 ⟨exponent, hmark he, (accepts_exponent he).2 (.signed he hsign hdigits)⟩

/-- Digits, and then an exponent or nothing. -/
theorem accepts_decimal2 : decimal2.Accepts text ↔
    ∃ digits tail, text = digits ++ tail ∧ IsDigits digits ∧ Exponent tail := by
  constructor
  · intro h
    induction text with
    | nil => exact ⟨[], [], rfl, List.forall_mem_nil _, .none⟩
    | cons c text ih =>
      obtain ⟨state', hnext, htext⟩ := accepts_cons.1 h
      rw [next] at hnext
      split_ifs at hnext with hdigit hmark
      · obtain rfl := Transition.goto.inj hnext
        obtain ⟨digits, tail, rfl, hdigits, htail⟩ := ih htext
        exact ⟨c :: digits, tail, rfl, List.forall_mem_cons.2 ⟨hdigit, hdigits⟩, htail⟩
      · obtain rfl := Transition.goto.inj hnext
        exact ⟨[], c :: text, rfl, List.forall_mem_nil _, (accepts_exponent hmark).1 htext⟩
  · rintro ⟨digits, tail, rfl, hdigits, htail⟩
    induction digits with
    | nil => exact accepts_of_exponent htail (.inl rfl)
    | cons c digits ih =>
      obtain ⟨hdigit, hdigits⟩ := List.forall_mem_cons.1 hdigits
      exact accepts_cons.2 ⟨decimal2, if_pos hdigit, ih hdigits⟩

theorem accepts_decimal1 : decimal1.Accepts text ↔
    ∃ digits tail, text = digits ++ tail ∧ Digits digits ∧ Exponent tail := by
  constructor
  · intro h
    cases text with
    | nil => simp [accepts_nil, atEnd] at h
    | cons c text =>
      obtain ⟨state', hnext, htext⟩ := accepts_cons.1 h
      rw [next] at hnext
      split_ifs at hnext with hdigit
      obtain rfl := Transition.goto.inj hnext
      obtain ⟨digits, tail, rfl, hdigits, htail⟩ := accepts_decimal2.1 htext
      exact ⟨c :: digits, tail, rfl, digits_cons.2 ⟨hdigit, hdigits⟩, htail⟩
  · rintro ⟨digits, tail, rfl, hdigits, htail⟩
    obtain ⟨c, digits, rfl⟩ := List.exists_cons_of_ne_nil hdigits.1
    obtain ⟨hdigit, hdigits⟩ := digits_cons.1 hdigits
    exact accepts_cons.2 ⟨decimal2, if_pos hdigit,
      accepts_decimal2.2 ⟨digits, tail, rfl, hdigits, htail⟩⟩

theorem accepts_zero : zero.Accepts text ↔
    ∃ fraction tail, text = fraction ++ tail ∧ Fraction fraction ∧ Exponent tail := by
  constructor
  · intro h
    cases text with
    | nil => exact ⟨[], [], rfl, .none, .none⟩
    | cons c text =>
      obtain ⟨state', hnext, htext⟩ := accepts_cons.1 h
      rw [next] at hnext
      split_ifs at hnext with hpoint hmark
      · obtain rfl := Transition.goto.inj hnext
        obtain ⟨digits, tail, rfl, hdigits, htail⟩ := accepts_decimal1.1 htext
        exact ⟨c :: digits, tail, rfl, hpoint ▸ .some hdigits, htail⟩
      · obtain rfl := Transition.goto.inj hnext
        exact ⟨[], c :: text, rfl, .none, (accepts_exponent hmark).1 htext⟩
  · rintro ⟨_, tail, rfl, _ | hdigits, htail⟩
    · exact accepts_of_exponent htail (.inr (.inl rfl))
    · exact accepts_cons.2 ⟨decimal1, rfl,
        accepts_decimal1.2 ⟨_, tail, rfl, hdigits, htail⟩⟩

theorem accepts_any1 : any1.Accepts text ↔ ∃ digits fraction tail,
    text = digits ++ fraction ++ tail ∧ IsDigits digits ∧ Fraction fraction ∧
      Exponent tail := by
  constructor
  · intro h
    induction text with
    | nil => exact ⟨[], [], [], rfl, List.forall_mem_nil _, .none, .none⟩
    | cons c text ih =>
      obtain ⟨state', hnext, htext⟩ := accepts_cons.1 h
      rw [next] at hnext
      split_ifs at hnext with hdigit hpoint hmark
      · obtain rfl := Transition.goto.inj hnext
        obtain ⟨digits, fraction, tail, rfl, hdigits, hfraction, htail⟩ := ih htext
        exact ⟨c :: digits, fraction, tail, rfl, List.forall_mem_cons.2 ⟨hdigit, hdigits⟩,
          hfraction, htail⟩
      · obtain rfl := Transition.goto.inj hnext
        obtain ⟨digits, tail, rfl, hdigits, htail⟩ := accepts_decimal1.1 htext
        exact ⟨[], c :: digits, tail, rfl, List.forall_mem_nil _, hpoint ▸ .some hdigits, htail⟩
      · obtain rfl := Transition.goto.inj hnext
        exact ⟨[], [], c :: text, rfl, List.forall_mem_nil _, .none,
          (accepts_exponent hmark).1 htext⟩
  · rintro ⟨digits, fraction, tail, rfl, hdigits, hfraction, htail⟩
    induction digits with
    | nil =>
      rcases hfraction with _ | hfraction
      · exact accepts_of_exponent htail (.inr (.inr rfl))
      · exact accepts_cons.2 ⟨decimal1, rfl,
          accepts_decimal1.2 ⟨_, tail, rfl, hfraction, htail⟩⟩
    | cons c digits ih =>
      obtain ⟨hdigit, hdigits⟩ := List.forall_mem_cons.1 hdigits
      exact accepts_cons.2 ⟨any1, if_pos hdigit, ih hdigits⟩

theorem magnitude_cons_iff : Magnitude (c :: text) ↔
    IsDigit c ∧ (if c = 0x30 then zero else any1).Accepts text := by
  constructor
  · rintro h
    obtain ⟨bytes, hbytes⟩ : ∃ bytes, bytes = c :: text := ⟨_, rfl⟩
    rw [← hbytes] at h
    rcases h with ⟨_ | ⟨hdigit, hzero, hdigits⟩, hfraction, htail⟩
    · obtain ⟨rfl, rfl⟩ := List.cons.inj hbytes
      exact ⟨by decide, accepts_zero.2 ⟨_, _, rfl, hfraction, htail⟩⟩
    · obtain ⟨rfl, rfl⟩ := List.cons.inj hbytes
      rw [if_neg hzero]
      exact ⟨hdigit, accepts_any1.2 ⟨_, _, _, rfl, hdigits, hfraction, htail⟩⟩
  · rintro ⟨hdigit, h⟩
    split_ifs at h with hzero
    · obtain ⟨fraction, tail, rfl, hfraction, htail⟩ := accepts_zero.1 h
      exact hzero ▸ .intro .zero hfraction htail
    · obtain ⟨digits, fraction, tail, rfl, hdigits, hfraction, htail⟩ := accepts_any1.1 h
      exact .intro (.nonzero hdigit hzero hdigits) hfraction htail

theorem magnitude_ne_nil (h : Magnitude text) : text ≠ [] := by
  rcases h with ⟨_ | _, -, -⟩ <;> simp

theorem accepts_minus : minus.Accepts text ↔ Magnitude text := by
  cases text with
  | nil =>
    simp only [accepts_nil, atEnd, reduceCtorEq, false_iff]
    exact fun h => magnitude_ne_nil h rfl
  | cons c text =>
    rw [magnitude_cons_iff]
    by_cases hzero : c = 0x30
    · subst hzero
      rw [accepts_of_goto (show minus.next 0x30 = .goto zero from rfl)]
      exact (and_iff_right (by decide)).symm
    · rw [if_neg hzero]
      by_cases hdigit : IsDigit c
      · have hnext : minus.next c = .goto any1 := (if_neg hzero).trans (if_pos hdigit)
        rw [accepts_of_goto hnext, and_iff_right hdigit]
      · refine iff_of_false (not_accepts ?_) fun h => hdigit h.1
        simp [next, hzero, hdigit]

end Lexer.NumberState

open NumberState

/-- The numbers are the texts that the automaton accepts. -/
theorem number_cons_iff : Number (c :: text) ↔
    (c = 0x2D ∨ IsDigit c) ∧ (NumberState.start c).Accepts text := by
  rw [start]
  constructor
  · intro h
    obtain ⟨bytes, hbytes⟩ : ∃ bytes, bytes = c :: text := ⟨_, rfl⟩
    rw [← hbytes] at h
    rcases h with h | h
    · obtain ⟨hdigit, htext⟩ := magnitude_cons_iff.1 (hbytes ▸ h)
      rw [if_neg (by rintro rfl; exact absurd hdigit (by decide))]
      exact ⟨.inr hdigit, htext⟩
    · obtain ⟨rfl, rfl⟩ := List.cons.inj hbytes
      exact ⟨.inl rfl, accepts_minus.2 h⟩
  · rintro ⟨hc, h⟩
    split_ifs at h with hminus hzero
    · exact hminus ▸ .negative (accepts_minus.1 h)
    all_goals
      exact .positive (magnitude_cons_iff.2 ⟨hc.resolve_left hminus, by simpa [hzero] using h⟩)

theorem number_ne_nil (h : Number text) : text ≠ [] := by
  cases h with
  | positive h => exact magnitude_ne_nil h
  | negative => exact List.cons_ne_nil _ _

/-! ## The end of a number -/

/-- Whatever has been read, the number can still be completed. -/
theorem exists_accepts (state : NumberState) : ∃ text, state.Accepts text := by
  cases state with
  | minus => exact ⟨[0x30], zero, rfl, rfl⟩
  | zero => exact ⟨[], zero, rfl, rfl⟩
  | any1 => exact ⟨[], any1, rfl, rfl⟩
  | decimal1 => exact ⟨[0x30], decimal2, rfl, rfl⟩
  | decimal2 => exact ⟨[], decimal2, rfl, rfl⟩
  | exponent => exact ⟨[0x30], any2, rfl, rfl⟩
  | sign => exact ⟨[0x30], any2, rfl, rfl⟩
  | any2 => exact ⟨[], any2, rfl, rfl⟩

/-- In a state in which the number can end, no character is an error. -/
theorem next_of_atEnd (h : state.atEnd = .done) :
    state.next c = .done ∨ ∃ state', state.next c = .goto state' := by
  cases state with
  | minus | decimal1 | exponent | sign => simp [atEnd] at h
  | zero | any1 | decimal2 | any2 =>
    rw [NumberState.next]
    split_ifs <;> simp

/-- The characters of numbers. -/
abbrev NumberChar (c : UInt8) : Prop :=
  IsDigit c ∨ IsExponentMark c ∨ c = 0x2B ∨ c = 0x2D ∨ c = 0x2E

theorem next_ne_goto (hc : ¬NumberChar c) : state.next c ≠ .goto state' := by
  have hdigit : ¬IsDigit c := fun h => hc (.inl h)
  have hmark : ¬IsExponentMark c := fun h => hc (.inr (.inl h))
  have hsign : ¬(c = 0x2B ∨ c = 0x2D) := fun h => hc (.inr (.inr (h.imp_right .inl)))
  have hpoint : c ≠ 0x2E := fun h => hc (.inr (.inr (.inr (.inr h))))
  have hzero : c ≠ 0x30 := fun h => hdigit (h ▸ by decide)
  cases state <;> simp only [NumberState.next, if_neg hdigit, if_neg hmark, if_neg hsign,
    if_neg hpoint, if_neg hzero] <;> exact fun h => by cases h

theorem endsBefore_of_not_numberChar {rest : List UInt8} (hc : ¬NumberChar c) :
    EndsBefore text (c :: rest) := by
  rintro _ ⟨⟩ suffix hnumber
  cases text with
  | nil =>
    rcases (number_cons_iff.1 hnumber).1 with h | h
    · exact hc (.inr (.inr (.inr (.inl h))))
    · exact hc (.inl h)
  | cons d text =>
    obtain ⟨-, state, hrun, -⟩ := number_cons_iff.1 hnumber
    obtain ⟨state', -, hrun⟩ := Option.bind_eq_some_iff.1 (run_append.symm.trans hrun)
    obtain ⟨next, hnext, -⟩ := run_cons_iff.1 hrun
    exact next_ne_goto hc hnext

theorem atEnd_of_next (h : state.next c = .done) : state.atEnd = .done := by
  cases state with
  | minus | decimal1 | exponent | sign =>
    rw [NumberState.next] at h
    split_ifs at h
  | zero | any1 | decimal2 | any2 => rfl

theorem accepts_append {text' : List UInt8} (h : state.run text = some state') :
    state.Accepts (text ++ text') ↔ state'.Accepts text' := by
  rw [Accepts, Accepts, run_append, h, Option.bind_some]

/-- The automaton stops where the number does not go on. -/
theorem endsBefore_iff {rest : List UInt8} (hc : c = 0x2D ∨ IsDigit c)
    (hrun : (NumberState.start c).run text = some state) (hend : state.atEnd = .done) :
    EndsBefore (c :: text) rest ↔ rest.head?.elim state.atEnd state.next = .done := by
  cases rest with
  | nil => simp [EndsBefore, hend]
  | cons d rest =>
    have hnumber (suffix : List UInt8) :
        Number (c :: text ++ d :: suffix) ↔ state.Accepts (d :: suffix) := by
      rw [List.cons_append, number_cons_iff, and_iff_right hc, accepts_append hrun]
    have hends : EndsBefore (c :: text) (d :: rest) ↔ ∀ suffix, ¬state.Accepts (d :: suffix) := by
      simp [EndsBefore, ← hnumber]
    rw [hends, List.head?_cons, Option.elim_some]
    constructor
    · intro h
      refine (next_of_atEnd hend).resolve_right fun ⟨state', hnext⟩ => ?_
      obtain ⟨suffix, hsuffix⟩ := exists_accepts state'
      exact h suffix (accepts_cons.2 ⟨state', hnext, hsuffix⟩)
    · intro h suffix
      exact not_accepts fun state' hnext => by simp [h] at hnext

/-! ## Types and values -/

/-- The type of a number after a text. -/
def Lexer.NumberState.finalType : NumberState → TokenType → List UInt8 → TokenType
  | state, type, [] => state.numberType type
  | state, type, c :: text =>
    match state.next c with
    | .goto state' => state'.finalType (state.numberType type) text
    | _ => state.numberType type

theorem finalType_cons {type : TokenType} (h : state.next c = .goto state') :
    state.finalType type (c :: text) = state'.finalType (state.numberType type) text := by
  rw [finalType, h]

/-- After a point or an exponent, a number remains a floating-point number. -/
theorem finalType_of_float {type : TokenType} (h : state.numberType type = .valueFloat) :
    state.finalType type text = .valueFloat := by
  induction text generalizing state type with
  | nil => exact h
  | cons c text ih =>
    rw [finalType]
    cases hnext : state.next c with
    | done | error => exact h
    | goto state' =>
      refine ih ?_
      rw [h]
      cases state' with
      | minus => exact absurd hnext next_ne_minus
      | _ => rfl

/-- Without them, it remains what it is. -/
theorem finalType_whole {type : TokenType} (hstate : state = zero ∨ state = any1)
    (hrun : state.run text = some state') :
    state.finalType type text = if IsDigits text then type else .valueFloat := by
  have htype : state.numberType type = type := by rcases hstate with rfl | rfl <;> rfl
  induction text generalizing state with
  | nil => simpa [finalType] using htype
  | cons c text ih =>
    obtain ⟨next, hnext, hrun⟩ := run_cons_iff.1 hrun
    rw [finalType_cons hnext, htype]
    by_cases hdigit : IsDigit c
    · have hany1 : next = any1 := by
        rcases hstate with rfl | rfl
        · rw [NumberState.next] at hnext
          split_ifs at hnext with hpoint hmark
          · exact absurd hdigit (hpoint ▸ by decide)
          · exact absurd hdigit (by rcases hmark with rfl | rfl <;> decide)
        · exact (Transition.goto.inj ((if_pos hdigit).symm.trans hnext)).symm
      subst hany1
      simp only [ih (.inr rfl) hrun rfl, isDigits_cons, and_iff_right hdigit]
    · rw [if_neg fun h => hdigit (h c List.mem_cons_self)]
      refine finalType_of_float ?_
      rcases hstate with rfl | rfl <;> rw [NumberState.next] at hnext <;>
        split_ifs at hnext <;> obtain rfl := Transition.goto.inj hnext <;> rfl

/-- The type of a number is told by its text. -/
theorem finalType_start (hrun : (NumberState.start c).run text = some state)
    (hend : state.atEnd = .done) (hc : c = 0x2D ∨ IsDigit c) :
    (NumberState.start c).finalType .valueUnsigned text =
      if IsDigits (c :: text) then .valueUnsigned
      else if c = 0x2D ∧ IsDigits text then .valueInteger else .valueFloat := by
  rw [start] at hrun ⊢
  by_cases hminus : c = 0x2D
  · subst hminus
    rw [if_pos rfl] at hrun ⊢
    rw [if_neg fun h => absurd (h _ List.mem_cons_self) (by decide)]
    cases text with
    | nil => obtain rfl := Option.some.inj hrun; simp [atEnd] at hend
    | cons d text =>
      obtain ⟨next, hnext, hrun⟩ := run_cons_iff.1 hrun
      have hdigit : IsDigit d ∧ (next = zero ∨ next = any1) := by
        rw [NumberState.next] at hnext
        split_ifs at hnext with hzero hdigit
        · exact ⟨hzero ▸ by decide, .inl (Transition.goto.inj hnext).symm⟩
        · exact ⟨hdigit, .inr (Transition.goto.inj hnext).symm⟩
      simp only [finalType_cons hnext, finalType_whole hdigit.2 hrun, isDigits_cons, true_and,
        and_iff_right hdigit.1, numberType]
  · have hdigit := hc.resolve_left hminus
    rw [if_neg hminus] at hrun ⊢
    have hstate : (if c = 0x30 then zero else any1) = zero ∨
        (if c = 0x30 then zero else any1) = any1 := by split_ifs <;> simp
    rw [finalType_whole hstate hrun]
    simp only [isDigits_cons, and_iff_right hdigit, hminus, false_and, if_false]

/-! ## Scanning -/

/-- The value of a token, if it is one without parts. -/
def Lexer.value? : TokenType → Lexer → Option Json
  | .literalNull, _ => some .null
  | .literalTrue, _ => some (.boolean true)
  | .literalFalse, _ => some (.boolean false)
  | .valueString, l => some (.string (Utf8.toString l.yytext))
  | .valueUnsigned, l => some (.numberUnsigned l.valueUnsigned)
  | .valueInteger, l => some (.numberInteger l.valueInteger)
  | .valueFloat, l => l.valueFloat.map .numberFloat
  | _, _ => none

@[simp]
theorem input_get_unget : l.get.unget.input = l.input := by
  unfold Lexer.get unget
  cases l.input <;> rfl

@[simp]
theorem yytext_get_unget : l.get.unget.yytext = l.yytext := by
  unfold Lexer.get unget
  cases l.input <;> rfl

/-- The longest text the automaton can go on with has been read, and the number ends there. -/
def ReadsNumber (state : NumberState) (type : TokenType) (l : Lexer) (type' : TokenType)
    (l' : Lexer) : Prop :=
  ∃ text state' l₁, state.run text = some state' ∧
    l₁.input.head?.elim state'.atEnd state'.next = .done ∧
    type' = state.finalType type text ∧ Reads l text text l₁ ∧ l' = l₁.get.unget

theorem readsNumber_iff {type type' : TokenType} : ReadsNumber state type l type' l' ↔
    l.input.head?.elim state.atEnd state.next = .done ∧ type' = state.numberType type ∧
        l' = l.get.unget ∨
      ∃ c next, l.input.head? = some c ∧ state.next c = .goto next ∧
        ReadsNumber next (state.numberType type) (l.get.add c) type' l' := by
  constructor
  · rintro ⟨text, state', l₁, hrun, hend, rfl, hreads, rfl⟩
    cases text with
    | nil =>
      obtain rfl := reads_nil.1 hreads
      obtain rfl := Option.some.inj hrun
      exact .inl ⟨hend, rfl, rfl⟩
    | cons c text =>
      obtain ⟨hhead, hreads⟩ := reads_cons.1 hreads
      obtain ⟨next, hnext, hrun⟩ := run_cons_iff.1 hrun
      exact .inr ⟨c, next, hhead, hnext, text, state', l₁, hrun, hend, finalType_cons hnext,
        reads_add.2 hreads, rfl⟩
  · rintro (⟨hend, rfl, rfl⟩ | ⟨c, next, hhead, hnext, text, state', l₁, hrun, hend, rfl, hreads,
      rfl⟩)
    · exact ⟨[], state, l, rfl, hend, rfl, reads_nil.2 rfl, rfl⟩
    · exact ⟨c :: text, state', l₁, run_cons_iff.2 ⟨next, hnext, hrun⟩, hend,
        (finalType_cons hnext).symm, reads_cons.2 ⟨hhead, reads_add.1 hreads⟩, rfl⟩

theorem scanNumberFrom_iff {bound : Nat} (hbound : l.input.length ≤ bound) {type type' : TokenType}
    (htype : type' ≠ .parseError) :
    scanNumberFrom bound state type l = (type', l') ↔ ReadsNumber state type l type' l' := by
  induction bound generalizing l state type with
  | zero =>
    have hnil := List.eq_nil_of_length_eq_zero (Nat.le_zero.1 hbound)
    rw [readsNumber_iff, scanNumberFrom, hnil]
    cases state <;> simp [atEnd, htype, @eq_comm _ _ type', @eq_comm _ _ l']
  | succ bound ih =>
    rw [readsNumber_iff, scanNumberFrom, current_get]
    rcases hhead : l.input.head? with _ | c
    · cases state <;> simp [atEnd, htype, @eq_comm _ _ type', @eq_comm _ _ l']
    · have hlength : (l.get.add c).input.length ≤ bound := by
        change l.get.input.length ≤ bound
        rw [input_get, List.length_tail]
        omega
      have hchar : l.get.currentChar = c := by rw [currentChar, current_get, hhead]; rfl
      rw [Option.elim_some]
      cases hnext : state.next c with
      | done => simp [hnext, @eq_comm _ _ type', @eq_comm _ _ l']
      | error message => simp [hnext, htype.symm]
      | goto next => simp [hnext, hchar, ih hlength]

/-! ## Numbers -/

variable {strtod : List UInt8 → Option ℚ}

/-- The conversion gives the value of the number. -/
theorem value?_convertNumber (hyytext : l.yytext = c :: text) {type : TokenType}
    (htype : type = if IsDigits (c :: text) then .valueUnsigned
      else if c = 0x2D ∧ IsDigits text then .valueInteger else .valueFloat) :
    value? (convertNumber strtod type l).1 (convertNumber strtod type l).2 =
      numberValue strtod (c :: text) := by
  simp only [numberValue, List.head?_cons, List.tail_cons, Option.some.injEq]
  by_cases hdigits : IsDigits (c :: text)
  · replace htype : type = .valueUnsigned := htype.trans (if_pos hdigits)
    have hminus : c ≠ 0x2D := by
      rintro rfl
      exact absurd (hdigits _ List.mem_cons_self) (by decide)
    rw [htype, convertNumber, hyytext]
    simp only [and_iff_right hdigits, hminus, false_and, if_false]
    split_ifs <;> rfl
  · simp only [hdigits, false_and, if_false]
    by_cases hinteger : c = 0x2D ∧ IsDigits text
    · replace htype : type = .valueInteger :=
        htype.trans ((if_neg hdigits).trans (if_pos hinteger))
      rw [htype, convertNumber, hyytext]
      simp only [and_iff_right hinteger.1, and_iff_right hinteger.2, List.drop_one, List.tail_cons]
      split_ifs <;> rfl
    · replace htype : type = .valueFloat :=
        htype.trans ((if_neg hdigits).trans (if_neg hinteger))
      rw [htype, if_neg fun h => hinteger ⟨h.1, h.2.1⟩, ← hyytext]
      rfl

/-- A number token. -/
def TokenType.IsNumber (type : TokenType) : Prop :=
  type = .valueUnsigned ∨ type = .valueInteger ∨ type = .valueFloat

theorem isNumber_convertNumber {type : TokenType} :
    (convertNumber strtod type l).1.IsNumber ∧ (convertNumber strtod type l).2.input = l.input := by
  unfold convertNumber
  split
  · split_ifs <;> simp [TokenType.IsNumber]
  · split_ifs <;> simp [TokenType.IsNumber]
  · simp [TokenType.IsNumber]

theorem scanNumber_eq {type : TokenType} {l₁ : Lexer}
    (h : scanNumberFrom l.input.length (.start l.currentChar) .valueUnsigned
      (l.reset.add l.currentChar) = (type, l₁)) (htype : type ≠ .parseError) :
    scanNumber strtod l = convertNumber strtod type l₁ := by
  rw [scanNumber, h]
  cases type with
  | parseError => exact absurd rfl htype
  | _ => rfl

/-- The conversion of what the automaton has read. -/
theorem value?_of_run (hrun : (NumberState.start c).run text = some state)
    (hend : state.atEnd = .done) (hc : c = 0x2D ∨ IsDigit c) (hyytext : l.yytext = c :: text)
    {type : TokenType}
    (h : convertNumber strtod ((NumberState.start c).finalType .valueUnsigned text) l =
      (type, l')) : value? type l' = numberValue strtod (c :: text) := by
  have hvalue := @value?_convertNumber l c text strtod hyytext _ (finalType_start hrun hend hc)
  rwa [h] at hvalue

/-- The lexer accepts only numbers, and reads them as far as they go. -/
theorem scanNumber_sound (hcurrent : l.current = some c) (hc : c = 0x2D ∨ IsDigit c)
    {type : TokenType} (htype : type ≠ .parseError) (h : scanNumber strtod l = (type, l')) :
    ∃ text, Number (c :: text) ∧ l.input = text ++ l'.input ∧ EndsBefore (c :: text) l'.input ∧
      type.IsNumber ∧ value? type l' = numberValue strtod (c :: text) := by
  have hchar : l.currentChar = c := by rw [currentChar, hcurrent]; rfl
  rcases hscan : scanNumberFrom l.input.length (.start l.currentChar) .valueUnsigned
    (l.reset.add l.currentChar) with ⟨type', l₁⟩
  by_cases htype' : type' = .parseError
  · subst htype'
    rw [scanNumber, hscan] at h
    exact absurd (Prod.mk.inj h).1.symm htype
  · rw [scanNumber_eq hscan htype'] at h
    rw [hchar] at hscan
    have hbound : (l.reset.add c).input.length ≤ l.input.length := Nat.le_refl _
    obtain ⟨text, state, l₂, hrun, hdone, rfl, hreads, rfl⟩ :=
      (scanNumberFrom_iff hbound htype').1 hscan
    have hend : state.atEnd = .done := by
      rcases hhead : l₂.input.head? with _ | d
      · rwa [hhead] at hdone
      · rw [hhead] at hdone
        exact atEnd_of_next hdone
    have hyytext : l₂.get.unget.yytext = c :: text := by
      rw [yytext_get_unget, hreads.yytext]
      rfl
    have hvalue := value?_of_run hrun hend hc hyytext h
    obtain ⟨htype, hinput⟩ := @isNumber_convertNumber l₂.get.unget strtod
      ((NumberState.start c).finalType .valueUnsigned text)
    rw [h, input_get_unget] at hinput
    rw [h] at htype
    refine ⟨text, number_cons_iff.2 ⟨hc, state, hrun, hend⟩, ?_, ?_, htype, hvalue⟩
    · rw [hinput]
      exact hreads.input
    · rw [hinput]
      exact (endsBefore_iff hc hrun hend).2 hdone

/-- The lexer accepts every number, unless it goes on. -/
theorem scanNumber_complete (hcurrent : l.current = some c) {rest : List UInt8}
    (hnumber : Number (c :: text)) (hinput : l.input = text ++ rest)
    (hends : EndsBefore (c :: text) rest) : ∃ type l', scanNumber strtod l = (type, l') ∧
      type.IsNumber ∧ l'.input = rest ∧ value? type l' = numberValue strtod (c :: text) := by
  have hchar : l.currentChar = c := by rw [currentChar, hcurrent]; rfl
  obtain ⟨hc, state, hrun, hend⟩ := number_cons_iff.1 hnumber
  obtain ⟨l₁, hreads, hrest⟩ := @exists_reads (l.reset.add c) text rest hinput text
  have hdone := (endsBefore_iff hc hrun hend).1 hends
  have htype : (NumberState.start c).finalType .valueUnsigned text ≠ .parseError := by
    rw [finalType_start hrun hend hc]
    split_ifs <;> decide
  have hbound : (l.reset.add c).input.length ≤ l.input.length := Nat.le_refl _
  have hscan := (scanNumberFrom_iff hbound htype).2
    ⟨text, state, l₁, hrun, hrest.symm ▸ hdone, rfl, hreads, rfl⟩
  have hyytext : l₁.get.unget.yytext = c :: text := by
    rw [yytext_get_unget, hreads.yytext]
    rfl
  obtain ⟨hnumbertype, hinput'⟩ := @isNumber_convertNumber l₁.get.unget strtod
    ((NumberState.start c).finalType .valueUnsigned text)
  rcases hconvert : convertNumber strtod ((NumberState.start c).finalType .valueUnsigned text)
    l₁.get.unget with ⟨type, l'⟩
  rw [hconvert] at hnumbertype hinput'
  refine ⟨type, l', (scanNumber_eq (hchar.symm ▸ hscan) htype).trans hconvert, hnumbertype, ?_,
    value?_of_run hrun hend hc hyytext hconvert⟩
  exact hinput'.trans (input_get_unget.trans hrest)

end Hostcontrold.Json
