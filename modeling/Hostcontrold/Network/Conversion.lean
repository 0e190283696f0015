import Hostcontrold.Network.WakeOnLan

/-!
# The conversion of an address

The conversion fills the buffer octet by octet, and succeeds as soon as six octets
are there or the text is over. `parse` is what it makes of a text: the octets, if
it is accepted (`exec_convertFrom`).

An accepted text with less than six octets is an address that is too short
(`AddressText`), and all of these are accepted (`addressText_of_parse`,
`parse_of_addressText`).
-/

namespace Hostcontrold.WakeOnLan

open Interaction

/-! ## The conversion, as a function -/

/-- The position after the digits of an octet. -/
def octetEnd (mac : Bytes) (position : Nat) : Nat :=
  if charAt mac (position + 1) = 0 then position + 1 else position + 2

/-- The position after an octet, and a separator. -/
def nextOctet (mac : Bytes) (position : Nat) : Nat :=
  if charAt mac (octetEnd mac position) = ':'.toUInt8 then octetEnd mac position + 1
  else octetEnd mac position

/-- The octet at a position of a text, if it is valid. -/
def octetAt? (mac : Bytes) (position : Nat) : Option UInt8 :=
  (hexDigit? (charAt mac position)).bind fun digit =>
    (addDigit? (digit <<< 4) (charAt mac (position + 1))).map fun val => (val &&& 0o377).toUInt8

/-- Up to `n` octets of a text, from a position up to its end or the first NUL. -/
def parse (mac : Bytes) : Nat → Nat → Option Bytes
  | 0, _ => some []
  | n + 1, position =>
    if charAt mac position = 0 then some []
    else (octetAt? mac position).bind fun octet =>
      (parse mac n (nextOctet mac position)).map (octet :: ·)

/-- Writing octets into the buffer, from an index on. -/
def Buffer.setAll (ethaddr : Buffer) (i : Nat) : Bytes → Buffer
  | [] => ethaddr
  | octet :: octets => Buffer.setAll (ethaddr.set i octet) (i + 1) octets

theorem setAll_apply (ethaddr : Buffer) (i : Nat) (octets : Bytes) (j : Nat) :
    ethaddr.setAll i octets j = if j < i then ethaddr j else octets.getD (j - i) (ethaddr j) := by
  induction octets generalizing ethaddr i with
  | nil => simp [Buffer.setAll]
  | cons octet octets ih =>
    rw [Buffer.setAll, ih]
    rcases Nat.lt_trichotomy j i with h | rfl | h
    · simp [h, Nat.lt_succ_of_lt h, Buffer.set, Nat.ne_of_lt h]
    · simp [Buffer.set]
    · have hj : j - i = j - (i + 1) + 1 := by omega
      simp [Nat.not_lt_of_lt h, Nat.not_lt_of_ge h, Buffer.set, Nat.ne_of_gt h, hj]

variable {mac : Bytes} {sockets : Sockets} {ethaddr : Buffer}

attribute [local simp] handler isSocketCall

/-- One round of the loop, with a valid octet. -/
theorem exec_convertFrom_octet {n position : Nat} {octet : UInt8}
    (hend : charAt mac position ≠ 0) (hoctet : octetAt? mac position = some octet) :
    exec (handler mac sockets) (convertFrom mac (n + 1) position) ethaddr =
      let rest := exec (handler mac sockets) (convertFrom mac n (nextOctet mac position))
        (ethaddr.set (kEthAlen - (n + 1)) octet)
      { rest with
        trace := [⟨.read position, charAt mac position⟩, ⟨.read position, charAt mac position⟩,
          ⟨.read (position + 1), charAt mac (position + 1)⟩,
          ⟨.write (kEthAlen - (n + 1)) octet, ()⟩,
          ⟨.read (octetEnd mac position), charAt mac (octetEnd mac position)⟩] ++ rest.trace } := by
  obtain ⟨digit, hdigit, hoctet⟩ := Option.bind_eq_some_iff.1 hoctet
  obtain ⟨val, hval, rfl⟩ := Option.map_eq_some_iff.1 hoctet
  rw [convertFrom, nextOctet]
  -- The iterator is not moved over a NUL; after the octet, it may be moved over a colon.
  by_cases hz : charAt mac (position + 1) = 0
  · have hnext : octetEnd mac position = position + 1 := if_pos hz
    have hc : (0 : UInt8) ≠ ':'.toUInt8 := by decide
    rw [hz] at hval
    simp [hnext, hend, hdigit, hval, hz, hc, -bind_pure_comp]
  · have hnext : octetEnd mac position = position + 2 := if_neg hz
    by_cases hc : charAt mac (position + 2) = ':'.toUInt8
    · simp [hnext, hend, hdigit, hval, hz, hc, -bind_pure_comp]
    · simp [hnext, hend, hdigit, hval, hz, hc, -bind_pure_comp]

/-- One round of the loop, with no valid octet. -/
theorem exec_convertFrom_invalid {n position : Nat} (hend : charAt mac position ≠ 0)
    (hoctet : octetAt? mac position = none) :
    (exec (handler mac sockets) (convertFrom mac (n + 1) position) ethaddr).result = false ∧
      socketCalls
        (exec (handler mac sockets) (convertFrom mac (n + 1) position) ethaddr).trace = [] := by
  rw [convertFrom]
  cases hdigit : hexDigit? (charAt mac position) with
  | none => simp [hend, hdigit, -bind_pure_comp]
  | some digit =>
    have hval : addDigit? (digit <<< 4) (charAt mac (position + 1)) = none := by
      simpa [octetAt?, hdigit] using hoctet
    simp [hend, hdigit, hval, -bind_pure_comp]

/-- The loop converts what `parse` accepts. -/
theorem exec_convertFrom {n : Nat} (hn : n ≤ kEthAlen) (position : Nat) :
    (exec (handler mac sockets) (convertFrom mac n position) ethaddr).result =
        (parse mac n position).isSome ∧
      socketCalls (exec (handler mac sockets) (convertFrom mac n position) ethaddr).trace = [] ∧
      ∀ octets ∈ parse mac n position,
        (exec (handler mac sockets) (convertFrom mac n position) ethaddr).state =
          ethaddr.setAll (kEthAlen - n) octets := by
  induction n generalizing position ethaddr with
  | zero => simp [convertFrom, parse, Buffer.setAll, -bind_pure_comp]
  | succ n ih =>
    rw [parse]
    by_cases hend : charAt mac position = 0
    · simp [convertFrom, hend, Buffer.setAll, -bind_pure_comp]
    rw [if_neg hend]
    cases hoctet : octetAt? mac position with
    | none =>
      obtain ⟨hresult, hcalls⟩ := exec_convertFrom_invalid hend hoctet
      exact ⟨hresult, hcalls, nofun⟩
    | some octet =>
      -- The octet is written, and the rest converted from the next position.
      have hi : kEthAlen - (n + 1) + 1 = kEthAlen - n := by omega
      obtain ⟨hresult, hcalls, hstate⟩ := @ih (ethaddr.set (kEthAlen - (n + 1)) octet)
        (Nat.le_of_succ_le hn) (nextOctet mac position)
      rw [exec_convertFrom_octet hend hoctet, Option.bind_some, Option.isSome_map]
      refine ⟨hresult, hcalls, fun octets ho => ?_⟩
      obtain ⟨octets', ho', rfl⟩ := Option.map_eq_some_iff.1 ho
      rw [hstate octets' ho', Buffer.setAll, hi]

/-! ## Short addresses -/

def IsHexDigit (c : UInt8) : Prop :=
  ('0'.toUInt8 ≤ c ∧ c ≤ '9'.toUInt8) ∨ ('a'.toUInt8 ≤ c ∧ c ≤ 'f'.toUInt8) ∨
    ('A'.toUInt8 ≤ c ∧ c ≤ 'F'.toUInt8)

instance (c : UInt8) : Decidable (IsHexDigit c) := inferInstanceAs (Decidable (_ ∨ _ ∨ _))

/-- The text of an octet, before the next one: two digits, perhaps with a colon,
    or one digit with a colon or two. -/
inductive OctetText : Bytes → Prop
  | two {a b : UInt8} : IsHexDigit a → IsHexDigit b → OctetText [a, b]
  | twoColon {a b : UInt8} : IsHexDigit a → IsHexDigit b → OctetText [a, b, ':'.toUInt8]
  | one {a : UInt8} : IsHexDigit a → OctetText [a, ':'.toUInt8]
  | oneColon {a : UInt8} : IsHexDigit a → OctetText [a, ':'.toUInt8, ':'.toUInt8]

/-- A text of `n` octets, up to its end or the first NUL. -/
inductive AddressText : Nat → Bytes → Prop
  | nil {text : Bytes} : charAt text 0 = 0 → AddressText 0 text
  | last {a : UInt8} {text : Bytes} :
      IsHexDigit a → charAt text 0 = 0 → AddressText 1 (a :: text)
  | cons {n : Nat} {octet text : Bytes} :
      OctetText octet → AddressText n text → AddressText (n + 1) (octet ++ text)

theorem hexDigit?_isSome {c : UInt8} : (hexDigit? c).isSome ↔ IsHexDigit c := by
  unfold hexDigit? IsHexDigit
  split_ifs <;> simp_all

theorem IsHexDigit.ne {c : UInt8} (h : IsHexDigit c) : c ≠ 0 ∧ c ≠ ':'.toUInt8 :=
  ⟨fun hc => absurd (hc ▸ h) (by decide), fun hc => absurd (hc ▸ h) (by decide)⟩

/-- Where the loop finds a valid octet. -/
theorem octetAt?_isSome {position : Nat} : (octetAt? mac position).isSome ↔
    IsHexDigit (charAt mac position) ∧ (IsHexDigit (charAt mac (position + 1)) ∨
      charAt mac (position + 1) = ':'.toUInt8 ∨ charAt mac (position + 1) = 0) := by
  rw [← hexDigit?_isSome, ← hexDigit?_isSome, octetAt?]
  cases hexDigit? (charAt mac position) with
  | none => simp
  | some digit =>
    cases h : hexDigit? (charAt mac (position + 1)) with
    | none => simp [addDigit?, h]
    | some digit => simp [addDigit?, h]

theorem charAt_drop (position i : Nat) :
    charAt (mac.drop position) i = charAt mac (position + i) := by
  simp [charAt]

theorem drop_of_charAt {position : Nat} (h : charAt mac position ≠ 0) :
    mac.drop position = charAt mac position :: mac.drop (position + 1) := by
  have hlt : position < mac.length := by
    by_contra hle
    exact h (by simp [charAt, Nat.le_of_not_lt hle])
  rw [List.drop_eq_getElem_cons hlt, charAt, List.getD_eq_getElem?_getD,
    List.getElem?_eq_getElem hlt, Option.getD_some]

/-- The text of a valid octet is that of an octet, unless it is a single digit at
    the end. -/
theorem octetText_of_octetAt {position : Nat} (h : (octetAt? mac position).isSome) :
    (∃ text, OctetText text ∧ mac.drop position = text ++ mac.drop (nextOctet mac position)) ∨
      (charAt mac (position + 1) = 0 ∧ nextOctet mac position = position + 1 ∧
        mac.drop position = charAt mac position :: mac.drop (position + 1)) := by
  obtain ⟨ha, hb⟩ := octetAt?_isSome.1 h
  have hdrop := drop_of_charAt ha.ne.1
  by_cases hz : charAt mac (position + 1) = 0
  · refine .inr ⟨hz, ?_, hdrop⟩
    rw [nextOctet, octetEnd, if_pos hz, hz, if_neg (by decide)]
  · have hend : octetEnd mac position = position + 2 := if_neg hz
    have hb := or_assoc.2 hb |>.resolve_right hz
    rw [drop_of_charAt hz] at hdrop
    rw [nextOctet, hend]
    refine .inl ?_
    by_cases hc : charAt mac (position + 2) = ':'.toUInt8
    · have hc' := drop_of_charAt (hc ▸ by decide : charAt mac (position + 2) ≠ 0)
      rw [if_pos hc]
      rcases hb with hb | hb
      · exact ⟨_, .twoColon ha hb, by rw [hdrop, hc', hc]; rfl⟩
      · exact ⟨_, .oneColon ha, by rw [hdrop, hc', hc, hb]; rfl⟩
    · rw [if_neg hc]
      rcases hb with hb | hb
      · exact ⟨_, .two ha hb, hdrop⟩
      · exact ⟨_, .one ha, by rw [hdrop, hb]; rfl⟩

/-- An accepted text with less than `n` octets is an address of so many octets. -/
theorem addressText_of_parse {n position : Nat} {octets : Bytes}
    (h : parse mac n position = some octets) (hlt : octets.length < n) :
    AddressText octets.length (mac.drop position) := by
  induction n generalizing position octets with
  | zero => exact absurd hlt (Nat.not_lt_zero _)
  | succ n ih =>
    rw [parse] at h
    split_ifs at h with hend
    · obtain rfl := Option.some.inj h
      exact .nil (charAt_drop position 0 ▸ hend)
    obtain ⟨octet, hoctet, h⟩ := Option.bind_eq_some_iff.1 h
    obtain ⟨octets, hparse, rfl⟩ := Option.map_eq_some_iff.1 h
    rcases octetText_of_octetAt (Option.isSome_of_eq_some hoctet) with
      ⟨text, htext, hdrop⟩ | ⟨hz, hnext, hdrop⟩
    · rw [hdrop]
      exact .cons htext (ih hparse (Nat.lt_of_succ_lt_succ hlt))
    · -- A single digit, and the text is over.
      rw [hnext] at hparse
      cases n with
      | zero => exact absurd hlt (Nat.not_lt.2 (Nat.succ_le_succ (Nat.zero_le _)))
      | succ n =>
        rw [parse, if_pos hz] at hparse
        obtain rfl := Option.some.inj hparse
        rw [hdrop]
        refine .last (octetAt?_isSome.1 (Option.isSome_of_eq_some hoctet)).1 ?_
        rw [charAt_drop]
        exact hz

theorem AddressText.head_ne {n : Nat} {text : Bytes} (h : AddressText n text) :
    charAt text 0 ≠ ':'.toUInt8 := by
  cases h with
  | nil h => exact fun hc => absurd (h.symm.trans hc) (by decide)
  | last ha _ => exact ha.ne.2
  | cons hoctet _ => cases hoctet with
    | two ha | twoColon ha | one ha | oneColon ha => exact ha.ne.2

theorem drop_nextOctet {position : Nat} (h : charAt mac (position + 1) ≠ 0) :
    mac.drop (nextOctet mac position) =
      if charAt mac (position + 2) = ':'.toUInt8 then mac.drop (position + 3)
      else mac.drop (position + 2) := by
  rw [nextOctet, octetEnd, if_neg h]
  split_ifs <;> rfl

/-- The text of an octet is converted, and passed over. -/
theorem octetAt_of_octetText {position : Nat} {octet text : Bytes} (hoctet : OctetText octet)
    (hdrop : mac.drop position = octet ++ text) (hne : charAt text 0 ≠ ':'.toUInt8) :
    charAt mac position ≠ 0 ∧ (octetAt? mac position).isSome ∧
      mac.drop (nextOctet mac position) = text := by
  -- Only what comes at the position matters: the octet, then the rest.
  have hat (i : Nat) : charAt mac (position + i) = charAt (octet ++ text) i := by
    rw [← hdrop, charAt_drop]
  have hdrops (i : Nat) : mac.drop (position + i) = (octet ++ text).drop i := by
    rw [← hdrop, List.drop_drop]
  have h₀ : charAt mac position = charAt (octet ++ text) 0 := hat 0
  rw [octetAt?_isSome, h₀, hat 1]
  cases hoctet with
  | two ha hb =>
    refine ⟨ha.ne.1, ⟨ha, .inl hb⟩, ?_⟩
    rw [drop_nextOctet (hat 1 ▸ hb.ne.1), if_neg (hat 2 ▸ hne)]
    exact hdrops 2
  | twoColon ha hb =>
    have h₂ : charAt mac (position + 2) = ':'.toUInt8 := hat 2
    refine ⟨ha.ne.1, ⟨ha, .inl hb⟩, ?_⟩
    rw [drop_nextOctet (hat 1 ▸ hb.ne.1), if_pos h₂]
    exact hdrops 3
  | one ha =>
    have h₁ : charAt mac (position + 1) = ':'.toUInt8 := hat 1
    refine ⟨ha.ne.1, ⟨ha, .inr (.inl rfl)⟩, ?_⟩
    rw [drop_nextOctet (h₁ ▸ by decide), if_neg (hat 2 ▸ hne)]
    exact hdrops 2
  | oneColon ha =>
    have h₁ : charAt mac (position + 1) = ':'.toUInt8 := hat 1
    have h₂ : charAt mac (position + 2) = ':'.toUInt8 := hat 2
    refine ⟨ha.ne.1, ⟨ha, .inr (.inl rfl)⟩, ?_⟩
    rw [drop_nextOctet (h₁ ▸ by decide), if_pos h₂]
    exact hdrops 3

/-- An address of less than `n` octets is accepted, and gives so many octets. -/
theorem parse_of_addressText {k n position : Nat} {text : Bytes} (h : AddressText k text)
    (hdrop : mac.drop position = text) (hlt : k < n) :
    ∃ octets, parse mac n position = some octets ∧ octets.length = k := by
  obtain ⟨n, rfl⟩ : ∃ m, n = m + 1 := ⟨n - 1, by omega⟩
  induction h generalizing n position with
  | nil hz =>
    refine ⟨[], ?_, rfl⟩
    rw [← hdrop, charAt_drop, Nat.add_zero] at hz
    rw [parse, if_pos hz]
  | @last a text ha hz =>
    obtain ⟨n, rfl⟩ : ∃ m, n = m + 1 := ⟨n - 1, by omega⟩
    have h₀ : charAt mac (position + 0) = a := by
      rw [← charAt_drop, hdrop]
      rfl
    have h₁ : charAt mac (position + 1) = 0 := by
      rw [← charAt_drop, hdrop]
      exact hz
    have hnext : nextOctet mac position = position + 1 := by
      rw [nextOctet, octetEnd, if_pos h₁, h₁, if_neg (by decide)]
    rw [Nat.add_zero] at h₀
    obtain ⟨octet, hoctet⟩ := Option.isSome_iff_exists.1
      (octetAt?_isSome.2 ⟨h₀ ▸ ha, .inr (.inr h₁)⟩)
    refine ⟨[octet], ?_, rfl⟩
    rw [parse, if_neg (h₀ ▸ ha.ne.1), hoctet, hnext, parse, if_pos h₁]
    rfl
  | cons hoctet htext ih =>
    obtain ⟨hz, hsome, hnext⟩ := octetAt_of_octetText hoctet hdrop htext.head_ne
    obtain ⟨octet, hsome⟩ := Option.isSome_iff_exists.1 hsome
    obtain ⟨n, rfl⟩ : ∃ m, n = m + 1 := ⟨n - 1, by omega⟩
    obtain ⟨octets, hparse, hlength⟩ := ih hnext n (Nat.lt_of_succ_lt_succ hlt)
    refine ⟨octet :: octets, ?_, congrArg (· + 1) hlength⟩
    rw [parse, if_neg hz, hsome, Option.bind_some, hparse]
    rfl

theorem length_parse_le {n position : Nat} {octets : Bytes}
    (h : parse mac n position = some octets) : octets.length ≤ n := by
  induction n generalizing position octets with
  | zero => exact Option.some.inj h ▸ Nat.le_refl 0
  | succ n ih =>
    rw [parse] at h
    split_ifs at h
    · exact Option.some.inj h ▸ Nat.zero_le _
    · obtain ⟨octet, -, h⟩ := Option.bind_eq_some_iff.1 h
      obtain ⟨octets, hparse, rfl⟩ := Option.map_eq_some_iff.1 h
      exact Nat.succ_le_succ (ih hparse)

end Hostcontrold.WakeOnLan
