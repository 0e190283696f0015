import Hostcontrold.Network.Address

/-!
# The accepted texts

The conversion should accept the addresses of six octets (`Complete`), and no other
text. It accepts all of these, but also some others: texts with less than six octets,
down to the empty text, and those that are `Sloppy`, in which a single digit is followed
by two colons, or the sixth octet by anything at all. These are all (`accepts_iff`).

The conversion goes through a text in one way only (`front_unique`), so that no address
is sloppy.
-/

namespace Hostcontrold.WakeOnLan

open Interaction

/-- A complete address. -/
def Complete (s : Bytes) : Prop := ∃ octets, octets.length = 6 ∧ Address octets s

/-- A text of which `n` octets are converted. Nothing is said about what comes after the
    last octet, but for a single digit. -/
inductive Accepted : Nat → Bytes → Prop
  | lastTwo {a b : UInt8} {rest : Bytes} :
      IsHexDigit a → IsHexDigit b → Accepted 1 (a :: b :: rest)
  | lastOne {a : UInt8} {rest : Bytes} :
      IsHexDigit a → charAt rest 0 = ':'.toUInt8 ∨ charAt rest 0 = 0 → Accepted 1 (a :: rest)
  | cons {n : Nat} {front rest : Bytes} :
      OctetText front → Accepted (n + 1) rest → Accepted (n + 2) (front ++ rest)

/-- A text of which `n` octets are converted, and that is no address: it goes on after
    the last octet, or the colon after a single digit is doubled. -/
inductive Sloppy : Nat → Bytes → Prop
  | trailingTwo {a b : UInt8} {rest : Bytes} :
      IsHexDigit a → IsHexDigit b → rest ≠ [] → Sloppy 1 (a :: b :: rest)
  | trailingOne {a : UInt8} {rest : Bytes} : IsHexDigit a → rest ≠ [] →
      charAt rest 0 = ':'.toUInt8 ∨ charAt rest 0 = 0 → Sloppy 1 (a :: rest)
  | doubled {n : Nat} {a : UInt8} {rest : Bytes} : IsHexDigit a → Accepted (n + 1) rest →
      Sloppy (n + 2) ([a, ':'.toUInt8, ':'.toUInt8] ++ rest)
  | cons {n : Nat} {front rest : Bytes} :
      OctetText front → Sloppy (n + 1) rest → Sloppy (n + 2) (front ++ rest)

/-- A text that is accepted although it is no address. -/
def Defective (s : Bytes) : Prop := (∃ n < kEthAlen, AddressText n s) ∨ Sloppy kEthAlen s

variable {mac text rest rest' front front' octets : Bytes} {position n : Nat} {a b octet : UInt8}

/-! ## What is converted -/

theorem OctetText.head_ne (h : OctetText front) (rest : Bytes) :
    charAt (front ++ rest) 0 ≠ ':'.toUInt8 := by
  cases h with
  | two ha | twoColon ha | one ha | oneColon ha => exact ha.ne.2

theorem Accepted.head_ne (h : Accepted n text) : charAt text 0 ≠ ':'.toUInt8 := by
  cases h with
  | lastTwo ha | lastOne ha => exact ha.ne.2
  | cons hfront => exact hfront.head_ne _

theorem Sloppy.accepted (h : Sloppy n text) : Accepted n text := by
  induction h with
  | trailingTwo ha hb => exact .lastTwo ha hb
  | trailingOne ha _ hend => exact .lastOne ha hend
  | doubled ha hrest => exact .cons (.oneColon ha) hrest
  | cons hfront _ ih => exact .cons hfront ih

/-- A text of which all octets have been converted. -/
theorem accepted_of_parse (h : parse mac (n + 1) position = some octets)
    (hlength : octets.length = n + 1) : Accepted (n + 1) (mac.drop position) := by
  induction n generalizing position octets with
  | zero =>
    rw [parse] at h
    split_ifs at h with hend
    · exact absurd (Option.some.inj h ▸ hlength) (by decide)
    obtain ⟨octet, hoctet, -⟩ := Option.bind_eq_some_iff.1 h
    obtain ⟨ha, hb⟩ := octetAt?_isSome.1 (Option.isSome_of_eq_some hoctet)
    rw [drop_of_charAt ha.ne.1]
    rcases hb with hb | hb
    · rw [drop_of_charAt hb.ne.1]
      exact .lastTwo ha hb
    · exact .lastOne ha (by rwa [charAt_drop])
  | succ n ih =>
    rw [parse] at h
    split_ifs at h with hend
    · cases Option.some.inj h ▸ hlength
    obtain ⟨octet, hoctet, h⟩ := Option.bind_eq_some_iff.1 h
    obtain ⟨octets, hparse, rfl⟩ := Option.map_eq_some_iff.1 h
    rcases octetText_of_octetAt (Option.isSome_of_eq_some hoctet) with
      ⟨front, hfront, hdrop⟩ | ⟨hz, hnext, -⟩
    · rw [hdrop]
      exact .cons hfront (ih hparse (Nat.succ.inj hlength))
    · -- A single digit at the end is the last octet.
      rw [hnext, parse, if_pos hz] at hparse
      obtain rfl := Option.some.inj hparse
      cases Nat.succ.inj hlength

/-- Of an accepted text, the octets are converted. -/
theorem Accepted.parse_isSome (h : Accepted n text) (hdrop : mac.drop position = text) :
    (parse mac n position).isSome := by
  have hlast {a : UInt8} {rest : Bytes} {position : Nat} (ha : IsHexDigit a)
      (hdrop : mac.drop position = a :: rest)
      (hend : IsHexDigit (charAt rest 0) ∨ charAt rest 0 = ':'.toUInt8 ∨ charAt rest 0 = 0) :
      (parse mac 1 position).isSome := by
    have h₀ : charAt mac position = a := charAt_of_drop hdrop 0
    have h₁ : charAt mac (position + 1) = charAt rest 0 := charAt_of_drop hdrop 1
    obtain ⟨octet, hoctet⟩ := Option.isSome_iff_exists.1
      (octetAt?_isSome.2 ⟨h₀ ▸ ha, h₁ ▸ hend⟩)
    rw [parse_last ha hdrop hoctet]
    rfl
  induction h generalizing position with
  | lastTwo ha hb => exact hlast ha hdrop (.inl hb)
  | lastOne ha hend => exact hlast ha hdrop (.inr hend)
  | cons hfront hrest ih =>
    obtain ⟨hz, hsome, hnext⟩ := octetAt_of_octetText hfront hdrop hrest.head_ne
    obtain ⟨octet, hoctet⟩ := Option.isSome_iff_exists.1 hsome
    obtain ⟨octets, hparse⟩ := Option.isSome_iff_exists.1 (ih hnext)
    rw [parse, if_neg hz, hoctet, Option.bind_some, hparse]
    rfl

/-! ## Addresses among the accepted texts -/

theorem exists_octetDigits_two (ha : IsHexDigit a) (hb : IsHexDigit b) :
    ∃ octet, OctetDigits octet [a, b] := by
  obtain ⟨u, hu⟩ := exists_hexDigit ha
  obtain ⟨v, hv⟩ := exists_hexDigit hb
  refine ⟨UInt8.ofNat (16 * u + v), .two hu hv (UInt8.toNat_ofNat_of_lt' ?_)⟩
  have hu := hu.lt
  have hv := hv.lt
  rw [UInt8.size]
  omega

theorem exists_octetDigits_one (ha : IsHexDigit a) : ∃ octet, OctetDigits octet [a] := by
  obtain ⟨v, hv⟩ := exists_hexDigit ha
  have hsize : v < UInt8.size := Nat.lt_trans hv.lt (by decide)
  refine ⟨UInt8.ofNat v, .one ?_⟩
  rwa [UInt8.toNat_ofNat_of_lt' hsize]

/-- An accepted text is an address, or it is sloppy. -/
theorem Accepted.address_or_sloppy (h : Accepted n text) :
    (∃ octets, octets.length = n ∧ Address octets text) ∨ Sloppy n text := by
  induction h with
  | @lastTwo a b rest ha hb =>
    by_cases hrest : rest = []
    · obtain ⟨octet, hoctet⟩ := exists_octetDigits_two ha hb
      exact .inl ⟨[octet], rfl, hrest ▸ .last hoctet⟩
    · exact .inr (.trailingTwo ha hb hrest)
  | @lastOne a rest ha hend =>
    by_cases hrest : rest = []
    · obtain ⟨octet, hoctet⟩ := exists_octetDigits_one ha
      exact .inl ⟨[octet], rfl, hrest ▸ .last hoctet⟩
    · exact .inr (.trailingOne ha hrest hend)
  | cons hfront hrest ih =>
    -- The rest is an address: only a doubled colon makes the text sloppy.
    rcases ih with ⟨octets, hlength, haddress⟩ | hsloppy
    · cases hfront with
      | two ha hb =>
        obtain ⟨octet, hoctet⟩ := exists_octetDigits_two ha hb
        exact .inl ⟨octet :: octets, congrArg (· + 1) hlength, .joined hoctet rfl haddress⟩
      | twoColon ha hb =>
        obtain ⟨octet, hoctet⟩ := exists_octetDigits_two ha hb
        exact .inl ⟨octet :: octets, congrArg (· + 1) hlength, .colon hoctet haddress⟩
      | one ha =>
        obtain ⟨octet, hoctet⟩ := exists_octetDigits_one ha
        exact .inl ⟨octet :: octets, congrArg (· + 1) hlength, .colon hoctet haddress⟩
      | oneColon ha => exact .inr (.doubled ha hrest)
    · exact .inr (.cons hfront hsloppy)

/-! ## No address is sloppy -/

/-- A text is split in one way only into an octet and the rest. -/
theorem front_unique (hfront : OctetText front) (hfront' : OctetText front')
    (hhead : charAt rest 0 ≠ ':'.toUInt8) (hhead' : charAt rest' 0 ≠ ':'.toUInt8)
    (h : front ++ rest = front' ++ rest') : front = front' ∧ rest = rest' := by
  obtain ⟨-, -, hrest⟩ := @octetAt_of_octetText (front ++ rest) 0 _ _ hfront rfl hhead
  obtain ⟨-, -, hrest'⟩ := @octetAt_of_octetText (front ++ rest) 0 _ _ hfront' h hhead'
  have heq : rest = rest' := hrest.symm.trans hrest'
  subst heq
  exact ⟨List.append_cancel_right h, rfl⟩

/-- The first octet of an address of more than one: the colon after it is not doubled. -/
theorem Address.uncons (h : Address octets text) (hlength : octets.length = n + 2) :
    ∃ octets' front rest, octets'.length = n + 1 ∧ Address octets' rest ∧ text = front ++ rest ∧
      OctetText front ∧ ∀ a, front ≠ [a, ':'.toUInt8, ':'.toUInt8] := by
  cases h with
  | last => cases hlength
  | @colon octet octets digits text hdigits htext =>
    have hlength := Nat.succ.inj hlength
    cases hdigits with
    | two ha hb =>
      -- The second digit is no colon.
      refine ⟨octets, _, text, hlength, htext, rfl, .twoColon ha.isHexDigit hb.isHexDigit, ?_⟩
      intro c h
      exact hb.isHexDigit.ne.2 (List.cons_eq_cons.1 (List.cons_eq_cons.1 h).2).1
    | one ha =>
      exact ⟨octets, _, text, hlength, htext, rfl, .one ha.isHexDigit, by simp⟩
  | @joined octet octets digits text hdigits hdigits' htext =>
    have hlength := Nat.succ.inj hlength
    cases hdigits with
    | two ha hb =>
      exact ⟨octets, _, text, hlength, htext, rfl, .two ha.isHexDigit hb.isHexDigit, by simp⟩
    | one => cases hdigits'

/-- A sloppy text with more than one octet. -/
theorem Sloppy.uncons (h : Sloppy (n + 2) text) : ∃ front rest, text = front ++ rest ∧
    OctetText front ∧ Accepted (n + 1) rest ∧
      ((∃ a, front = [a, ':'.toUInt8, ':'.toUInt8]) ∨ Sloppy (n + 1) rest) := by
  cases h with
  | doubled ha hrest => exact ⟨_, _, rfl, .oneColon ha, hrest, .inl ⟨_, rfl⟩⟩
  | cons hfront hrest => exact ⟨_, _, rfl, hfront, hrest.accepted, .inr hrest⟩

theorem Address.ne_nil (h : Address octets text) : octets ≠ [] := by
  cases h with
  | last | colon | joined => exact List.cons_ne_nil _ _

theorem Address.not_sloppy (h : Address octets text) (hlength : octets.length = n + 1) :
    ¬Sloppy (n + 1) text := by
  induction n generalizing octets text with
  | zero =>
    intro hsloppy
    cases h with
    | colon _ htext => exact htext.ne_nil (List.length_eq_zero_iff.1 (Nat.succ.inj hlength))
    | joined _ _ htext => exact htext.ne_nil (List.length_eq_zero_iff.1 (Nat.succ.inj hlength))
    | last hdigits =>
      cases hdigits with
      | two ha hb =>
        cases hsloppy with
        | trailingTwo _ _ hrest => exact hrest rfl
        | trailingOne _ _ hend =>
          rcases hend with h | h
          · exact hb.isHexDigit.ne.2 h
          · exact hb.isHexDigit.ne.1 h
      | one ha =>
        cases hsloppy with
        | trailingOne _ hrest => exact hrest rfl
  | succ n ih =>
    intro hsloppy
    obtain ⟨octets', front, rest, hlength', haddress, rfl, hfront, hsingle⟩ := h.uncons hlength
    obtain ⟨front', rest', heq, hfront', hrest', hdefect⟩ := hsloppy.uncons
    -- Both go through the text in the same way, so the rest would be sloppy, too.
    obtain ⟨rfl, rfl⟩ := front_unique hfront hfront' haddress.head_ne hrest'.head_ne heq
    rcases hdefect with ⟨a, ha⟩ | hsloppy'
    · exact hsingle a ha
    · exact ih haddress hlength' hsloppy'

/-! ## The language -/

/-- A complete address is accepted, with its octets. -/
theorem Complete.exists_parse (h : Complete mac) :
    ∃ octets, octets.length = kEthAlen ∧ parse mac kEthAlen 0 = some octets := by
  obtain ⟨octets, hlength, haddress⟩ := h
  have hparse := @Address.parse_eq mac octets mac 0 haddress rfl
  rw [hlength] at hparse
  exact ⟨octets, hlength, hparse⟩

/-- A defective text is accepted, although it is not complete. -/
theorem Defective.not_complete (h : Defective mac) :
    (parse mac kEthAlen 0).isSome ∧ ¬Complete mac := by
  rcases h with ⟨n, hn, htext⟩ | hsloppy
  · obtain ⟨octets, hparse, hlength⟩ := @parse_of_addressText mac n kEthAlen 0 mac htext rfl hn
    refine ⟨Option.isSome_of_eq_some hparse, ?_⟩
    intro hcomplete
    obtain ⟨octets', hlength', hparse'⟩ := hcomplete.exists_parse
    -- A complete address would give six octets.
    obtain rfl := Option.some.inj (hparse.symm.trans hparse')
    omega
  · refine ⟨hsloppy.accepted.parse_isSome rfl, ?_⟩
    rintro ⟨octets, hlength, haddress⟩
    exact haddress.not_sloppy hlength hsloppy

/-- An accepted text is complete, or it is defective. -/
theorem complete_or_defective (h : (parse mac kEthAlen 0).isSome) :
    Complete mac ∨ Defective mac := by
  obtain ⟨octets, hparse⟩ := Option.isSome_iff_exists.1 h
  rcases Nat.lt_or_eq_of_le (length_parse_le hparse) with hlt | heq
  · exact .inr (.inl ⟨_, hlt, addressText_of_parse hparse hlt⟩)
  · rcases (accepted_of_parse hparse heq).address_or_sloppy with hcomplete | hsloppy
    · exact .inl hcomplete
    · exact .inr (.inr hsloppy)

/-- A text is accepted if and only if it is a complete address, unless it is a
    defective one: these are accepted, too. -/
theorem accepts_iff (s : Bytes) (sockets : Sockets) (ethaddr : Buffer) :
    ((exec (handler s sockets) (convertMacStringToBinary s) ethaddr).result = true ↔
      Complete s) ↔ ¬Defective s := by
  have hresult := (@exec_convertFrom s sockets ethaddr kEthAlen (Nat.le_refl _) 0).1
  rw [convertMacStringToBinary, hresult]
  constructor
  · intro h hdefective
    obtain ⟨haccepted, hcomplete⟩ := hdefective.not_complete
    exact hcomplete (h.1 haccepted)
  · intro h
    refine ⟨fun haccepted => (complete_or_defective haccepted).resolve_right h, ?_⟩
    intro hcomplete
    obtain ⟨octets, -, hparse⟩ := hcomplete.exists_parse
    exact Option.isSome_of_eq_some hparse

/-- The empty text is accepted, although it is no address. -/
theorem not_accepts_iff_empty :
    (exec (handler [] ⟨3, 0, 102, []⟩) (convertMacStringToBinary []) fun _ => 0).result = true ∧
    ¬Complete [] ∧
    ¬((exec (handler [] ⟨3, 0, 102, []⟩) (convertMacStringToBinary []) fun _ => 0).result = true ↔
      Complete []) := by
  have hresult : (exec (handler [] ⟨3, 0, 102, []⟩) (convertMacStringToBinary [])
      fun _ => 0).result = true := by decide
  have hcomplete : ¬Complete [] := by
    rintro ⟨octets, -, haddress⟩
    obtain ⟨a, rest, hnil, -⟩ := haddress.head
    cases hnil
  exact ⟨hresult, hcomplete, fun h => hcomplete (h.1 hresult)⟩

end Hostcontrold.WakeOnLan
