import Hostcontrold.Network.MagicPacket

/-!
# Addresses

What a hardware address looks like: six octets, each of one or two hexadecimal digits
in either case, separated by single colons, which may be left out after an octet of
two digits (`Address`). This is a description of the texts, not of the conversion.

The conversion of an address gives its octets (`Address.parse_eq`), and the magic packet
sent for it carries them, sixteen times (`wakes`).
-/

namespace Hostcontrold.WakeOnLan

open Interaction

/-! ## The texts of an address -/

/-- The hexadecimal digit with the value `v`, in either case. -/
def HexDigit (c : UInt8) (v : Nat) : Prop :=
  (ascii "0123456789abcdef")[v]? = some c ∨ (ascii "0123456789ABCDEF")[v]? = some c

instance (c : UInt8) (v : Nat) : Decidable (HexDigit c v) := inferInstanceAs (Decidable (_ ∨ _))

/-- The digits of an octet: two, or one if its value is below 16. -/
inductive OctetDigits (octet : UInt8) : Bytes → Prop
  | two {a b : UInt8} {u v : Nat} : HexDigit a u → HexDigit b v → octet.toNat = 16 * u + v →
      OctetDigits octet [a, b]
  | one {a : UInt8} : HexDigit a octet.toNat → OctetDigits octet [a]

/-- A text that writes the octets in order, separated by colons. After two digits, the
    colon may be left out. -/
inductive Address : Bytes → Bytes → Prop
  | last {octet : UInt8} {digits : Bytes} : OctetDigits octet digits → Address [octet] digits
  | colon {octet : UInt8} {octets digits text : Bytes} : OctetDigits octet digits →
      Address octets text → Address (octet :: octets) (digits ++ ':'.toUInt8 :: text)
  | joined {octet : UInt8} {octets digits text : Bytes} : OctetDigits octet digits →
      digits.length = 2 → Address octets text → Address (octet :: octets) (digits ++ text)

/-! ## The value of an octet -/

theorem HexDigit.lt {c : UInt8} {v : Nat} (h : HexDigit c v) : v < 16 := by
  rcases h with h | h
  · exact (List.getElem?_eq_some_iff.1 h).1
  · exact (List.getElem?_eq_some_iff.1 h).1

/-- The conversion finds the value of a digit. -/
theorem HexDigit.hexDigit?_eq {c : UInt8} {v : Nat} (h : HexDigit c v) :
    hexDigit? c = some v.toUInt32 := by
  have htable : ∀ v < 16, hexDigit? ((ascii "0123456789abcdef").getD v 0) = some v.toUInt32 ∧
      hexDigit? ((ascii "0123456789ABCDEF").getD v 0) = some v.toUInt32 := by decide
  obtain ⟨hlower, hupper⟩ := htable v h.lt
  rcases h with h | h
  · rwa [List.getD_eq_getElem?_getD, h] at hlower
  · rwa [List.getD_eq_getElem?_getD, h] at hupper

theorem HexDigit.isHexDigit {c : UInt8} {v : Nat} (h : HexDigit c v) : IsHexDigit c :=
  hexDigit?_isSome.1 (Option.isSome_of_eq_some h.hexDigit?_eq)

/-- Every digit has a value. -/
theorem exists_hexDigit {c : UInt8} (h : IsHexDigit c) : ∃ v, HexDigit c v := by
  have htable : ∀ n < 256, IsHexDigit (UInt8.ofNat n) → ∃ v < 16,
      (ascii "0123456789abcdef")[v]? = some (UInt8.ofNat n) ∨
        (ascii "0123456789ABCDEF")[v]? = some (UInt8.ofNat n) := by decide +kernel
  have hc := htable c.toNat c.toNat_lt
  rw [UInt8.ofNat_toNat] at hc
  obtain ⟨v, -, hv⟩ := hc h
  exact ⟨v, hv⟩

theorem toUInt8_two : ∀ u < 16, ∀ v < 16,
    (((Nat.toUInt32 u <<< 4) ||| Nat.toUInt32 v) &&& 0o377).toUInt8.toNat = 16 * u + v := by
  decide

theorem toUInt8_one : ∀ u < 16,
    (((Nat.toUInt32 u <<< 4) >>> 4) &&& 0o377).toUInt8.toNat = u := by
  decide

variable {mac : Bytes} {octet a b : UInt8} {octets text : Bytes} {position u v n : Nat}

/-- The characters at a position of a text. -/
theorem charAt_of_drop (hdrop : mac.drop position = text) (i : Nat) :
    charAt mac (position + i) = charAt text i := by
  rw [← hdrop, charAt_drop]

theorem octetAt?_two (ha : HexDigit a u) (hb : HexDigit b v) (hoctet : octet.toNat = 16 * u + v)
    (hdrop : mac.drop position = a :: b :: text) : octetAt? mac position = some octet := by
  have h₀ : charAt mac position = a := charAt_of_drop hdrop 0
  have h₁ : charAt mac (position + 1) = b := charAt_of_drop hdrop 1
  rw [octetAt?, h₀, h₁, ha.hexDigit?_eq, Option.bind_some, addDigit?, hb.hexDigit?_eq]
  exact congrArg some (UInt8.toNat_inj.1 ((toUInt8_two u ha.lt v hb.lt).trans hoctet.symm))

theorem octetAt?_one (ha : HexDigit a octet.toNat)
    (hend : charAt text 0 = ':'.toUInt8 ∨ charAt text 0 = 0)
    (hdrop : mac.drop position = a :: text) : octetAt? mac position = some octet := by
  have h₀ : charAt mac position = a := charAt_of_drop hdrop 0
  have h₁ : charAt mac (position + 1) = charAt text 0 := charAt_of_drop hdrop 1
  have hnone : hexDigit? (charAt text 0) = none := by
    rcases hend with h | h
    · rw [h]
      decide
    · rw [h]
      decide
  rw [octetAt?, h₀, h₁, ha.hexDigit?_eq, Option.bind_some, addDigit?, hnone]
  dsimp only
  rw [if_pos hend]
  exact congrArg some (UInt8.toNat_inj.1 (toUInt8_one _ ha.lt))

/-! ## The conversion of an address -/

theorem OctetDigits.head (h : OctetDigits octet text) :
    ∃ a rest, text = a :: rest ∧ IsHexDigit a := by
  cases h with
  | two ha => exact ⟨_, _, rfl, ha.isHexDigit⟩
  | one ha => exact ⟨_, _, rfl, ha.isHexDigit⟩

/-- An address begins with a digit. -/
theorem Address.head (h : Address octets text) : ∃ a rest, text = a :: rest ∧ IsHexDigit a := by
  cases h with
  | last hdigits => exact hdigits.head
  | colon hdigits =>
    obtain ⟨a, rest, rfl, ha⟩ := hdigits.head
    exact ⟨a, _, rfl, ha⟩
  | joined hdigits =>
    obtain ⟨a, rest, rfl, ha⟩ := hdigits.head
    exact ⟨a, _, rfl, ha⟩

theorem Address.head_ne (h : Address octets text) : charAt text 0 ≠ ':'.toUInt8 := by
  obtain ⟨a, rest, rfl, ha⟩ := h.head
  exact ha.ne.2

/-- An octet, then the rest. -/
theorem parse_cons {front : Bytes} (hfront : OctetText front)
    (hdrop : mac.drop position = front ++ text) (hhead : charAt text 0 ≠ ':'.toUInt8)
    (hoctet : octetAt? mac position = some octet)
    (hrest : ∀ position, mac.drop position = text → parse mac n position = some octets) :
    parse mac (n + 1) position = some (octet :: octets) := by
  obtain ⟨hz, -, hnext⟩ := octetAt_of_octetText hfront hdrop hhead
  rw [parse, if_neg hz, hoctet, Option.bind_some, hrest _ hnext]
  rfl

/-- The last octet. -/
theorem parse_last (ha : IsHexDigit a) (hdrop : mac.drop position = a :: text)
    (hoctet : octetAt? mac position = some octet) : parse mac 1 position = some [octet] := by
  have h₀ : charAt mac position = a := charAt_of_drop hdrop 0
  rw [parse, if_neg (h₀ ▸ ha.ne.1), hoctet]
  rfl

/-- Of an address, the octets are converted. -/
theorem Address.parse_eq (h : Address octets text) (hdrop : mac.drop position = text) :
    parse mac octets.length position = some octets := by
  induction h generalizing position with
  | last hdigits =>
    cases hdigits with
    | two ha hb hoctet => exact parse_last ha.isHexDigit hdrop (octetAt?_two ha hb hoctet hdrop)
    | one ha => exact parse_last ha.isHexDigit hdrop (octetAt?_one ha (.inr rfl) hdrop)
  | colon hdigits htext ih =>
    cases hdigits with
    | two ha hb hoctet =>
      have hfront := OctetText.twoColon ha.isHexDigit hb.isHexDigit
      exact parse_cons hfront hdrop htext.head_ne (octetAt?_two ha hb hoctet hdrop) fun _ => ih
    | one ha =>
      have hfront := OctetText.one ha.isHexDigit
      exact parse_cons hfront hdrop htext.head_ne (octetAt?_one ha (.inl rfl) hdrop) fun _ => ih
  | joined hdigits hlength htext ih =>
    cases hdigits with
    | two ha hb hoctet =>
      have hfront := OctetText.two ha.isHexDigit hb.isHexDigit
      exact parse_cons hfront hdrop htext.head_ne (octetAt?_two ha hb hoctet hdrop) fun _ => ih
    | one => cases hlength

/-! ## Waking a machine -/

/-- A whole address is accepted, and its octets are read. -/
theorem parse_of_address {text : Bytes} (h : Address octets text) (hlength : octets.length = 6) :
    parse text kEthAlen 0 = some octets := by
  have hparse := @Address.parse_eq text octets text 0 h rfl
  rwa [hlength] at hparse

/-- The elements of a list repeated. -/
theorem getElem?_flatten_replicate {α : Type} (l : List α) {n i j : Nat} (hj : j < n)
    (hi : i < l.length) : (List.replicate n l).flatten[l.length * j + i]? = l[i]? := by
  induction j generalizing n with
  | zero =>
    obtain ⟨n, rfl⟩ := Nat.exists_eq_succ_of_ne_zero (Nat.ne_of_gt hj)
    rw [List.replicate_succ, List.flatten_cons, Nat.mul_zero, Nat.zero_add,
      List.getElem?_append_left hi]
  | succ j ih =>
    obtain ⟨n, rfl⟩ := Nat.exists_eq_succ_of_ne_zero (Nat.ne_of_gt (Nat.zero_lt_of_lt hj))
    have hindex : l.length * (j + 1) + i - l.length = l.length * j + i := by
      rw [Nat.mul_succ]
      omega
    rw [List.replicate_succ, List.flatten_cons, List.getElem?_append_right (by
      rw [Nat.mul_succ]
      omega), hindex, ih (Nat.lt_of_succ_lt_succ hj)]

/-- The bytes of a magic packet. -/
theorem packet_getElem? (ethaddr : Buffer) : (∀ k < 6, (packet ethaddr)[k]? = some 0xff) ∧
    ∀ j < 16, ∀ i < kEthAlen, (packet ethaddr)[6 + 6 * j + i]? = some (ethaddr i) := by
  have hlength : ((List.range kEthAlen).map ethaddr).length = 6 := by simp [kEthAlen]
  refine ⟨?_, ?_⟩
  · intro k hk
    rw [packet, List.getElem?_append_left (by simpa using hk), List.getElem?_replicate, if_pos hk]
  · intro j hj i hi
    have hindex : 6 + 6 * j + i - (List.replicate 6 (0xff : UInt8)).length = 6 * j + i := by
      rw [List.length_replicate]
      omega
    have helement := getElem?_flatten_replicate ((List.range kEthAlen).map ethaddr) hj
      (Nat.lt_of_lt_of_eq hi hlength.symm)
    rw [hlength] at helement
    rw [packet, List.getElem?_append_right (by
      rw [List.length_replicate]
      omega), hindex, helement, List.getElem?_map, List.getElem?_range hi]
    rfl

/-- The datagram sent with an event, and where it is sent, if it is one. -/
def transmission? : Event WolOp.Ans → Option (UInt32 × UInt16 × Bytes)
  | ⟨.sendto _ message address port, result⟩ =>
    if result < 0 then none else some (address, port, message)
  | _ => none

/-- The datagrams sent: the address, the port and the message. -/
def transmissions (tr : List (Event WolOp.Ans)) : List (UInt32 × UInt16 × Bytes) :=
  tr.filterMap transmission?

/-- The socket closed with an event, if it is one. -/
def close? : Event WolOp.Ans → Option Int
  | ⟨.close packet, _⟩ => some packet
  | _ => none

/-- The sockets closed. -/
def closes (tr : List (Event WolOp.Ans)) : List Int := tr.filterMap close?

theorem transmissions_socketCalls (tr : List (Event WolOp.Ans)) :
    transmissions (socketCalls tr) = transmissions tr := by
  refine filterMap_socketCalls ?_ tr
  rintro ⟨op, x⟩ h
  cases op with
  | sendto => cases h
  | _ => rfl

theorem closes_socketCalls (tr : List (Event WolOp.Ans)) : closes (socketCalls tr) = closes tr := by
  refine filterMap_socketCalls ?_ tr
  rintro ⟨op, x⟩ h
  cases op with
  | close => cases h
  | _ => rfl

/-- The magic packet for six octets. -/
structure MagicFor (octets message : Bytes) : Prop where
  length : message.length = 102
  head : ∀ k < 6, message[k]? = some 0xff
  body : ∀ j < 16, ∀ i < 6, message[6 + 6 * j + i]? = octets[i]?

theorem magicFor_packet (ethaddr : Buffer) (hlength : octets.length = 6) :
    MagicFor octets (packet (ethaddr.setAll 0 octets)) := by
  obtain ⟨hhead, hbody⟩ := packet_getElem? (ethaddr.setAll 0 octets)
  refine ⟨length_packet _, hhead, ?_⟩
  intro j hj i hi
  have hlt : i < octets.length := by omega
  rw [hbody j hj i hi, setAll_apply, if_neg (Nat.not_lt_zero i), Nat.sub_zero,
    List.getD_eq_getElem?_getD, List.getElem?_eq_getElem hlt, Option.getD_some]

theorem transmit_of_succeed {sockets : Sockets} (h : sockets.Succeed) (message : Bytes) :
    (transmit sockets message).1 = true ∧
      transmissions (transmit sockets message).2 = [(0xffffffff, 60000, message)] := by
  obtain ⟨h₁, h₂, h₃⟩ := h
  rw [transmit, if_neg (Int.not_lt.2 h₁), if_neg (Int.not_lt.2 h₂)]
  simp [transmissions, List.filterMap_cons, transmission?, h₃]

theorem transmit_of_not_succeed {sockets : Sockets} (h : ¬sockets.Succeed) (message : Bytes) :
    (transmit sockets message).1 = false ∧ transmissions (transmit sockets message).2 = [] := by
  rw [transmit]
  split_ifs with h₁ h₂
  · exact ⟨rfl, rfl⟩
  · exact ⟨rfl, rfl⟩
  · have h₃ : sockets.sendto < 0 := by
      by_contra hsent
      exact h ⟨Int.not_lt.1 h₁, Int.not_lt.1 h₂, Int.not_lt.1 hsent⟩
    simp [transmissions, List.filterMap_cons, transmission?, h₃]

/-- A socket that was opened is closed once. -/
theorem closes_transmit (sockets : Sockets) (message : Bytes) :
    closes (transmit sockets message).2 = if 0 ≤ sockets.socket then [sockets.socket] else [] := by
  rw [transmit]
  split_ifs <;> first | rfl | omega

/-- For every text that writes six octets, exactly one magic packet for them is
    broadcast if the socket calls succeed, and none otherwise. A socket that was opened
    is closed once. -/
theorem wakes {octets text : Bytes} (h : Address octets text) (hlength : octets.length = 6)
    (sockets : Sockets) (ethaddr : Buffer) :
    let r := exec (handler text sockets) (sendMagicPacket text) ethaddr
    (sockets.Succeed → r.result = true ∧ ∃ message, MagicFor octets message ∧
      transmissions r.trace = [(0xffffffff, 60000, message)]) ∧
    (¬sockets.Succeed → r.result = false ∧ transmissions r.trace = []) ∧
    closes r.trace = if 0 ≤ sockets.socket then [sockets.socket] else [] := by
  intro r
  have hparse : parse text kEthAlen 0 = some octets := by
    have hparse := @Address.parse_eq text octets text 0 h rfl
    rwa [hlength] at hparse
  have hexec := @exec_sendMagicPacket text sockets ethaddr octets hparse
  have hresult := congrArg Prod.fst hexec
  have hcalls := congrArg Prod.snd hexec
  have htransmissions := (transmissions_socketCalls r.trace).symm.trans (congrArg _ hcalls)
  have hcloses := (closes_socketCalls r.trace).symm.trans (congrArg _ hcalls)
  refine ⟨?_, ?_, hcloses.trans (closes_transmit _ _)⟩
  · intro hsucceed
    obtain ⟨hsent, hmessage⟩ := transmit_of_succeed hsucceed (packet (ethaddr.setAll 0 octets))
    exact ⟨hresult.trans hsent, _, magicFor_packet ethaddr hlength, htransmissions.trans hmessage⟩
  · intro hfails
    obtain ⟨hsent, hmessage⟩ := transmit_of_not_succeed hfails (packet (ethaddr.setAll 0 octets))
    exact ⟨hresult.trans hsent, htransmissions.trans hmessage⟩

/-- An address with digits in both cases, a single digit, and a colon left out. -/
theorem address_mixed :
    Address [0x40, 0x8d, 0x5c, 0xb6, 0x0e, 0x52] (ascii "40:8D5C:b6:e:52") :=
  .colon (@OctetDigits.two 0x40 0x34 0x30 4 0 (by decide) (by decide) (by decide))
    (.joined (@OctetDigits.two 0x8d 0x38 0x44 8 13 (by decide) (by decide) (by decide)) rfl
      (.colon (@OctetDigits.two 0x5c 0x35 0x43 5 12 (by decide) (by decide) (by decide))
        (.colon (@OctetDigits.two 0xb6 0x62 0x36 11 6 (by decide) (by decide) (by decide))
          (.colon (@OctetDigits.one 0x0e 0x65 (by decide))
            (.last (@OctetDigits.two 0x52 0x35 0x32 5 2 (by decide) (by decide) (by decide)))))))

/-- The machine with this address is woken. -/
theorem wakes_mixed :
    let r := exec (handler (ascii "40:8D5C:b6:e:52") ⟨3, 0, 102, []⟩)
      (sendMagicPacket (ascii "40:8D5C:b6:e:52")) fun _ => 0
    r.result = true ∧ (∃ message, MagicFor [0x40, 0x8d, 0x5c, 0xb6, 0x0e, 0x52] message ∧
      transmissions r.trace = [(0xffffffff, 60000, message)]) ∧ closes r.trace = [3] := by
  obtain ⟨hsucceed, -, hcloses⟩ := wakes address_mixed rfl ⟨3, 0, 102, []⟩ fun _ => 0
  obtain ⟨hresult, hmessage⟩ := hsucceed (by decide)
  exact ⟨hresult, hmessage, hcloses⟩

end Hostcontrold.WakeOnLan
