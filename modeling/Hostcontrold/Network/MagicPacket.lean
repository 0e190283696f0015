import Hostcontrold.Network.Conversion

/-!
# What a magic packet depends on

The packet consists of the six octets in the buffer, of which the conversion may
have written less: the other ones are then sent as they were found there
(`sent_eq`). So the packet is determined by the text of the address if and only if
this is not too short (`determined_iff`). With an empty text, the packet shows what
was on the stack (`not_determined_empty`).
-/

namespace Hostcontrold.WakeOnLan

open Interaction

variable {mac : Bytes} {sockets : Sockets} {ethaddr : Buffer}

attribute [local simp] handler isSocketCall

/-! ## The packet -/

/-- The magic packet for the address in a buffer. -/
def packet (ethaddr : Buffer) : Bytes :=
  List.replicate 6 0xff ++
    (List.replicate 16 ((List.range kEthAlen).map ethaddr)).flatten

/-- Loading octets into the message. -/
theorem exec_loads (is : List Nat) (buf : Bytes) :
    ∃ tr, socketCalls tr = [] ∧ exec (handler mac sockets)
      (is.foldlM (fun buf i => do return buf ++ [← .perform (WolOp.load i)]) buf) ethaddr =
        ⟨tr, buf ++ is.map ethaddr, ethaddr⟩ := by
  induction is generalizing buf with
  | nil => exact ⟨[], rfl, by simp⟩
  | cons i is ih =>
    obtain ⟨tr, htr, he⟩ := ih (buf ++ [ethaddr i])
    refine ⟨⟨.load i, ethaddr i⟩ :: tr, by simp [htr], ?_⟩
    simp [he, -bind_pure_comp]

/-- Copying the address into the message, again and again. -/
theorem exec_copies (js : List Nat) (buf : Bytes) :
    ∃ tr, socketCalls tr = [] ∧ exec (handler mac sockets)
      (js.foldlM (fun buf _ => (List.range kEthAlen).foldlM
        (fun buf i => do return buf ++ [← .perform (WolOp.load i)]) buf) buf) ethaddr =
        ⟨tr, buf ++ (List.replicate js.length ((List.range kEthAlen).map ethaddr)).flatten,
          ethaddr⟩ := by
  induction js generalizing buf with
  | nil => exact ⟨[], rfl, by simp⟩
  | cons j js ih =>
    obtain ⟨tr, htr, he⟩ := @exec_loads mac sockets ethaddr (List.range kEthAlen) buf
    obtain ⟨tr', htr', he'⟩ := ih (buf ++ (List.range kEthAlen).map ethaddr)
    refine ⟨tr ++ tr', by simp [htr, htr'], ?_⟩
    rw [List.foldlM_cons, exec_bind, he, he']
    simp [List.replicate_succ]

theorem exec_buildMessage : ∃ tr, socketCalls tr = [] ∧
    exec (handler mac sockets) buildMessage ethaddr = ⟨tr, packet ethaddr, ethaddr⟩ := by
  obtain ⟨tr, htr, he⟩ := @exec_copies mac sockets ethaddr (List.range 16) (List.replicate 6 0xff)
  exact ⟨tr, htr, he⟩

theorem length_packet (ethaddr : Buffer) : (packet ethaddr).length = 102 := by
  simp [packet, kEthAlen]

/-- All socket calls succeed. -/
def Sockets.Succeed (sockets : Sockets) : Prop :=
  0 ≤ sockets.socket ∧ 0 ≤ sockets.setsockopt ∧ 0 ≤ sockets.sendto

instance : Decidable sockets.Succeed := inferInstanceAs (Decidable (_ ∧ _ ∧ _))

/-- The socket calls for a message, and whether it is sent. A socket that was opened
    is closed. -/
def transmit (sockets : Sockets) (message : Bytes) : Bool × List (Event WolOp.Ans) :=
  if sockets.socket < 0 then (false, [⟨.socket, sockets.socket⟩])
  else if sockets.setsockopt < 0 then
    (false, [⟨.socket, sockets.socket⟩, ⟨.setsockopt sockets.socket, sockets.setsockopt⟩,
      ⟨.close sockets.socket, ()⟩])
  else
    (decide (0 ≤ sockets.sendto),
      [⟨.socket, sockets.socket⟩, ⟨.setsockopt sockets.socket, sockets.setsockopt⟩,
        ⟨.sendto sockets.socket message 0xffffffff 60000, sockets.sendto⟩,
        ⟨.close sockets.socket, ()⟩])

/-- Nothing is sent for an address that is not accepted. -/
theorem exec_sendMagicPacket_of_none (h : parse mac kEthAlen 0 = none) :
    (exec (handler mac sockets) (sendMagicPacket mac) ethaddr).result = false ∧
      socketCalls (exec (handler mac sockets) (sendMagicPacket mac) ethaddr).trace = [] := by
  obtain ⟨hresult, hcalls, -⟩ :=
    @exec_convertFrom mac sockets ethaddr kEthAlen (Nat.le_refl _) 0
  rw [h] at hresult
  rw [sendMagicPacket, sendWol, convertMacStringToBinary]
  simp [hresult, hcalls, -bind_pure_comp]

/-- If the address is accepted, the magic packet is transmitted, with the octets left
    out taken from the buffer. -/
theorem exec_sendMagicPacket {octets : Bytes} (h : parse mac kEthAlen 0 = some octets) :
    ((exec (handler mac sockets) (sendMagicPacket mac) ethaddr).result,
        socketCalls (exec (handler mac sockets) (sendMagicPacket mac) ethaddr).trace) =
      transmit sockets (packet (ethaddr.setAll 0 octets)) := by
  obtain ⟨hresult, hcalls, hstate⟩ :=
    @exec_convertFrom mac sockets ethaddr kEthAlen (Nat.le_refl _) 0
  rw [h] at hresult
  replace hstate := hstate octets h
  obtain ⟨tr, htr, hbuild⟩ := @exec_buildMessage mac sockets (ethaddr.setAll 0 octets)
  have htake := List.take_of_length_le (Nat.le_of_eq (length_packet (ethaddr.setAll 0 octets)))
  rw [sendMagicPacket, sendWol, convertMacStringToBinary, transmit]
  rcases sockets with ⟨socket, setsockopt, sendto, error⟩
  by_cases h₁ : socket < 0
  · simp [hresult, hcalls, h₁, -bind_pure_comp]
  by_cases h₂ : setsockopt < 0
  · simp [hresult, hcalls, h₁, h₂, -bind_pure_comp]
  by_cases h₃ : sendto < 0
  · simp [hresult, hcalls, hstate, hbuild, htr, htake, h₁, h₂, h₃, -bind_pure_comp]
  · simp [hresult, hcalls, hstate, hbuild, htr, htake, h₁, h₂, h₃, Int.not_lt.1 h₃,
      -bind_pure_comp]

/-- What is sent by the calls. -/
theorem datagrams_transmit (message : Bytes) :
    datagrams (transmit sockets message).2 = if sockets.Succeed then [message] else [] := by
  rcases sockets with ⟨socket, setsockopt, sendto, error⟩
  by_cases h₁ : socket < 0
  · simp [transmit, Sockets.Succeed, datagram?, h₁, Int.not_le.2 h₁]
  by_cases h₂ : setsockopt < 0
  · simp [transmit, Sockets.Succeed, datagram?, h₁, h₂, Int.not_le.2 h₂]
  by_cases h₃ : sendto < 0
  · simp [transmit, Sockets.Succeed, datagram?, h₁, h₂, h₃, Int.not_le.2 h₃]
  · simp [transmit, Sockets.Succeed, datagram?, h₁, h₂, h₃, Int.not_lt.1 h₁, Int.not_lt.1 h₂,
      Int.not_lt.1 h₃]

variable (mac sockets ethaddr) in
/-- The magic packet is sent if the address is accepted, with the octets left out
    taken from the buffer, and the socket calls succeed. -/
theorem sent_eq : sent mac sockets ethaddr = match parse mac kEthAlen 0 with
    | none => []
    | some octets => if sockets.Succeed then [packet (ethaddr.setAll 0 octets)] else [] := by
  rw [sent, ← datagrams_socketCalls]
  cases hparse : parse mac kEthAlen 0 with
  | none =>
    rw [(exec_sendMagicPacket_of_none hparse).2]
    rfl
  | some octets =>
    have hcalls := congrArg Prod.snd (@exec_sendMagicPacket mac sockets ethaddr octets hparse)
    exact (congrArg datagrams hcalls).trans (datagrams_transmit _)

theorem packet_eq_iff {ethaddr ethaddr' : Buffer} :
    packet ethaddr = packet ethaddr' ↔ ∀ i < kEthAlen, ethaddr i = ethaddr' i := by
  constructor
  · intro h i hi
    have h := List.append_cancel_left h
    rw [List.replicate_succ, List.replicate_succ, List.flatten_cons, List.flatten_cons] at h
    exact List.map_inj_left.1 (List.append_inj h (by simp)).1 i (List.mem_range.2 hi)
  · intro h
    rw [packet, packet, List.map_inj_left.2 fun i hi => h i (List.mem_range.1 hi)]

/-! ## What is sent -/

/-- The datagrams do not depend on the contents of the buffer: none is sent, or
    the same 102 bytes. -/
def Determined (mac : Bytes) (sockets : Sockets) : Prop :=
  ∀ ethaddr ethaddr', sent mac sockets ethaddr = [] ∧ sent mac sockets ethaddr' = [] ∨
    ∃ bytes, bytes.length = 102 ∧ sent mac sockets ethaddr = [bytes] ∧
      sent mac sockets ethaddr' = [bytes]

/-- What is sent is determined by the text and the results of the socket calls if
    and only if one of these fails, or the text is not an address of less than six
    octets. -/
theorem determined_iff (mac : Bytes) (sockets : Sockets) :
    Determined mac sockets ↔ ¬sockets.Succeed ∨ ¬∃ n < kEthAlen, AddressText n mac := by
  constructor
  · intro h
    by_contra hshort
    obtain ⟨hsucceed, n, hn, htext⟩ : sockets.Succeed ∧ ∃ n < kEthAlen, AddressText n mac := by
      tauto
    obtain ⟨octets, hparse, rfl⟩ := @parse_of_addressText mac n kEthAlen 0 mac htext rfl hn
    have hsent (ethaddr : Buffer) :
        sent mac sockets ethaddr = [packet (ethaddr.setAll 0 octets)] := by
      rw [sent_eq, hparse]
      exact if_pos hsucceed
    -- The first octet left out shows two different buffers.
    obtain ⟨h, -⟩ | ⟨bytes, -, h₀, h₁⟩ := h (fun _ => 0) (fun _ => 1)
    · rw [hsent] at h
      cases h
    · rw [hsent] at h₀ h₁
      have heq := packet_eq_iff.1 (List.cons_eq_cons.1 (h₀.trans h₁.symm)).1 octets.length hn
      simp [setAll_apply] at heq
  · intro h ethaddr ethaddr'
    rw [sent_eq, sent_eq]
    cases hparse : parse mac kEthAlen 0 with
    | none => exact .inl ⟨rfl, rfl⟩
    | some octets =>
      dsimp only
      split_ifs with hsucceed
      · have hlength : octets.length = kEthAlen := by
          refine Nat.le_antisymm (length_parse_le hparse) (Nat.le_of_not_lt ?_)
          intro hlt
          exact h.resolve_left (not_not.2 hsucceed) ⟨_, hlt, addressText_of_parse hparse hlt⟩
        refine .inr ⟨_, length_packet _, rfl, congrArg ([·]) (packet_eq_iff.2 ?_)⟩
        intro i hi
        simp [setAll_apply, hlength, hi]
      · exact .inl ⟨rfl, rfl⟩

/-- An empty text is accepted, and what the buffer contained is broadcast. -/
theorem not_determined_empty : ¬Determined [] ⟨3, 0, 102, []⟩ := by
  intro h
  obtain ⟨h, -⟩ | ⟨bytes, -, h₀, h₁⟩ := h (fun _ => 0) (fun _ => 1)
  · exact absurd h (by decide)
  · exact absurd (h₀.trans h₁.symm) (by decide)

end Hostcontrold.WakeOnLan
