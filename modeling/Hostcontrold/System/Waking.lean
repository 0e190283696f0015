import Hostcontrold.System.Policy

/-!
# The machines woken

That the daemon decides to wake a machine means that it runs the code for wake-on-LAN. If
the hardware address of the machine is well formed, and the sockets work, the machine is
woken then: exactly one magic packet for it is broadcast (`transmissions_sendMagicPacket`).
So the packets on the network are those of the power policy (`daemon_wakes`).
-/

namespace Hostcontrold

open Interaction Policy ServerController WakeOnLan

variable {turns i : Nat} {config : ServerMachineConfig} {json : Json} {outcome : Outcome}
  {tr : SystemTrace} {mac : String} {ethaddr ethaddr' : Buffer} {octets : Bytes}

/-! ## One packet -/

/-- The call of the socket interface of an event, if it is one, succeeds. -/
def SocketsWork (e : Event SystemOp.Ans) : Prop :=
  match e with
  | ⟨.wol _ .socket, packet⟩ => (0 : Int) ≤ packet
  | ⟨.wol _ (.setsockopt _), status⟩ => (0 : Int) ≤ status
  | ⟨.wol _ (.sendto _ _ _ _), length⟩ => (0 : Int) ≤ length
  | _ => True

/-- The magic packet for six octets. -/
def magicPacket (octets : Bytes) : Bytes :=
  List.replicate 6 0xff ++ (List.replicate 16 octets).flatten

/-- The octets in the buffer are all that the packet is made of. -/
theorem packet_setAll (ethaddr : Buffer) (hlength : octets.length = 6) :
    packet (ethaddr.setAll 0 octets) = magicPacket octets := by
  have hoctets : (List.range kEthAlen).map (ethaddr.setAll 0 octets) = octets := by
    refine List.ext_getElem (by simp [kEthAlen, hlength]) fun j _ hj => ?_
    rw [List.getElem_map, List.getElem_range, setAll_apply, if_neg (Nat.not_lt_zero j),
      Nat.sub_zero, List.getD_eq_getElem?_getD, List.getElem?_eq_getElem hj, Option.getD_some]
  rw [packet, magicPacket, hoctets]

theorem magicFor_magicPacket (hlength : octets.length = 6) :
    MagicFor octets (magicPacket octets) :=
  packet_setAll (fun _ => 0) hlength ▸ magicFor_packet _ hlength

/-- A well-formed address is accepted. -/
theorem convert_of_address {events : List (Event WolOp.Ans)} {accepted : Bool}
    (hlength : octets.length = 6) (haddress : Address octets (Utf8.ofString mac))
    (h : Runs (convertMacStringToBinary (Utf8.ofString mac)) events accepted)
    (hM : Evolves (wolMemory mac) ethaddr events ethaddr') : accepted = true := by
  have hlocal := h.only (only_convertFrom (Utf8.ofString mac) kEthAlen 0)
  have hexec : exec (WakeOnLan.handler (Utf8.ofString mac) ⟨0, 0, 0, []⟩)
      (convertFrom (Utf8.ofString mac) kEthAlen 0) ethaddr = ⟨events, accepted, ethaddr'⟩ :=
    exec_of_evolves h (evolves_handler hM fun e he => .inl (hlocal e he))
  obtain ⟨hresult, -, -⟩ :=
    @exec_convertFrom (Utf8.ofString mac) ⟨0, 0, 0, []⟩ ethaddr kEthAlen (Nat.le_refl _) 0
  rwa [hexec, parse_of_address haddress hlength] at hresult

theorem transmissions_of_only {α : Type} {p : WolAction α} {P : WolOp → Prop} {a : α}
    {events : List (Event WolOp.Ans)} (h : Runs p events a) (hp : p.Only P)
    (hP : ∀ packet message address port, ¬P (.sendto packet message address port)) :
    transmissions events = [] := by
  refine List.filterMap_eq_nil_iff.2 ?_
  rintro ⟨op, x⟩ he
  have hop := h.only hp _ he
  cases op with
  | sendto => exact absurd hop (hP _ _ _ _)
  | _ => rfl

/-- If the address is well formed and the sockets work, the packet is sent, and nothing else. -/
theorem transmissions_sendMagicPacket {events : List (Event WolOp.Ans)} {sent : Bool}
    (hlength : octets.length = 6) (haddress : Address octets (Utf8.ofString mac))
    (h : Runs (sendMagicPacket (Utf8.ofString mac)) events sent)
    (hM : Evolves (wolMemory mac) ethaddr events ethaddr')
    (hsockets : ∀ e ∈ events, SocketsWork (e.embed (SystemOp.wol mac))) :
    transmissions events = [(0xffffffff, 60000, magicPacket octets)] := by
  obtain ⟨tr₁, accepted, tr₂, hconvert, hrest, rfl⟩ := runs_bind_iff.1 h
  obtain ⟨ethaddr₁, hM₁, hM₂⟩ := evolves_append_iff.1 hM
  obtain rfl := convert_of_address hlength haddress hconvert hM₁
  obtain ⟨-, hsockets⟩ := List.forall_mem_append.1 hsockets
  have hconverted := guarded_convert.post trivial hconvert hM₁ rfl
  rw [if_neg (by decide)] at hrest
  -- The socket is opened, and the option set.
  obtain ⟨socket, _, rfl, h₂⟩ := runs_perform_bind_iff.1 hrest
  obtain ⟨hsocket, hsockets⟩ := List.forall_mem_cons.1 hsockets
  rw [if_neg (Int.not_lt.2 hsocket)] at h₂
  obtain ⟨status, _, rfl, h₃⟩ := runs_perform_bind_iff.1 h₂
  obtain ⟨hstatus, hsockets⟩ := List.forall_mem_cons.1 hsockets
  rw [if_neg (Int.not_lt.2 hstatus)] at h₃
  -- The message is built from the buffer, which contains the octets.
  obtain ⟨tr₃, message, _, hbuild, h₄, rfl⟩ := runs_bind_iff.1 h₃
  obtain ⟨ethaddr₂, hopen, hM₂⟩ := evolves_cons_iff.1 hM₂
  obtain ⟨ethaddr₃, hset, hM₃⟩ := evolves_cons_iff.1 hM₂
  obtain rfl : ethaddr₂ = ethaddr₁ := hopen
  obtain rfl : ethaddr₃ = ethaddr₂ := hset
  obtain ⟨ethaddr₄, hM₃, -⟩ := evolves_append_iff.1 hM₃
  obtain ⟨⟨octets', ethaddr₀, hparse, rfl⟩, rfl⟩ := guarded_buildMessage.post hconverted hbuild hM₃
  obtain ⟨-, hsockets⟩ := List.forall_mem_append.1 hsockets
  obtain ⟨length, _, rfl, h₅⟩ := runs_perform_bind_iff.1 h₄
  obtain ⟨hsent, -⟩ := List.forall_mem_cons.1 hsockets
  rw [if_neg (Int.not_lt.2 hsent)] at h₅
  obtain ⟨_, _, rfl, h₆⟩ := runs_perform_bind_iff.1 h₅
  obtain ⟨rfl, rfl⟩ := runs_pure_iff.1 h₆
  obtain rfl := Option.some.inj (hparse.symm.trans (parse_of_address haddress hlength))
  have hmessage : (packet (ethaddr₀.setAll 0 octets')).take 102 = magicPacket octets' :=
    (List.take_of_length_le (Nat.le_of_eq (length_packet _))).trans (packet_setAll _ hlength)
  have hnone₁ := transmissions_of_only hconvert (only_convertFrom _ _ _) fun _ _ _ _ => id
  have hnone₃ := transmissions_of_only hbuild only_buildMessage fun _ _ _ _ => id
  rw [transmissions] at hnone₁ hnone₃
  have hlt : ¬(length : Int) < 0 := Int.not_lt.2 hsent
  simp [transmissions, List.filterMap_cons, transmission?, hnone₁, hnone₃, hmessage, hlt]

/-! ## The packets of the daemon -/

/-- The datagram sent with an event of the system, if it is one. -/
def systemTransmission? : Event SystemOp.Ans → Option (UInt32 × UInt16 × Bytes)
  | ⟨.wol _ op, x⟩ => transmission? ⟨op, x⟩
  | _ => none

/-- The datagrams sent: the address, the port and the message. -/
def systemTransmissions (tr : SystemTrace) : List (UInt32 × UInt16 × Bytes) :=
  tr.filterMap systemTransmission?

/-- The datagram that carries out a command for the machine with the address `octets`, if it
    is to be woken: it is broadcast. -/
def broadcast? (octets : Bytes) : Command → Option (UInt32 × UInt16 × Bytes)
  | .wol _ => some (0xffffffff, 60000, magicPacket octets)
  | .shutdown _ _ => none

/-- The operations of a controller send the packets they should. -/
theorem transmissions_deploy {op : Op} {x : op.Ans} (howned : Owned config op)
    (hlength : octets.length = 6) (haddress : Address octets (Utf8.ofString config.mac))
    (h : Runs (deploy op) tr x) (hM : Evolves MemoryWorld ethaddr tr ethaddr')
    (hsockets : ∀ e ∈ tr, SocketsWork e) :
    systemTransmissions tr = (commands [⟨op, x⟩]).filterMap (broadcast? octets) := by
  have hnone {p : SystemAction op.Ans} (h : Runs p tr x) (hp : p.Only Socketless) :
      systemTransmissions tr = [] := by
    refine List.filterMap_eq_nil_iff.2 ?_
    rintro ⟨op, x⟩ he
    have hop := h.only hp _ he
    cases op with
    | wol => cases hop
    | _ => rfl
  rcases howned with rfl | hacts
  · exact hnone h ((only_perform_iff _).2 trivial)
  cases op with
  | now => cases hacts
  | sendMagicPacket mac =>
    obtain rfl := hacts
    obtain ⟨events, rfl, hsend⟩ := (runs_embed_iff _).1 h
    have hM := evolves_map_embed_iff.1 hM
    exact List.filterMap_map.trans (transmissions_sendMagicPacket hlength haddress hsend hM
      (List.forall_mem_map.1 hsockets))
  | checkFileExists | createEmptyFile | removeFile | createDirectory | pingHost
  | sendShutdownCommand =>
    exact hnone h (.embed _ ((only_true _).mono fun _ _ => trivial))
  | stopExecution | log => exact hnone h ((only_perform_iff _).2 trivial)

/-- A call sends the packets for its commands. -/
theorem transmissions_call {plus : Int → Int → Int} {s s' : ServerController}
    (hlength : octets.length = 6) (haddress : Address octets (Utf8.ofString config.mac))
    (h : Runs ((doWork plus config s).interpret deploy) tr s')
    (hM : Evolves MemoryWorld ethaddr tr ethaddr') (hsockets : ∀ e ∈ tr, SocketsWork e) :
    systemTransmissions tr = (issued config tr).filterMap (broadcast? octets) := by
  obtain ⟨tr₀, hrun, himpl⟩ := runs_interpret_iff.1 h
  have howned := hrun.only owned_doWork
  rw [issued_eq (call_of_runs hrun) (sameView_of_implements himpl howned)]
  refine himpl.lift (R := fun tr₀ tr => ∀ ethaddr ethaddr',
    Evolves MemoryWorld ethaddr tr ethaddr' → (∀ e ∈ tr, SocketsWork e) →
      systemTransmissions tr = (commands tr₀).filterMap (broadcast? octets))
    ?_ ?_ ?_ _ _ hM hsockets
  · exact fun _ _ _ _ => rfl
  · intro tr₁ tr₁' tr₂ tr₂' h₁ h₂ ethaddr ethaddr' hM hsockets
    obtain ⟨_, hM₁, hM₂⟩ := evolves_append_iff.1 hM
    obtain ⟨hsockets₁, hsockets₂⟩ := List.forall_mem_append.1 hsockets
    rw [commands_append, List.filterMap_append, ← h₁ _ _ hM₁ hsockets₁, ← h₂ _ _ hM₂ hsockets₂]
    exact List.filterMap_append
  · exact fun e he _ hop _ _ => transmissions_deploy (howned e he) hlength haddress hop

/-- So do all calls of a run. -/
theorem transmissions_calls {plus : Int → Int → Int} {tr₀ : SystemTrace} {trs : List SystemTrace}
    {s : ServerController} (hlength : octets.length = 6)
    (haddress : Address octets (Utf8.ofString config.mac)) (h : IsSystemRun plus config tr₀ trs s)
    (htrs : ∀ tr ∈ trs, (∃ ethaddr ethaddr', Evolves MemoryWorld ethaddr tr ethaddr') ∧
      ∀ e ∈ tr, SocketsWork e) :
    trs.map systemTransmissions =
      (trs.map (issued config)).map (List.filterMap (broadcast? octets)) := by
  induction h with
  | construct => rfl
  | call _ hrun ih =>
    obtain ⟨⟨⟨_, _, hM⟩, hsockets⟩, hrest⟩ := List.forall_mem_cons.1 htrs
    exact congrArg₂ List.cons (transmissions_call hlength haddress hrun hM hsockets) (ih hrest)

theorem socketsWork_memoryHandler {e : Event SystemOp.Ans}
    (h : ∃ ethaddr, e.ans = (memoryHandler e.op ethaddr).1) : SocketsWork e := by
  obtain ⟨op, x⟩ := e
  obtain ⟨ethaddr, hans⟩ := h
  obtain rfl : x = (memoryHandler op ethaddr).1 := hans
  cases op with
  | wol mac op =>
    cases op with
    | socket => exact (by decide : (0 : Int) ≤ 3)
    | setsockopt => exact Int.le_refl 0
    | sendto => exact (by decide : (0 : Int) ≤ 102)
    | _ => trivial
  | _ => trivial

end Hostcontrold
