import Hostcontrold.Interaction.Guard
import Hostcontrold.Network.Address
import Hostcontrold.System.Operations

/-!
# Sockets and datagrams

A socket is opened for a magic packet, and closed after it: at every event of every run, the
daemon has at most one socket open, the one that is used, and everything but sending a magic
packet happens without one (`daemon_sockets`).

Whatever hardware addresses are configured, all datagrams are magic packets, and they are
broadcast. If the address is well formed, its machine is woken, whatever was in memory
before (`daemon_datagrams`).
-/

namespace Hostcontrold

open Interaction ServerController WakeOnLan

variable {plus : Int → Int → Int} {turns : Nat} {tr tr' : SystemTrace} {outcome : Outcome}
  {e : Event SystemOp.Ans}

/-! ## Sockets -/

/-- Which sockets are open. A new one gets a number of its own. -/
def SocketWorld : World SystemOp.Ans (List Int) := fun sockets e sockets' =>
  match e with
  | ⟨.wol _ .socket, packet⟩ =>
    if packet < (0 : Int) then sockets' = sockets
    else packet ∉ sockets ∧ sockets' = packet :: sockets
  | ⟨.wol _ (.close packet), _⟩ => sockets' = sockets.erase packet
  | _ => sockets' = sockets

/-- Of the daemon, at most one socket is open: the one that is used. Everything but sending
    a magic packet happens without one. -/
def SocketGuard (others : List Int) (e : Event SystemOp.Ans) (sockets : List Int) : Prop :=
  match e.op with
  | .wol _ (.setsockopt packet) => sockets = packet :: others
  | .wol _ (.sendto packet _ _ _) => sockets = packet :: others
  | .wol _ (.close packet) => sockets = packet :: others
  | .wol _ (.load _) | .wol _ .strerror | .wol _ (.logErr _) => True
  | _ => sockets = others

variable {others sockets : List Int} {mac : String}

/-- The world and the guard of the wake-on-LAN code. -/
abbrev wolSockets (mac : String) : World WolOp.Ans (List Int) :=
  fun w e w' => SocketWorld w (e.embed (SystemOp.wol mac)) w'

abbrev wolSocketGuard (others : List Int) (mac : String) (e : Event WolOp.Ans) (w : List Int) :
    Prop :=
  SocketGuard others (e.embed (SystemOp.wol mac)) w

namespace WakeOnLan

/-- The operations of the conversion. -/
def Converts : WolOp → Prop
  | .read _ | .write _ _ | .logErr _ => True
  | _ => False

/-- The operations around an open socket that do not use it. -/
def Loads : WolOp → Prop
  | .load _ | .strerror | .logErr _ => True
  | _ => False

theorem only_convertFrom (text : Bytes) (n position : Nat) :
    (convertFrom text n position).Only Converts := by
  induction n generalizing position with
  | zero => exact ⟨trivial, fun _ => trivial⟩
  | succ n ih =>
    refine only_perform_bind_iff.2 ⟨trivial, fun c => ?_⟩
    split_ifs
    · trivial
    refine only_perform_bind_iff.2 ⟨trivial, fun c => ?_⟩
    cases hexDigit? c with
    | none => exact ⟨trivial, fun _ => trivial⟩
    | some digit =>
      refine only_perform_bind_iff.2 ⟨trivial, fun c => ?_⟩
      dsimp only
      cases addDigit? (digit <<< 4) c with
      | none => exact ⟨trivial, fun _ => trivial⟩
      | some val =>
        refine only_perform_bind_iff.2 ⟨trivial, fun _ => ?_⟩
        refine only_perform_bind_iff.2 ⟨trivial, fun c => ?_⟩
        have hrest (c : UInt8) (position : Nat) : Program.Only Converts (if c = ':'.toUInt8 then
            convertFrom text n (position + 1) else convertFrom text n position) := by
          split_ifs
          · exact ih _
          · exact ih _
        exact hrest c _

theorem only_foldlM {α β : Type} {P : WolOp → Prop} {f : β → α → WolAction β}
    (hf : ∀ b a, (f b a).Only P) (l : List α) (b : β) : (l.foldlM f b).Only P := by
  induction l generalizing b with
  | nil => trivial
  | cons a l ih =>
    rw [List.foldlM_cons]
    exact (hf b a).bind fun b => ih b

theorem only_buildMessage : buildMessage.Only Loads := by
  refine only_foldlM (fun buf _ => only_foldlM (fun buf i => ?_) _ _) _ _
  exact ⟨trivial, fun _ => trivial⟩

end WakeOnLan

theorem guarded_converts {α : Type} {p : WolAction α} (hp : p.Only WakeOnLan.Converts) :
    Guarded (wolSockets mac) (wolSocketGuard others mac) (· = others) p fun _ => (· = others) := by
  refine Guarded.of_only hp ?_ ?_
  · rintro ⟨op, x⟩ w hop hw
    cases op with
    | read | write => exact hw
    | logErr => trivial
    | _ => cases hop
  · rintro ⟨op, x⟩ w w' hop hw hstep
    cases op with
    | read | write | logErr => exact Eq.trans hstep hw
    | _ => cases hop

theorem guarded_loads {α : Type} {p : WolAction α} (hp : p.Only WakeOnLan.Loads) :
    Guarded (wolSockets mac) (wolSocketGuard others mac) (· = sockets) p
      fun _ => (· = sockets) := by
  refine Guarded.of_only hp ?_ ?_
  · rintro ⟨op, x⟩ w hop hw
    cases op with
    | load | strerror | logErr => trivial
    | _ => cases hop
  · rintro ⟨op, x⟩ w w' hop hw hstep
    cases op with
    | load | strerror | logErr => exact Eq.trans hstep hw
    | _ => cases hop

theorem guarded_close (packet : Int) : Guarded (wolSockets mac) (wolSocketGuard others mac)
    (· = packet :: others) (.perform (WolOp.close packet)) fun _ => (· = others) := by
  refine Guarded.perform (fun _ _ hw => hw) ?_
  rintro w x w' rfl hstep
  exact Eq.trans hstep (List.erase_cons_head _ _)

/-- A socket is opened, used and closed. -/
theorem guarded_sendWol (text : Bytes) : Guarded (wolSockets mac) (wolSocketGuard others mac)
    (· = others) (WakeOnLan.sendWol text) fun _ => (· = others) := by
  have hmessage {message : Bytes} {sockets : List Int} :
      Guarded (wolSockets mac) (wolSocketGuard others mac) (· = sockets)
        (.perform (WolOp.logErr message)) fun _ => (· = sockets) :=
    guarded_loads ((only_perform_iff _).2 trivial)
  have herror {sockets : List Int} :
      Guarded (wolSockets mac) (wolSocketGuard others mac) (· = sockets)
        (.perform WolOp.strerror) fun _ => (· = sockets) :=
    guarded_loads ((only_perform_iff _).2 trivial)
  have hpure {sockets : List Int} (b : Bool) :
      Guarded (wolSockets mac) (wolSocketGuard others mac) (· = sockets)
        (pure b) fun _ => (· = sockets) := Guarded.pure fun _ hw => hw
  refine (guarded_converts (WakeOnLan.only_convertFrom text _ _)).bind fun accepted => ?_
  cases accepted with
  | false => exact hmessage.bind fun _ => hpure false
  | true =>
    have hsocket : Guarded (wolSockets mac) (wolSocketGuard others mac) (· = others)
        (.perform WolOp.socket)
        fun packet w => w = if packet < (0 : Int) then others else packet :: others := by
      refine Guarded.perform (fun _ _ hw => hw) ?_
      rintro w packet w' rfl hstep
      change Int at packet
      by_cases hpacket : packet < 0
      · rw [if_pos hpacket]
        exact (if_pos hpacket).mp hstep
      · rw [if_neg hpacket]
        exact ((if_neg hpacket).mp hstep).2
    refine hsocket.bind fun packet => ?_
    by_cases hpacket : packet < (0 : Int)
    · simp only [if_pos hpacket]
      exact hmessage.bind fun _ => hpure false
    simp only [if_neg hpacket]
    have huse {op : WolOp} (hop : op = .setsockopt packet ∨ ∃ message address port,
        op = .sendto packet message address port) :
        Guarded (wolSockets mac) (wolSocketGuard others mac) (· = packet :: others)
          (.perform op) fun _ => (· = packet :: others) := by
      rcases hop with rfl | ⟨_, _, _, rfl⟩
      · exact Guarded.perform (fun _ _ hw => hw) fun _ _ _ hw hstep => Eq.trans hstep hw
      · exact Guarded.perform (fun _ _ hw => hw) fun _ _ _ hw hstep => Eq.trans hstep hw
    refine (huse (.inl rfl)).bind fun set => ?_
    split_ifs
    · exact herror.bind fun _ => hmessage.bind fun _ => (guarded_close packet).bind fun _ =>
        hpure false
    refine (guarded_loads WakeOnLan.only_buildMessage).bind fun message => ?_
    refine (huse (.inr ⟨_, _, _, rfl⟩)).bind fun sent => ?_
    split_ifs
    · exact herror.bind fun _ => hmessage.bind fun _ => (guarded_close packet).bind fun _ =>
        hpure false
    · exact (guarded_close packet).bind fun _ => hpure true

/-- An operation of no magic packet. -/
def Socketless : SystemOp → Prop
  | .wol _ _ => False
  | _ => True

theorem guarded_sockets (op : MainOp) : Guarded SocketWorld (SocketGuard others)
    (· = others) (deployMain op) fun _ => (· = others) := by
  have hsocketless {α : Type} {p : SystemAction α} (hp : p.Only Socketless) :
      Guarded SocketWorld (SocketGuard others) (· = others) p fun _ => (· = others) := by
    refine Guarded.of_only hp ?_ ?_
    · rintro ⟨op, x⟩ w hop hw
      cases op with
      | wol => cases hop
      | _ => exact hw
    · rintro ⟨op, x⟩ w w' hop hw hstep
      cases op with
      | wol => cases hop
      | _ => exact Eq.trans hstep hw
  cases op with
  | controller i op =>
    cases op with
    | sendMagicPacket mac => exact Guarded.embed (guarded_sendWol (Utf8.ofString mac))
    | checkFileExists | createEmptyFile | removeFile | createDirectory | pingHost
    | sendShutdownCommand =>
      exact hsocketless (.embed _ ((only_true _).mono fun _ _ => trivial))
    | now | stopExecution | log => exact hsocketless ((only_perform_iff _).2 trivial)
  | _ => exact hsocketless ((only_perform_iff _).2 trivial)

/-- In every run of the daemon, at every event: a socket is used while it is the only one
    the daemon has opened and not closed, and without one, everything else happens. -/
theorem daemon_sockets (h : Runs (daemon plus turns) (tr ++ e :: tr') outcome)
    (hM : Evolves SocketWorld others tr sockets) : SocketGuard others e sockets :=
  (Guarded.interpret (only_true _) fun op _ => guarded_sockets op).guard rfl h hM

/-- A calm system with sockets. -/
def socketHandler : Handler SystemOp.Ans (List Int)
  | .wol _ .socket, sockets =>
    if 3 ∈ sockets then ((-1 : Int), sockets) else ((3 : Int), 3 :: sockets)
  | .wol _ (.close packet), sockets => ((), sockets.erase packet)
  | op, sockets => (calmExample op, sockets)

theorem socketWorld_handler {sockets' : List Int}
    (h : World.ofHandler socketHandler sockets e sockets') : SocketWorld sockets e sockets' := by
  obtain ⟨op, x⟩ := e
  have h : socketHandler op sockets = (x, sockets') := h
  cases op with
  | wol mac op =>
    cases op with
    | socket =>
      rw [socketHandler] at h
      split_ifs at h with hopen
      · obtain ⟨rfl, rfl⟩ := Prod.mk.inj h
        rfl
      · obtain ⟨rfl, rfl⟩ := Prod.mk.inj h
        exact ⟨hopen, rfl⟩
    | _ =>
      obtain ⟨rfl, rfl⟩ := Prod.mk.inj h
      rfl
  | _ =>
    obtain ⟨rfl, rfl⟩ := Prod.mk.inj h
    rfl

/-- The operation sends a datagram. -/
def isSendto : SystemOp → Bool
  | .wol _ (.sendto _ _ _ _) => true
  | _ => false

/-- A datagram is sent by a socket, opened beside another one. -/
theorem daemon_sockets_example : ∃ tr e tr' sockets, isSendto e.op = true ∧
    (exec socketHandler (daemon exactPlus 1) [7]).trace = tr ++ e :: tr' ∧
    Evolves SocketWorld [7] tr sockets ∧ SocketGuard [7] e sockets := by
  have hany : (exec socketHandler (daemon exactPlus 1) [7]).trace.any
      (fun e => isSendto e.op) = true := by decide
  obtain ⟨e, hmem, hsendto⟩ := List.any_eq_true.1 hany
  obtain ⟨tr, tr', htr⟩ := List.append_of_mem hmem
  have hM := (evolves_after htr).mono fun _ _ _ => socketWorld_handler
  exact ⟨tr, e, tr', _, hsendto, htr, hM, daemon_sockets (htr ▸ exec_runs _ _ _) hM⟩

/-! ## Datagrams -/

/-- The text of the address is read, and the buffer written and loaded. What is in its
    memory before is arbitrary. -/
def MemoryWorld : World SystemOp.Ans Buffer := fun ethaddr e ethaddr' =>
  match e with
  | ⟨.wol mac (.read position), c⟩ => c = charAt (Utf8.ofString mac) position ∧ ethaddr' = ethaddr
  | ⟨.wol _ (.write i octet), _⟩ => ethaddr' = ethaddr.set i octet
  | ⟨.wol _ (.load i), octet⟩ => octet = ethaddr i ∧ ethaddr' = ethaddr
  | ⟨.wol _ _, _⟩ => ethaddr' = ethaddr
  | _ => True

/-- A datagram is broadcast, and is the magic packet for the octets of an accepted
    address, with octets left out taken from the buffer. -/
def DatagramGuard (e : Event SystemOp.Ans) (_ : Buffer) : Prop :=
  match e.op with
  | .wol mac (.sendto _ message address port) => address = 0xffffffff ∧ port = 60000 ∧
    ∃ (octets : Bytes) (ethaddr : Buffer), parse (Utf8.ofString mac) kEthAlen 0 = some octets ∧
      message = packet (ethaddr.setAll 0 octets)
  | _ => True

variable {mac : String} {ethaddr ethaddr' : Buffer}

abbrev wolMemory (mac : String) : World WolOp.Ans Buffer :=
  fun w e w' => MemoryWorld w (e.embed (SystemOp.wol mac)) w'

abbrev wolDatagramGuard (mac : String) (e : Event WolOp.Ans) (w : Buffer) : Prop :=
  DatagramGuard (e.embed (SystemOp.wol mac)) w

/-- An operation on the text and the buffer, or a message. -/
def Local (op : WolOp) : Prop := Converts op ∨ ∃ i, op = .load i

/-- On the text and the buffer, the system does what the handler does, whatever happens to
    the sockets. -/
theorem evolves_handler {sockets : Sockets} {tr : List (Event WolOp.Ans)}
    (hM : Evolves (wolMemory mac) ethaddr tr ethaddr') (hlocal : ∀ e ∈ tr, Local e.op) :
    Evolves (World.ofHandler (WakeOnLan.handler (Utf8.ofString mac) sockets)) ethaddr tr
      ethaddr' := by
  induction hM with
  | nil ethaddr => exact .nil _
  | @cons ethaddr ethaddr₁ _ e tr he _ ih =>
    obtain ⟨hfirst, hrest⟩ := List.forall_mem_cons.1 hlocal
    refine .cons ?_ (ih hrest)
    obtain ⟨op, x⟩ := e
    rcases hfirst with hconverts | ⟨i, rfl⟩
    · cases op with
      | read position => exact Prod.ext he.1.symm he.2.symm
      | write i octet => exact Prod.ext rfl (Eq.symm he)
      | logErr message => exact Prod.ext rfl (Eq.symm he)
      | _ => cases hconverts
    · exact Prod.ext he.1.symm he.2.symm

variable (mac) in
/-- The buffer contains the octets of an accepted address. -/
def Converted (ethaddr : Buffer) : Prop := ∃ (octets : Bytes) (ethaddr₀ : Buffer),
  parse (Utf8.ofString mac) kEthAlen 0 = some octets ∧ ethaddr = ethaddr₀.setAll 0 octets

/-- If the conversion accepts a text, its octets are in the buffer. -/
theorem guarded_convert : Guarded (wolMemory mac) (wolDatagramGuard mac) (fun _ => True)
    (convertMacStringToBinary (Utf8.ofString mac))
    fun accepted ethaddr => accepted = true → Converted mac ethaddr where
  post {ethaddr ethaddr' tr accepted} _ hrun hM haccepted := by
    have hlocal := hrun.only (only_convertFrom (Utf8.ofString mac) kEthAlen 0)
    have hexec : exec (WakeOnLan.handler (Utf8.ofString mac) ⟨0, 0, 0, []⟩)
        (convertFrom (Utf8.ofString mac) kEthAlen 0) ethaddr = ⟨tr, accepted, ethaddr'⟩ :=
      exec_of_evolves hrun (evolves_handler hM fun e he => .inl (hlocal e he))
    obtain ⟨hresult, -, hstate⟩ :=
      @exec_convertFrom (Utf8.ofString mac) ⟨0, 0, 0, []⟩ ethaddr kEthAlen (Nat.le_refl _) 0
    rw [hexec, haccepted] at hresult
    obtain ⟨octets, hparse⟩ := Option.isSome_iff_exists.1 hresult.symm
    exact ⟨octets, ethaddr, hparse,
      (congrArg Execution.state hexec).symm.trans (hstate octets hparse)⟩
  guard {_ _ _ _ e _} _ hrun _ := by
    have hop := hrun.only (only_convertFrom (Utf8.ofString mac) kEthAlen 0) e
      (List.mem_append_right _ List.mem_cons_self)
    obtain ⟨op, x⟩ := e
    cases op with
    | sendto => cases hop
    | _ => trivial

/-- The message is the magic packet for what is in the buffer. -/
theorem guarded_buildMessage : Guarded (wolMemory mac) (wolDatagramGuard mac) (Converted mac)
    buildMessage fun message ethaddr => Converted mac ethaddr ∧ message = packet ethaddr where
  post {ethaddr ethaddr' tr message} hconverted hrun hM := by
    have hload : buildMessage.Only fun op => ∃ i, op = .load i := by
      refine only_foldlM (fun buf _ => only_foldlM (fun buf i => ?_) _ _) _ _
      exact ⟨⟨i, rfl⟩, fun _ => trivial⟩
    have hlocal := hrun.only hload
    have hexec : exec (WakeOnLan.handler (Utf8.ofString mac) ⟨0, 0, 0, []⟩) buildMessage ethaddr =
        ⟨tr, message, ethaddr'⟩ :=
      exec_of_evolves hrun (evolves_handler hM fun e he => .inr (hlocal e he))
    obtain ⟨tr', -, hbuild⟩ := @exec_buildMessage (Utf8.ofString mac) ⟨0, 0, 0, []⟩ ethaddr
    obtain ⟨-, rfl, rfl⟩ := Execution.mk.inj (hexec.symm.trans hbuild)
    exact ⟨hconverted, rfl⟩
  guard {_ _ _ _ e _} _ hrun _ := by
    have hop := hrun.only only_buildMessage e (List.mem_append_right _ List.mem_cons_self)
    obtain ⟨op, x⟩ := e
    cases op with
    | sendto => cases hop
    | _ => trivial

/-- An operation that neither sends a datagram nor touches the buffer. -/
def Unsent (op : WolOp) : Prop := op = .socket ∨ (∃ packet, op = .setsockopt packet) ∨
  (∃ packet, op = .close packet) ∨ op = .strerror ∨ ∃ message, op = .logErr message

theorem guarded_unsent {P : Buffer → Prop} {op : WolOp} (hop : Unsent op) :
    Guarded (wolMemory mac) (wolDatagramGuard mac) P (.perform op) fun _ => P := by
  rcases hop with rfl | ⟨_, rfl⟩ | ⟨_, rfl⟩ | rfl | ⟨_, rfl⟩ <;>
    exact Guarded.perform (fun _ _ _ => trivial) fun w _ w' hw hstep =>
      (show w' = w from hstep) ▸ hw

/-- Only magic packets are sent. -/
theorem guarded_datagram : Guarded (wolMemory mac) (wolDatagramGuard mac) (fun _ => True)
    (sendWol (Utf8.ofString mac)) fun _ _ => True := by
  have hpure {P : Buffer → Prop} (b : Bool) : Guarded (wolMemory mac) (wolDatagramGuard mac) P
      (pure b) fun _ _ => True := Guarded.pure fun _ _ => trivial
  have hmessage {P : Buffer → Prop} (message : Bytes) : Guarded (wolMemory mac)
      (wolDatagramGuard mac) P (.perform (WolOp.logErr message)) fun _ => P :=
    guarded_unsent (.inr (.inr (.inr (.inr ⟨message, rfl⟩))))
  have herror {P : Buffer → Prop} : Guarded (wolMemory mac) (wolDatagramGuard mac) P
      (.perform WolOp.strerror) fun _ => P := guarded_unsent (.inr (.inr (.inr (.inl rfl))))
  have hclose {P : Buffer → Prop} (packet : Int) : Guarded (wolMemory mac) (wolDatagramGuard mac)
      P (.perform (WolOp.close packet)) fun _ => P := guarded_unsent (.inr (.inr (.inl ⟨_, rfl⟩)))
  refine guarded_convert.bind fun accepted => ?_
  cases accepted with
  | false => exact (hmessage _).bind fun _ => hpure false
  | true =>
    have hsocket : Guarded (wolMemory mac) (wolDatagramGuard mac)
        (fun ethaddr => true = true → Converted mac ethaddr) (.perform WolOp.socket)
        fun _ => Converted mac :=
      (guarded_unsent (.inl rfl)).conseq (fun _ hw => hw rfl) fun _ _ hw => hw
    refine hsocket.bind fun packet => ?_
    split_ifs
    · exact (hmessage _).bind fun _ => hpure false
    refine (guarded_unsent (.inr (.inl ⟨packet, rfl⟩))).bind fun set => ?_
    split_ifs
    · exact herror.bind fun _ => (hmessage _).bind fun _ =>
        (hclose packet).bind fun _ => hpure false
    refine guarded_buildMessage.bind fun message => ?_
    have hsend : Guarded (wolMemory mac) (wolDatagramGuard mac)
        (fun ethaddr => Converted mac ethaddr ∧ message = WakeOnLan.packet ethaddr)
        (.perform (WolOp.sendto packet (message.take 102) 0xffffffff 60000))
        fun _ => Converted mac := by
      refine Guarded.perform ?_ fun w _ w' hw hstep => (show w' = w from hstep) ▸ hw.1
      rintro _ _ ⟨⟨octets, ethaddr₀, hparse, rfl⟩, rfl⟩
      refine ⟨rfl, rfl, octets, ethaddr₀, hparse, ?_⟩
      exact List.take_of_length_le (Nat.le_of_eq (length_packet _))
    refine hsend.bind fun sent => ?_
    split_ifs
    · exact herror.bind fun _ => (hmessage _).bind fun _ =>
        (hclose packet).bind fun _ => hpure false
    · exact (hclose packet).bind fun _ => hpure true

theorem guarded_datagrams (op : MainOp) : Guarded MemoryWorld DatagramGuard (fun _ => True)
    (deployMain op) fun _ _ => True := by
  have hsocketless {α : Type} {p : SystemAction α} (hp : p.Only Socketless) :
      Guarded MemoryWorld DatagramGuard (fun _ => True) p fun _ _ => True := by
    refine Guarded.of_only hp ?_ fun _ _ _ _ _ _ => trivial
    rintro ⟨op, x⟩ w hop hw
    cases op with
    | wol => cases hop
    | _ => trivial
  cases op with
  | controller i op =>
    cases op with
    | sendMagicPacket mac => exact Guarded.embed guarded_datagram
    | checkFileExists | createEmptyFile | removeFile | createDirectory | pingHost
    | sendShutdownCommand =>
      exact hsocketless (.embed _ ((only_true _).mono fun _ _ => trivial))
    | now | stopExecution | log => exact hsocketless ((only_perform_iff _).2 trivial)
  | _ => exact hsocketless ((only_perform_iff _).2 trivial)

/-- In every run of the daemon, every datagram is broadcast to port 60000, and it is a magic
    packet for a server it is configured for. If the hardware address of this server is well
    formed, the packet wakes its machine, whatever was in memory. -/
theorem daemon_datagrams {packet : Int} {message : Bytes} {address : UInt32} {port : UInt16}
    {result : Int} (h : Runs (daemon plus turns) (tr ++
      ⟨.wol mac (.sendto packet message address port), result⟩ :: tr') outcome)
    (hM : Evolves MemoryWorld ethaddr tr ethaddr') :
    address = 0xffffffff ∧ port = 60000 ∧ (∃ ethaddr, message = WakeOnLan.packet ethaddr) ∧
      (∃ read, ⟨.readConfig, read⟩ ∈ tr ∧ ∃ config ∈ read.toOption.elim [] servers,
        mac = config.mac) ∧
      (parse (Utf8.ofString mac) kEthAlen 0).isSome ∧
      ∀ octets, octets.length = 6 → Address octets (Utf8.ofString mac) →
        MagicFor octets message := by
  obtain ⟨haddress, hport, octets, ethaddr₀, hparse, hmessage⟩ :=
    (Guarded.interpret (only_true _) fun op _ => guarded_datagrams op).guard trivial h hM
  refine ⟨haddress, hport, ⟨_, hmessage⟩, ?_, Option.isSome_of_eq_some hparse, ?_⟩
  · exact confined_of_event h id
  · intro octets' hlength haddress
    obtain rfl := Option.some.inj (hparse.symm.trans (parse_of_address haddress hlength))
    exact hmessage ▸ magicFor_packet ethaddr₀ hlength

/-- A calm system with a buffer. -/
def memoryHandler : Handler SystemOp.Ans Buffer
  | .wol _ (.write i octet), ethaddr => ((), ethaddr.set i octet)
  | .wol _ (.load i), ethaddr => (ethaddr i, ethaddr)
  | op, ethaddr => (calmExample op, ethaddr)

theorem memoryWorld_handler (h : World.ofHandler memoryHandler ethaddr e ethaddr') :
    MemoryWorld ethaddr e ethaddr' := by
  obtain ⟨op, x⟩ := e
  obtain ⟨rfl, rfl⟩ := Prod.mk.inj (show memoryHandler op ethaddr = (x, ethaddr') from h)
  cases op with
  | wol mac op =>
    cases op with
    | read | load => exact ⟨rfl, rfl⟩
    | _ => rfl
  | _ => trivial

/-- The address of the example configuration. -/
theorem address_example :
    Address [0x40, 0x8d, 0x5c, 0xb6, 0xe6, 0x52] (Utf8.ofString exampleServerConfig.mac) :=
  .colon (@OctetDigits.two 0x40 0x34 0x30 4 0 (by decide) (by decide) (by decide))
    (.colon (@OctetDigits.two 0x8d 0x38 0x44 8 13 (by decide) (by decide) (by decide))
      (.colon (@OctetDigits.two 0x5c 0x35 0x43 5 12 (by decide) (by decide) (by decide))
        (.colon (@OctetDigits.two 0xb6 0x42 0x36 11 6 (by decide) (by decide) (by decide))
          (.colon (@OctetDigits.two 0xe6 0x45 0x36 14 6 (by decide) (by decide) (by decide))
            (.last (@OctetDigits.two 0x52 0x35 0x32 5 2 (by decide) (by decide) (by decide)))))))

/-- The server of the example configuration is woken. -/
theorem daemon_datagrams_example : ∃ tr mac packet message address port result tr',
    (exec memoryHandler (daemon exactPlus 1) fun _ => 0).trace =
      tr ++ ⟨.wol mac (.sendto packet message address port), result⟩ :: tr' ∧
    address = 0xffffffff ∧ port = 60000 ∧
    MagicFor [0x40, 0x8d, 0x5c, 0xb6, 0xe6, 0x52] message := by
  have hany : (exec memoryHandler (daemon exactPlus 1) fun _ => 0).trace.any
      (fun e => isSendto e.op) = true := by decide
  obtain ⟨⟨op, result⟩, hmem, hsendto⟩ := List.any_eq_true.1 hany
  obtain ⟨tr, tr', htr⟩ := List.append_of_mem hmem
  cases op with
  | wol mac op =>
    cases op with
    | sendto packet message address port =>
      have hM := (evolves_after htr).mono fun _ _ _ => memoryWorld_handler
      obtain ⟨haddress, hport, -, ⟨read, hread, config, hconfig, rfl⟩, -, hmagic⟩ :=
        daemon_datagrams (htr ▸ exec_runs _ _ _) hM
      refine ⟨tr, _, packet, message, address, port, result, tr', htr, haddress, hport, ?_⟩
      -- The configuration that was read is the example.
      obtain ⟨_, hanswer⟩ := exists_of_mem_exec _ (htr ▸ List.mem_append_left _ hread)
      obtain rfl : read = .ok (.array [exampleServerConfig.toJson]) := hanswer
      obtain rfl := List.mem_singleton.1 hconfig
      exact hmagic _ rfl address_example
    | _ => cases hsendto
  | _ => cases hsendto

end Hostcontrold
