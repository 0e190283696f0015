import Hostcontrold.Interaction.Program

/-!
# Wake-on-LAN

A magic packet is a UDP broadcast: six bytes 0xff, followed by sixteen copies of
the hardware address to wake. `sendWol` converts the address from its text, builds
the packet and sends it.

The functions are programs over `WolOp`: reading the text of the address through
the iterator, writing and loading the octets of the local buffer `ethaddr`, and
the socket calls. Text is a list of bytes; at its end, a NUL is read.
-/

namespace Hostcontrold

open Interaction

abbrev Bytes := List UInt8

/-- The bytes of an ASCII text. -/
def ascii (text : String) : Bytes := text.toList.map Char.toUInt8

/-- What `%s` prints of a string. -/
def cStr (s : Bytes) : Bytes := s.takeWhile (· ≠ 0)

/-- The operations of the wake-on-LAN code. The calls of the socket interface
    answer a negative number if they fail. -/
inductive WolOp
  | read (position : Nat)
  | write (i : Nat) (octet : UInt8)
  | load (i : Nat)
  | socket
  | setsockopt (packet : Int)
  | sendto (packet : Int) (message : Bytes) (address : UInt32) (port : UInt16)
  | close (packet : Int)
  | strerror
  | logErr (message : Bytes)
  deriving DecidableEq, Repr

abbrev WolOp.Ans : WolOp → Type
  | .read _ => UInt8
  | .load _ => UInt8
  | .socket => Int
  | .setsockopt _ => Int
  | .sendto _ _ _ _ => Int
  | .strerror => Bytes
  | _ => Unit

abbrev WolAction := Program WolOp.Ans

namespace WakeOnLan

open Program

def kEthAlen : Nat := 6

/-- The value of a hexadecimal digit. -/
def hexDigit? (c : UInt8) : Option UInt32 :=
  if '0'.toUInt8 ≤ c ∧ c ≤ '9'.toUInt8 then some (c - '0'.toUInt8).toUInt32
  else if 'a'.toUInt8 ≤ c ∧ c ≤ 'f'.toUInt8 then some (c - 'a'.toUInt8 + 10).toUInt32
  else if 'A'.toUInt8 ≤ c ∧ c ≤ 'F'.toUInt8 then some (c - 'A'.toUInt8 + 10).toUInt32
  else none

/-- The value of an octet, from its first digit (shifted), and the character
    after it: a second digit, or the end of an octet of one digit. -/
def addDigit? (val : UInt32) (c : UInt8) : Option UInt32 :=
  match hexDigit? c with
  | some digit => some (val ||| digit)
  | none => if c = ':'.toUInt8 ∨ c = 0 then some (val >>> 4) else none

/-- The loop of the conversion, with `n` octets to go, at a position of the text. -/
def convertFrom (mac : Bytes) : Nat → Nat → WolAction Bool
  | 0, position => do
    let _ ← perform (WolOp.read position)
    return true
  | n + 1, position => do
    if (← perform (WolOp.read position)) = 0 then return true
    else
      match hexDigit? (← perform (WolOp.read position)) with
      | none =>
        perform (WolOp.logErr (ascii "Invalid ether address: " ++ cStr mac))
        return false
      | some digit =>
        let c ← perform (WolOp.read (position + 1))
        match addDigit? (digit <<< 4) c with
        | none =>
          perform (WolOp.logErr (ascii "Invalid ether address: " ++ cStr mac))
          return false
        | some val =>
          let position := if c = 0 then position + 1 else position + 2
          perform (WolOp.write (kEthAlen - (n + 1)) (val &&& 0o377).toUInt8)
          -- We might get a semicolon here - not required.
          if (← perform (WolOp.read position)) = ':'.toUInt8 then convertFrom mac n (position + 1)
          else convertFrom mac n position

def convertMacStringToBinary (mac : Bytes) : WolAction Bool := convertFrom mac kEthAlen 0

/-- The message to send: 6 x 0xff, then 16 x the address in the buffer. -/
def buildMessage : WolAction Bytes :=
  (List.range 16).foldlM (fun buf _ =>
    (List.range kEthAlen).foldlM (fun buf i => do return buf ++ [← perform (WolOp.load i)]) buf)
    (List.replicate 6 0xff)

/-- Broadcasts the magic packet. -/
def sendWol (mac : Bytes) : WolAction Bool := do
  if (← convertMacStringToBinary mac) = false then
    perform (WolOp.logErr (ascii "Invalid hardware address: " ++ cStr mac))
    return false
  else
    let packet ← perform WolOp.socket
    if packet < 0 then
      perform (WolOp.logErr (ascii "Socket failed."))
      return false
    else if (← perform (WolOp.setsockopt packet)) < 0 then
      let error ← perform WolOp.strerror
      perform (WolOp.logErr (ascii "setsocket failed: " ++ error))
      perform (WolOp.close packet)
      return false
    else
      let message ← buildMessage
      if (← perform (WolOp.sendto packet (message.take 102) 0xffffffff 60000)) < 0 then
        let error ← perform WolOp.strerror
        perform (WolOp.logErr (ascii "sendto failed, " ++ error))
        perform (WolOp.close packet)
        return false
      else
        perform (WolOp.close packet)
        return true

def sendMagicPacket (mac : Bytes) : WolAction Bool := sendWol mac

/-! ## Execution -/

/-- The results of the socket calls, and the text of their errors. -/
structure Sockets where
  socket : Int
  setsockopt : Int
  sendto : Int
  error : Bytes

/-- The character at a position of a text, which is NUL at the end. -/
def charAt (text : Bytes) (position : Nat) : UInt8 := text.getD position 0

/-- The buffer `ethaddr`. -/
abbrev Buffer := Nat → UInt8

/-- Writing an octet into the buffer. -/
def Buffer.set (ethaddr : Buffer) (i : Nat) (octet : UInt8) : Buffer :=
  fun j => if j = i then octet else ethaddr j

/-- The environment: the text, the results of the socket calls and the buffer. -/
def handler (mac : Bytes) (sockets : Sockets) : Handler WolOp.Ans Buffer
  | .read position, ethaddr => (charAt mac position, ethaddr)
  | .write i octet, ethaddr => ((), ethaddr.set i octet)
  | .load i, ethaddr => (ethaddr i, ethaddr)
  | .socket, ethaddr => (sockets.socket, ethaddr)
  | .setsockopt _, ethaddr => (sockets.setsockopt, ethaddr)
  | .sendto _ _ _ _, ethaddr => (sockets.sendto, ethaddr)
  | .close _, ethaddr => ((), ethaddr)
  | .strerror, ethaddr => (sockets.error, ethaddr)
  | .logErr _, ethaddr => ((), ethaddr)

/-- The datagram sent with an event, if it is one. -/
def datagram? : Event WolOp.Ans → Option Bytes
  | ⟨.sendto _ message _ _, result⟩ => if result < 0 then none else some message
  | _ => none

/-- The datagrams sent. -/
def datagrams (tr : List (Event WolOp.Ans)) : List Bytes := tr.filterMap datagram?

/-- The datagrams sent when the magic packet for `mac` is to be sent, with the
    buffer having been `ethaddr`. -/
def sent (mac : Bytes) (sockets : Sockets) (ethaddr : Buffer) : List Bytes :=
  datagrams (exec (handler mac sockets) (sendMagicPacket mac) ethaddr).trace

@[simp]
theorem datagrams_nil : datagrams [] = [] := rfl

@[simp]
theorem datagrams_cons (e : Event WolOp.Ans) (tr : List (Event WolOp.Ans)) :
    datagrams (e :: tr) = (datagram? e).toList ++ datagrams tr := by
  cases h : datagram? e <;> simp [datagrams, h]

@[simp]
theorem datagrams_append (tr tr' : List (Event WolOp.Ans)) :
    datagrams (tr ++ tr') = datagrams tr ++ datagrams tr' :=
  List.filterMap_append

/-! ## Socket calls -/

/-- The operations of the socket interface. -/
def isSocketCall : WolOp → Bool
  | .socket => true
  | .setsockopt _ => true
  | .sendto _ _ _ _ => true
  | .close _ => true
  | _ => false

/-- The socket calls made, in order. -/
def socketCalls (tr : List (Event WolOp.Ans)) : List (Event WolOp.Ans) :=
  tr.filter fun e => isSocketCall e.op

@[simp]
theorem socketCalls_nil : socketCalls [] = [] := rfl

@[simp]
theorem socketCalls_cons (e : Event WolOp.Ans) (tr : List (Event WolOp.Ans)) :
    socketCalls (e :: tr) = if isSocketCall e.op then e :: socketCalls tr else socketCalls tr :=
  List.filter_cons

@[simp]
theorem socketCalls_append (tr tr' : List (Event WolOp.Ans)) :
    socketCalls (tr ++ tr') = socketCalls tr ++ socketCalls tr' :=
  List.filter_append ..

/-- What is read from socket calls only. -/
theorem filterMap_socketCalls {α : Type} {f : Event WolOp.Ans → Option α}
    (hf : ∀ e, isSocketCall e.op = false → f e = none) (tr : List (Event WolOp.Ans)) :
    (socketCalls tr).filterMap f = tr.filterMap f := by
  rw [socketCalls, List.filterMap_filter]
  refine List.filterMap_congr fun e _ => ?_
  split_ifs with h
  · rfl
  · exact (hf e (Bool.not_eq_true _ ▸ h)).symm

/-- Datagrams are sent by socket calls. -/
theorem datagrams_socketCalls (tr : List (Event WolOp.Ans)) :
    datagrams (socketCalls tr) = datagrams tr := by
  refine filterMap_socketCalls ?_ tr
  rintro ⟨op, x⟩ h
  cases op with
  | sendto => cases h
  | _ => rfl

end WakeOnLan

end Hostcontrold
