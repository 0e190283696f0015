import Hostcontrold.Interaction.World

/-!
# The interfaces of a controller

A controller acts on its surroundings through a few interfaces only: a clock, a
file system, the network (pings, wake-on-LAN packets, shutdown commands) and a
log. It also reads the stop flag, which the signal handler sets. `Op` collects
the operations of these interfaces, and `Op.Ans` the answers they may get: a
file operation, a wake-up and a shutdown report whether they succeeded.

The functions of the controller are programs over these operations (`Action`).
-/

namespace Hostcontrold

open Interaction

/-- The answer to a ping. -/
inductive PingResult
  | kFailed
  | kHostActive
  | kHostInactive
  deriving DecidableEq, Repr

/-- The priorities of the log messages in use. -/
inductive LogPriority
  | err
  | info
  | debug
  deriving DecidableEq, Repr

/-- The operations of the interfaces of a controller. -/
inductive Op
  | now
  | checkFileExists (path : String)
  | createEmptyFile (path : String)
  | removeFile (path : String)
  | createDirectory (path : String)
  | pingHost (ip : String)
  | sendMagicPacket (mac : String)
  | sendShutdownCommand (ip sshUser : String)
  | stopExecution
  | log (priority : LogPriority) (message : String)
  deriving DecidableEq, Repr

/-- The answers to an operation. -/
abbrev Op.Ans : Op → Type
  | .now => Int
  | .pingHost _ => PingResult
  | .log _ _ => Unit
  | _ => Bool

/-- A program over the interfaces of a controller. -/
abbrev Action := Program Op.Ans

/-- The operations of a run with their answers. -/
abbrev Trace := List (Event Op.Ans)

namespace Action

/-- The reading of the clock, in nanoseconds since the epoch. -/
abbrev now : Action Int := .perform Op.now

abbrev checkFileExists (path : String) : Action Bool := .perform (Op.checkFileExists path)

abbrev createEmptyFile (path : String) : Action Bool := .perform (Op.createEmptyFile path)

abbrev removeFile (path : String) : Action Bool := .perform (Op.removeFile path)

abbrev createDirectory (path : String) : Action Bool := .perform (Op.createDirectory path)

abbrev pingHost (ip : String) : Action PingResult := .perform (Op.pingHost ip)

abbrev sendMagicPacket (mac : String) : Action Bool := .perform (Op.sendMagicPacket mac)

abbrev sendShutdownCommand (ip sshUser : String) : Action Bool :=
  .perform (Op.sendShutdownCommand ip sshUser)

/-- The value of the stop flag. -/
abbrev stopExecution : Action Bool := .perform Op.stopExecution

abbrev log (priority : LogPriority) (message : String) : Action Unit :=
  .perform (Op.log priority message)

end Action

end Hostcontrold
