import Hostcontrold.Config
import Hostcontrold.Interfaces

/-!
# The server controller

One `ServerController` looks after one server. It is constructed once
(`construct`), and then asked to do its work over and over (`doWork`): it pings
the server, publishes what it learned as status files in the control directory,
and decides whether to start the server or to shut it down, from the force files
a user may have put into the control directory and from the clients around.

Besides its configuration, it keeps three things from one call to the next:
whether the server is running (as far as known), the time of the last call that
did some work, and the last time the server was needed.

The clock counts nanoseconds and the configuration seconds. The comparisons of
times are parametric in the addition of the two (`plus`): exact (`exactPlus`),
or in 64 bits, as the machine does it (`wrapPlus`).
-/

namespace Hostcontrold

open Interaction Hostcontrold.Action

/-! ## Times -/

/-- Adding seconds to a time in nanoseconds, exactly. -/
def exactPlus (time seconds : Int) : Int := time + seconds * 1000000000

/-- Adding seconds to a time in nanoseconds, in 64 bits: the seconds are
    converted, then added, wrapping around both times. -/
def wrapPlus (time seconds : Int) : Int :=
  (time + (seconds * 1000000000).bmod (2 ^ 64)).bmod (2 ^ 64)

/-! ## The controller -/

/-- What a controller keeps from one call to the next. -/
structure ServerController where
  running : Bool
  lastControl : Int
  lastClient : Int
  deriving DecidableEq, Repr

namespace ServerController

def kFileOn : String := "on"

def kFileOff : String := "off"

def kFileKeepOn : String := "force_on"

def kFileKeepOff : String := "force_off"

variable (plus : Int → Int → Int) (config : ServerMachineConfig)

/-- Handles a change of the state of the server: the status files and the
    recorded state, which is returned. -/
def checkAndSignalServerState (running newState : Bool) : Action Bool :=
  if newState then
    -- server changed state to running
    if running = false then do
      log .info "server started"
      let _ ← createEmptyFile (config.controlDir ++ kFileOn)
      let _ ← removeFile (config.controlDir ++ kFileOff)
      return true
    else return running
  else
    -- server changed state to stopped
    if running then do
      log .info "server stopped"
      let _ ← createEmptyFile (config.controlDir ++ kFileOff)
      let _ ← removeFile (config.controlDir ++ kFileOn)
      return false
    else return running

/-- The constructor: the server is taken to be stopped, and the timeout starts
    anew. -/
def construct : Action ServerController := do
  log .info ("Start controlling host: " ++ config.name)
  let _ ← createDirectory config.controlDir
  -- remove old files
  let _ ← removeFile (config.controlDir ++ kFileOn)
  let _ ← removeFile (config.controlDir ++ kFileOff)
  -- force reset server state to off
  let running ← checkAndSignalServerState config true false
  let lastClient ← now
  return { running, lastControl := 0, lastClient }

def startServerIfNotRunning (running : Bool) : Action Unit :=
  if running then return ()
  else do
    let sent ← sendMagicPacket config.mac
    if sent = false then
      log .err "WOL failed!"
    log .info "WOL sent"

def shutdownServerIfRunning (running : Bool) : Action Unit :=
  if running = false then return ()
  else do
    let _ ← sendShutdownCommand config.ip config.sshUser
    return ()

/-- Pings the server; a failed ping leaves the recorded state as it is. -/
def pingServer (running : Bool) : Action Bool := do
  match ← pingHost config.ip with
  | .kHostActive =>
    log .debug "server-ping: host is running"
    checkAndSignalServerState config running true
  | .kHostInactive =>
    log .debug "server-ping: host does not answer"
    checkAndSignalServerState config running false
  | .kFailed =>
    log .err "server-ping: failed"
    return running

/-- Pings the clients in turn, until one answers or the stop flag is set. -/
def checkClients : List ClientMachineConfig → Action Bool
  | [] => return false
  | client :: clients => do
    if ← stopExecution then return false
    else
      match ← pingHost client.ip with
      | .kHostActive =>
        log .debug ("Client(" ++ client.name ++ ") has answered. Skip other pings.")
        return true
      | .kHostInactive =>
        log .debug ("Client(" ++ client.name ++ ") does not answer.")
        checkClients clients
      | .kFailed =>
        log .err ("client-ping(" ++ client.name ++ "): failed")
        checkClients clients

/-- One round of work. -/
def doWork (controller : ServerController) : Action ServerController := do
  -- do work only in defined interval
  let currentTime ← now
  if plus controller.lastControl config.controlInterval > currentTime then return controller
  else
    let controller := { controller with lastControl := currentTime }
    let running ← pingServer config controller.running
    let controller := { controller with running }
    -- force_on has higher priority than force_off
    if ← checkFileExists (config.controlDir ++ kFileKeepOn) then
      log .debug "force_on file available"
      startServerIfNotRunning config controller.running
      return { controller with lastClient := currentTime }
    else if ← checkFileExists (config.controlDir ++ kFileKeepOff) then
      log .debug "force_off file available"
      shutdownServerIfRunning config controller.running
      return controller
    else if ← checkClients config.clients then
      let controller := { controller with lastClient := currentTime }
      startServerIfNotRunning config controller.running
      return controller
    else
      -- evaluate if server has to be shutdown
      if plus controller.lastClient config.shutdownTimeout ≤ currentTime then
        shutdownServerIfRunning config controller.running
      return controller

end ServerController

end Hostcontrold
