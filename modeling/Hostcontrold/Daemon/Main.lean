import Hostcontrold.Controller.Basic
import Hostcontrold.Interaction.Embedding

/-!
# The daemon

The program reads the configuration file, creates a controller for every server
block of it (`createControllers`), and then calls the controllers in turn, round
after round (`mainLoop`). Without a configuration file, it creates an example
one and gives up.

The controllers share the interfaces. The operations of the program are its own
ones, and those of each controller, by its position in the file.

The main loop never ends by itself. It is modelled for a given number of *turns*:
a turn is a call of one controller, or the pause at the end of a round, and
before each of them, the stop flag is checked. What the program has become after
these turns is its `Outcome`.
-/

namespace Hostcontrold

open Interaction

/-- The operations of the program. -/
inductive MainOp
  | openConfig
  | readConfig
  | writeConfig (config : Json)
  | log (priority : LogPriority) (message : String)
  | controller (i : Nat) (op : Op)
  | stopExecution
  | sleep

/-- The answers to an operation. Reading the configuration fails with an
    exception of the JSON library. -/
abbrev MainOp.Ans : MainOp → Type
  | .openConfig => Bool
  | .readConfig => Except JsonException Json
  | .writeConfig _ => Bool
  | .controller _ op => op.Ans
  | .stopExecution => Bool
  | _ => Unit

/-- What the program does. -/
abbrev MainAction := Program MainOp.Ans

/-- A controller with its configuration. -/
abbrev Controlled := ServerMachineConfig × ServerController

/-- What has become of the program: `main` has returned, it was exited, an
    exception was not caught, or the main loop is running. -/
inductive Outcome
  | returned (status : Nat)
  | exited (status : Nat)
  | uncaught (e : JsonException)
  | running (controllers : List Controlled)
  deriving DecidableEq

def configPath : String := "/etc/hostcontrold.conf"

def exampleServerConfig : ServerMachineConfig where
  name := "lang-nas16"
  ip := "192.168.0.6"
  mac := "40:8D:5C:B6:E6:52"
  sshUser := "clang"
  controlDir := "/share/lang-nas16/"
  controlInterval := 5
  shutdownTimeout := 10 * 60
  clients := [⟨"lang-xps13", "192.168.0.213"⟩, ⟨"lang-ct2014", "192.168.0.25"⟩]

/-- Decodes the server blocks, and creates a controller for each, until the
    decoding of one throws. -/
def createControllers (i : Nat) : List Json → MainAction (Except JsonException (List Controlled))
  | [] => return .ok []
  | configObject :: config =>
    match ServerMachineConfig.fromJson configObject with
    | .error e => return .error e
    | .ok controlConfig => do
      let controller ← (ServerController.construct controlConfig).embed (.controller i)
      let controllers ← createControllers (i + 1) config
      return controllers.map ((controlConfig, controller) :: ·)

variable (plus : Int → Int → Int)

/-- The main loop, for a number of turns: in this round, the controllers in `done`
    have been called, and those in `todo` have not. -/
def mainLoop : Nat → List Controlled → List Controlled → MainAction Outcome
  | 0, done, todo => return .running (done ++ todo)
  | turns + 1, done, todo => do
    if ← .perform MainOp.stopExecution then return .exited 0
    else
      match todo with
      | [] => do
        .perform MainOp.sleep
        mainLoop turns [] done
      | (config, controller) :: todo => do
        let controller ← (controller.doWork plus config).embed (.controller done.length)
        mainLoop turns (done ++ [(config, controller)]) todo

def main (turns : Nat) : MainAction Outcome := do
  if (← .perform MainOp.openConfig) = false then
    .perform (MainOp.log .err ("Found no config file under: " ++ configPath))
    -- create example config if no file exists
    if ← .perform (MainOp.writeConfig (.array [exampleServerConfig.toJson])) then
      .perform (MainOp.log .info ("Created example config file under: " ++ configPath))
    else
      .perform (MainOp.log .err ("Failed to create example config file under: " ++ configPath))
    return .returned 1
  else
    -- parse config file
    .perform (MainOp.log .info ("Found existing config file under: " ++ configPath))
    match ← .perform MainOp.readConfig with
    | .error (.parseError id what) =>
      .perform (MainOp.log .err ("Config parse error: " ++ (JsonException.parseError id what).what))
      return .returned 1
    | .error e => return .uncaught e
    | .ok config =>
      match ← createControllers 0 config.elements with
      | .error e => return .uncaught e
      | .ok controllers => mainLoop plus turns [] controllers

end Hostcontrold
