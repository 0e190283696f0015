import Hostcontrold.Controller.Run

/-!
# Controllers in an environment

The environment of a call, given in advance by the parts the answers play:
`Inputs` says what the clock reads, what the server and each client answer,
which force files exist, whether the stop flag is set, and which operations
succeed. Played against the inputs, a controller has exactly one run (`play`),
and what its calls observe is read off the inputs (`exec_doWork`), whatever the
clock reads. This is how two runs are compared that get the same answers at
different times.
-/

namespace Hostcontrold

open Interaction

/-- What the environment answers during a call (or the construction). -/
structure Inputs where
  now : Int
  server : PingResult
  /-- The answers of the clients, in the order of the configuration. -/
  client : Nat → PingResult
  forceOn : Bool
  forceOff : Bool
  /-- The stop flag before the ping of each client. -/
  stop : Nat → Bool
  /-- Whether each file operation succeeds, in order. -/
  file : Nat → Bool
  /-- Whether the power command succeeds. -/
  power : Bool

/-- How many pings, checks of the stop flag and file operations were made. -/
structure Counters where
  pings : Nat
  stops : Nat
  files : Nat

/-- The time `now`, with the server and all clients answering as given: there is
    no force file, and every operation succeeds. -/
def Inputs.calm (now : Int) (server client : PingResult) : Inputs where
  now
  server
  client _ := client
  forceOn := false
  forceOff := false
  stop _ := false
  file _ := true
  power := true

/-- The configuration of the unit tests: an interval of 5 seconds, and a timeout
    of 10 minutes. -/
def testConfig : ServerMachineConfig where
  name := "server"
  ip := "ServerIp"
  mac := "MAC"
  sshUser := "user"
  controlDir := "/dir/server/"
  controlInterval := 5
  shutdownTimeout := 600
  clients := [⟨"client", "ClientIp"⟩]

namespace Inputs

variable (config : ServerMachineConfig) (inputs : Inputs)

/-- The environment of a call as a handler. The first ping is that of the server. -/
def handler : Handler Op.Ans Counters
  | .now, c => (inputs.now, c)
  | .pingHost _, c =>
    (match c.pings with
      | 0 => inputs.server
      | i + 1 => inputs.client i, { c with pings := c.pings + 1 })
  | .stopExecution, c => (inputs.stop c.stops, { c with stops := c.stops + 1 })
  | .checkFileExists path, c =>
    (if path = config.controlDir ++ ServerController.kFileKeepOn then inputs.forceOn
      else path = config.controlDir ++ ServerController.kFileKeepOff && inputs.forceOff, c)
  | .createEmptyFile _, c => (inputs.file c.files, { c with files := c.files + 1 })
  | .removeFile _, c => (inputs.file c.files, { c with files := c.files + 1 })
  | .createDirectory _, c => (inputs.file c.files, { c with files := c.files + 1 })
  | .sendMagicPacket _, c => (inputs.power, c)
  | .sendShutdownCommand _ _, c => (inputs.power, c)
  | .log _ _, c => ((), c)

/-- A client answers, among the `n` clients from the `i`-th on, before the stop
    flag is set. -/
def clientAnswers (i : Nat) : Nat → Bool
  | 0 => false
  | n + 1 =>
    if inputs.stop i then false
    else if inputs.client i = .kHostActive then true
    else clientAnswers (i + 1) n

variable {inputs} in
theorem clientAnswers_eq_false (h : ∀ i, inputs.client i ≠ .kHostActive) (i n : Nat) :
    inputs.clientAnswers i n = false := by
  induction n generalizing i with
  | zero => rfl
  | succ n ih => rw [clientAnswers, if_neg (h i), ih, ite_self]

/-- What an effective call observes: it looks no further than it needs to. -/
def observation : Observation where
  now := inputs.now
  server := some inputs.server
  forceOn := inputs.forceOn
  forceOff := !inputs.forceOn && inputs.forceOff
  client := !inputs.forceOn && !inputs.forceOff && inputs.clientAnswers 0 config.clients.length

end Inputs

namespace ServerController

variable (plus : Int → Int → Int) (config : ServerMachineConfig)

/-- The execution of an action against the inputs. -/
def execute {α : Type} (inputs : Inputs) (action : Action α) : Execution Op.Ans α Counters :=
  exec (inputs.handler config) action ⟨0, 0, 0⟩

theorem execute_runs {α : Type} (inputs : Inputs) (action : Action α) : Runs action
    (execute config inputs action).trace (execute config inputs action).result :=
  exec_runs _ _ _

/-- A controller played against the inputs of its calls, the latest first: the
    events of the calls and the state reached. -/
def play (start : Inputs) : List Inputs → List Trace × ServerController
  | [] => ([], (execute config start (construct config)).result)
  | inputs :: past =>
    let r := execute config inputs (doWork plus config (play start past).2)
    (r.trace :: (play start past).1, r.result)

theorem play_isRun (start : Inputs) (past : List Inputs) :
    IsRun plus config (execute config start (construct config)).trace
      (play plus config start past).1 (play plus config start past).2 := by
  induction past with
  | nil => exact .construct (execute_runs _ _ _)
  | cons inputs past ih => exact .call ih (execute_runs _ _ _)

variable {plus config} {inputs : Inputs}

variable (config inputs) in
/-- The ping of the server gets its answer. -/
theorem exec_pingServer (running : Bool) : ∃ tr files, Blind tr ∧
    exec (inputs.handler config) (pingServer config running) ⟨0, 0, 0⟩ =
      ⟨⟨.pingHost config.ip, inputs.server⟩ :: tr, recorded running (some inputs.server),
        ⟨1, 0, files⟩⟩ := by
  obtain ⟨_, server⟩ := inputs
  cases server <;> cases running <;> exact ⟨_, _, ⟨rfl, fun _ => rfl, rfl⟩, rfl⟩

attribute [local simp] Inputs.handler Inputs.observation

/-- The clients give their answers. -/
theorem exec_checkClients (clients : List ClientMachineConfig) (i files : Nat) :
    (exec (inputs.handler config) (checkClients clients) ⟨i + 1, i, files⟩).result =
      inputs.clientAnswers i clients.length := by
  induction clients generalizing i with
  | nil => rfl
  | cons client clients ih =>
    rw [List.length_cons, Inputs.clientAnswers, checkClients]
    by_cases hs : inputs.stop i = true
    · simp [Inputs.handler, hs]
    · cases ha : inputs.client i <;> simp [Inputs.handler, hs, ha, ih, -bind_pure_comp]

variable (plus config inputs) in
/-- A call, executed against the inputs, observes what they offer. -/
theorem observe_doWork {s : ServerController} (ht : ¬Throttled plus config s inputs.now) :
    observe config (execute config inputs (doWork plus config s)).trace =
      inputs.observation config := by
  have hstart running c := (runs_startServerIfNotRunning
    (exec_runs (inputs.handler config) (startServerIfNotRunning config running) c)).1
  have hstop running c := (runs_shutdownServerIfRunning
    (exec_runs (inputs.handler config) (shutdownServerIfRunning config running) c)).1
  have hstart_finds running c := (hstart running c).finds
  have hstart_pings running c := (hstart running c).pings
  have hstop_finds running c := (hstop running c).finds
  have hstop_pings running c := (hstop running c).pings
  have ht' : ¬inputs.now < plus s.lastControl config.controlInterval := ht
  obtain ⟨tr, files, hb, hping⟩ := exec_pingServer config inputs s.running
  obtain ⟨-, hf, hr, -⟩ := runs_checkClients
    (exec_runs (inputs.handler config) (checkClients config.clients) ⟨1, 0, files⟩)
  rw [exec_checkClients] at hr
  have hne : kFileKeepOn ≠ kFileKeepOff := by decide
  rw [execute, doWork]
  -- After the ping of the server, the branches of the call.
  by_cases hon : inputs.forceOn = true
  · simp [ht', hping, hon, hne, hstart_finds, hstart_pings, observe_ping hb, finds, ping?,
      -bind_pure_comp]
  by_cases hoff : inputs.forceOff = true
  · simp [ht', hping, hon, hoff, hstop_finds, hstop_pings, observe_ping hb, finds, ping?,
      -bind_pure_comp]
  by_cases hclient : inputs.clientAnswers 0 config.clients.length = true
  · simp [ht', hping, hon, hoff, hclient, exec_checkClients, hf, ← hr, hstart_finds, hstart_pings,
      observe_ping hb, finds, ping?, -bind_pure_comp]
  by_cases htime : plus s.lastClient config.shutdownTimeout ≤ inputs.now
  · simp [ht', hping, hon, hoff, hclient, exec_checkClients, htime, hf, ← hr, hstop_finds,
      hstop_pings, observe_ping hb, finds, ping?, -bind_pure_comp]
  · simp [ht', hping, hon, hoff, hclient, exec_checkClients, htime, hf, ← hr, observe_ping hb,
      finds, ping?, -bind_pure_comp]

/-- The commands of a call, executed against the inputs, and the state after it
    are those of the observation the inputs offer. -/
theorem exec_doWork (s : ServerController) :
    (execute config inputs (doWork plus config s)).result =
      next plus config s (inputs.observation config) ∧
    commands (execute config inputs (doWork plus config s)).trace =
      (command plus config s (inputs.observation config)).toList := by
  have hcall : Call plus config s (execute config inputs (doWork plus config s)).trace
      (execute config inputs (doWork plus config s)).result := call_of_runs (execute_runs _ _ _)
  by_cases ht : Throttled plus config s inputs.now
  · obtain ⟨hs, now, htr⟩ := hcall.of_throttled ht
    rw [next_of_throttled ht, command_of_throttled ht, hs, htr]
    exact ⟨rfl, rfl⟩
  · rw [← observe_doWork plus config inputs ht]
    exact hcall.observed

/-- A call more: its commands, and the state after it, are those of what the inputs
    offer. -/
theorem play_cons (start inputs : Inputs) (past : List Inputs) :
    (play plus config start (inputs :: past)).2 =
      next plus config (play plus config start past).2 (inputs.observation config) ∧
    (play plus config start (inputs :: past)).1.map commands =
      (command plus config (play plus config start past).2 (inputs.observation config)).toList ::
        (play plus config start past).1.map commands :=
  ⟨(exec_doWork _).1, congrArg (· :: _) (exec_doWork _).2⟩

end ServerController

end Hostcontrold
