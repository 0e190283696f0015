import Hostcontrold.Controller.Basic

/-!
# What a call does

A call of `doWork` is seen from outside by its events. `observe` reads from them
what the call found out: the time, the answer of the server, the force files and
whether a client answered; `commands` are the power commands it issued.

`Call` says what a call may do, branch by branch (`call_of_runs`). The handle for
proofs is `Call.observed`: the observation, with the state of the controller
before the call, determines its commands (`command`) and the state after it
(`next`). What is behind it is one lemma for each function of the controller,
saying which events it may perform.
-/

namespace Hostcontrold

open Interaction

/-! ## Observations -/

/-- A power command. -/
inductive Command
  | wol (mac : String)
  | shutdown (ip sshUser : String)
  deriving DecidableEq, Repr

/-- The power command of an event, if it is one. -/
def command? : Event Op.Ans → Option Command
  | ⟨.sendMagicPacket mac, _⟩ => some (.wol mac)
  | ⟨.sendShutdownCommand ip sshUser, _⟩ => some (.shutdown ip sshUser)
  | _ => none

/-- The ping of an event, if it is one: the address and the answer. -/
def ping? : Event Op.Ans → Option (String × PingResult)
  | ⟨.pingHost ip, result⟩ => some (ip, result)
  | _ => none

/-- The reading of the clock of an event, if it is one. -/
def reading? : Event Op.Ans → Option Int
  | ⟨.now, time⟩ => some time
  | _ => none

/-- The event finds the file `path`. -/
def finds (path : String) : Event Op.Ans → Bool
  | ⟨.checkFileExists p, found⟩ => found && p == path
  | _ => false

/-- The event finds the stop flag set. -/
def stops : Event Op.Ans → Bool
  | ⟨.stopExecution, stop⟩ => stop
  | _ => false

/-- The power commands issued, in order. -/
def commands (tr : Trace) : List Command := tr.filterMap command?

/-- The hosts pinged with their answers, in order. -/
def pings (tr : Trace) : List (String × PingResult) := tr.filterMap ping?

/-- The first reading of the clock. -/
def reading (tr : Trace) : Int := (tr.findSome? reading?).getD 0

/-- The server is shut down. -/
def IsShutdown (tr : Trace) : Prop := ∃ ip sshUser, .shutdown ip sshUser ∈ commands tr

/-- The call did some work: it pinged the server. -/
def effective (tr : Trace) : Bool := !(pings tr).isEmpty

/-- The answer to a ping is that the host is active. -/
def active (ping : String × PingResult) : Bool := ping.2 = .kHostActive

/-- What a call finds out. The first ping is that of the server, the other ones
    are those of the clients. -/
structure Observation where
  now : Int
  server : Option PingResult
  forceOn : Bool
  forceOff : Bool
  client : Bool
  deriving DecidableEq, Repr

/-- The server is needed: it is forced on, or it is not forced off and a client
    is around. -/
def Observation.needed (o : Observation) : Bool := o.forceOn || (!o.forceOff && o.client)

/-- The observation made in a call. -/
def observe (config : ServerMachineConfig) (tr : Trace) : Observation where
  now := reading tr
  server := (pings tr).head?.map Prod.snd
  forceOn := tr.any (finds (config.controlDir ++ ServerController.kFileKeepOn))
  forceOff := tr.any (finds (config.controlDir ++ ServerController.kFileKeepOff))
  client := (pings tr).tail.any active

@[simp]
theorem commands_nil : commands [] = [] := rfl

@[simp]
theorem commands_cons (e : Event Op.Ans) (tr : Trace) :
    commands (e :: tr) = (command? e).toList ++ commands tr := by
  cases h : command? e <;> simp [commands, h]

@[simp]
theorem pings_cons (e : Event Op.Ans) (tr : Trace) :
    pings (e :: tr) = (ping? e).toList ++ pings tr := by
  cases h : ping? e <;> simp [pings, h]

@[simp]
theorem commands_append (tr tr' : Trace) : commands (tr ++ tr') = commands tr ++ commands tr' :=
  List.filterMap_append

@[simp]
theorem pings_append (tr tr' : Trace) : pings (tr ++ tr') = pings tr ++ pings tr' :=
  List.filterMap_append

namespace ServerController

variable (plus : Int → Int → Int) (config : ServerMachineConfig)

/-- The state of the server recorded after a ping: that of a conclusive answer,
    otherwise the one recorded before. -/
def recorded (running : Bool) : Option PingResult → Bool
  | some .kHostActive => true
  | some .kHostInactive => false
  | _ => running

/-- A call at the time `now` comes before the control interval is over. -/
def Throttled (s : ServerController) (now : Int) : Prop :=
  plus s.lastControl config.controlInterval > now

instance (s : ServerController) (now : Int) : Decidable (Throttled plus config s now) :=
  inferInstanceAs (Decidable (_ > _))

/-- At the time `now`, the server has not been needed for the shutdown timeout. -/
def TimedOut (s : ServerController) (now : Int) : Prop :=
  plus s.lastClient config.shutdownTimeout ≤ now

instance (s : ServerController) (now : Int) : Decidable (TimedOut plus config s now) :=
  inferInstanceAs (Decidable (_ ≤ _))

/-- The controller after a call, from what the call observed. -/
def next (s : ServerController) (o : Observation) : ServerController :=
  if Throttled plus config s o.now then s
  else
    { running := recorded s.running o.server
      lastControl := o.now
      lastClient := if o.needed then o.now else s.lastClient }

/-- The power command of a call, from what the call observed. -/
def command (s : ServerController) (o : Observation) : Option Command :=
  if Throttled plus config s o.now then none
  else if o.needed then
    if recorded s.running o.server then none else some (.wol config.mac)
  else if recorded s.running o.server ∧ (o.forceOff ∨ TimedOut plus config s o.now) then
    some (.shutdown config.ip config.sshUser)
  else none

/-- The status file of a state of the server. -/
def statusFile (state : Bool) : String := if state then kFileOn else kFileOff

variable {plus config}

/-! ## The functions of the controller -/

/-- Events from which nothing is learned. -/
structure Blind (tr : Trace) : Prop where
  pings : pings tr = []
  finds (path : String) : tr.any (finds path) = false
  stops : tr.any stops = false

/-- A state change is recorded, and signalled by the two status files. -/
theorem runs_checkAndSignal {running newState r : Bool} {tr : Trace}
    (h : Runs (checkAndSignalServerState config running newState) tr r) :
    r = newState ∧ (running = newState ∧ tr = [] ∨ running ≠ newState ∧ ∃ message created removed,
      tr = [⟨.log .info message, ()⟩,
        ⟨.createEmptyFile (config.controlDir ++ statusFile newState), created⟩,
        ⟨.removeFile (config.controlDir ++ statusFile (!newState)), removed⟩]) := by
  cases newState <;> cases running <;>
    simp only [checkAndSignalServerState, runs_perform_bind_iff, runs_pure_iff, if_true, if_false,
      Bool.false_eq_true, Bool.true_eq_false] at h
  · exact ⟨h.2, .inl ⟨rfl, h.1⟩⟩
  · obtain ⟨_, _, rfl, created, _, rfl, removed, _, rfl, rfl, hr⟩ := h
    exact ⟨hr, .inr ⟨by decide, _, created, removed, rfl⟩⟩
  · obtain ⟨_, _, rfl, created, _, rfl, removed, _, rfl, rfl, hr⟩ := h
    exact ⟨hr, .inr ⟨by decide, _, created, removed, rfl⟩⟩
  · exact ⟨h.2, .inl ⟨rfl, h.1⟩⟩

theorem blind_checkAndSignal {running newState r : Bool} {tr : Trace}
    (h : Runs (checkAndSignalServerState config running newState) tr r) :
    Blind tr ∧ commands tr = [] := by
  obtain ⟨_, ⟨_, rfl⟩ | ⟨_, _, _, _, rfl⟩⟩ := runs_checkAndSignal h <;>
    exact ⟨⟨rfl, fun _ => rfl, rfl⟩, rfl⟩

/-- The server is pinged once, and the answer recorded. -/
theorem runs_pingServer {running r : Bool} {tr : Trace}
    (h : Runs (pingServer config running) tr r) :
    ∃ result tr', tr = ⟨.pingHost config.ip, result⟩ :: tr' ∧ Blind tr' ∧ commands tr' = [] ∧
      r = recorded running (some result) := by
  obtain ⟨result, tr, rfl, h₁⟩ := runs_perform_bind_iff.1 h
  refine ⟨result, tr, rfl, ?_⟩
  cases result with
  | kFailed =>
    obtain ⟨_, _, rfl, h₂⟩ := runs_perform_bind_iff.1 h₁
    obtain ⟨rfl, rfl⟩ := runs_pure_iff.1 h₂
    exact ⟨⟨rfl, fun _ => rfl, rfl⟩, rfl, rfl⟩
  | kHostActive =>
    obtain ⟨_, _, rfl, h₂⟩ := runs_perform_bind_iff.1 h₁
    obtain ⟨hb, hc⟩ := blind_checkAndSignal h₂
    exact ⟨⟨hb.pings, hb.finds, hb.stops⟩, hc, (runs_checkAndSignal h₂).1⟩
  | kHostInactive =>
    obtain ⟨_, _, rfl, h₂⟩ := runs_perform_bind_iff.1 h₁
    obtain ⟨hb, hc⟩ := blind_checkAndSignal h₂
    exact ⟨⟨hb.pings, hb.finds, hb.stops⟩, hc, (runs_checkAndSignal h₂).1⟩

theorem runs_startServerIfNotRunning {running : Bool} {tr : Trace} {r : Unit}
    (h : Runs (startServerIfNotRunning config running) tr r) :
    Blind tr ∧ commands tr = if running then [] else [.wol config.mac] := by
  cases running with
  | true =>
    obtain ⟨rfl, -⟩ := runs_pure_iff.1 h
    exact ⟨⟨rfl, fun _ => rfl, rfl⟩, rfl⟩
  | false =>
    obtain ⟨sent, _, rfl, h₁⟩ := runs_perform_bind_iff.1 h
    cases sent with
    | true =>
      obtain rfl := runs_perform_iff.1 h₁
      exact ⟨⟨rfl, fun _ => rfl, rfl⟩, rfl⟩
    | false =>
      obtain ⟨_, _, rfl, h₂⟩ := runs_perform_bind_iff.1 h₁
      obtain rfl := runs_perform_iff.1 h₂
      exact ⟨⟨rfl, fun _ => rfl, rfl⟩, rfl⟩

theorem runs_shutdownServerIfRunning {running : Bool} {tr : Trace} {r : Unit}
    (h : Runs (shutdownServerIfRunning config running) tr r) :
    Blind tr ∧ commands tr = if running then [.shutdown config.ip config.sshUser] else [] := by
  cases running with
  | true =>
    obtain ⟨_, _, rfl, h₁⟩ := runs_perform_bind_iff.1 h
    obtain ⟨rfl, -⟩ := runs_pure_iff.1 h₁
    exact ⟨⟨rfl, fun _ => rfl, rfl⟩, rfl⟩
  | false =>
    obtain ⟨rfl, -⟩ := runs_pure_iff.1 h
    exact ⟨⟨rfl, fun _ => rfl, rfl⟩, rfl⟩

/-- The clients are pinged in turn. The answer is whether one of them answered;
    they have all been pinged unless one answered or the stop flag was set. -/
theorem runs_checkClients {clients : List ClientMachineConfig} {tr : Trace} {r : Bool}
    (h : Runs (checkClients clients) tr r) :
    commands tr = [] ∧ (∀ path, tr.any (finds path) = false) ∧ r = (pings tr).any active ∧
      (tr.any stops = true → r = false ∧ (pings tr).length < clients.length) ∧
      (tr.any stops = false → r = false →
        (pings tr).map Prod.fst = clients.map ClientMachineConfig.ip) := by
  induction clients generalizing tr with
  | nil =>
    obtain ⟨rfl, rfl⟩ := runs_pure_iff.1 h
    exact ⟨rfl, fun _ => rfl, rfl, nofun, fun _ _ => rfl⟩
  | cons client clients ih =>
    obtain ⟨stop, _, rfl, h₁⟩ := runs_perform_bind_iff.1 h
    -- The stop flag is asked before every ping; once it is set, no client is pinged.
    cases stop with
    | true =>
      obtain ⟨rfl, rfl⟩ := runs_pure_iff.1 h₁
      exact ⟨rfl, fun _ => rfl, rfl, fun _ => ⟨rfl, Nat.succ_pos _⟩, nofun⟩
    | false =>
      obtain ⟨result, tr', rfl, h₂⟩ := runs_perform_bind_iff.1 h₁
      cases result with
      | kHostActive =>
        obtain ⟨_, _, rfl, h₃⟩ := runs_perform_bind_iff.1 h₂
        obtain ⟨rfl, rfl⟩ := runs_pure_iff.1 h₃
        exact ⟨rfl, fun _ => rfl, rfl, nofun, nofun⟩
      | kHostInactive =>
        obtain ⟨_, tr', rfl, h₃⟩ := runs_perform_bind_iff.1 h₂
        obtain ⟨hc, hf, hr, hs, hp⟩ := ih h₃
        exact ⟨hc, hf, hr, fun h => ⟨(hs h).1, Nat.succ_lt_succ (hs h).2⟩,
          fun h h' => congrArg (client.ip :: ·) (hp h h')⟩
      | kFailed =>
        obtain ⟨_, tr', rfl, h₃⟩ := runs_perform_bind_iff.1 h₂
        obtain ⟨hc, hf, hr, hs, hp⟩ := ih h₃
        exact ⟨hc, hf, hr, fun h => ⟨(hs h).1, Nat.succ_lt_succ (hs h).2⟩,
          fun h h' => congrArg (client.ip :: ·) (hp h h')⟩

/-! ## A call -/

variable (plus config) in
/-- The calls of a controller: from which state, with which events, to which
    state. After the ping of the server, a call goes into one of three branches:
    forced on, forced off, or by the clients. -/
inductive Call : ServerController → Trace → ServerController → Prop
  | throttled {s : ServerController} {now : Int} :
      Throttled plus config s now → Call s [⟨.now, now⟩] s
  | forcedOn {s : ServerController} {now : Int} {result : PingResult} {tr₁ tr₂ : Trace} :
      ¬Throttled plus config s now → Blind tr₁ → commands tr₁ = [] → Blind tr₂ →
      commands tr₂ = (if recorded s.running (some result) then [] else [.wol config.mac]) →
      Call s (⟨.now, now⟩ :: ⟨.pingHost config.ip, result⟩ ::
          (tr₁ ++ ⟨.checkFileExists (config.controlDir ++ kFileKeepOn), true⟩ :: tr₂))
        ⟨recorded s.running (some result), now, now⟩
  | forcedOff {s : ServerController} {now : Int} {result : PingResult} {tr₁ tr₂ : Trace} :
      ¬Throttled plus config s now → Blind tr₁ → commands tr₁ = [] → Blind tr₂ →
      commands tr₂ = (if recorded s.running (some result) then
        [.shutdown config.ip config.sshUser] else []) →
      Call s (⟨.now, now⟩ :: ⟨.pingHost config.ip, result⟩ ::
          (tr₁ ++ ⟨.checkFileExists (config.controlDir ++ kFileKeepOn), false⟩ ::
            ⟨.checkFileExists (config.controlDir ++ kFileKeepOff), true⟩ :: tr₂))
        ⟨recorded s.running (some result), now, s.lastClient⟩
  | byClients {s : ServerController} {now : Int} {result : PingResult} {client : Bool}
      {tr₁ tr₂ tr₃ : Trace} :
      ¬Throttled plus config s now → Blind tr₁ → commands tr₁ = [] →
      Runs (checkClients config.clients) tr₂ client → Blind tr₃ →
      commands tr₃ = (if client then
          if recorded s.running (some result) then [] else [.wol config.mac]
        else if recorded s.running (some result) ∧ TimedOut plus config s now then
          [.shutdown config.ip config.sshUser] else []) →
      Call s (⟨.now, now⟩ :: ⟨.pingHost config.ip, result⟩ ::
          (tr₁ ++ ⟨.checkFileExists (config.controlDir ++ kFileKeepOn), false⟩ ::
            ⟨.checkFileExists (config.controlDir ++ kFileKeepOff), false⟩ :: (tr₂ ++ tr₃)))
        ⟨recorded s.running (some result), now, if client then now else s.lastClient⟩

/-- Every run of `doWork` is a call. -/
theorem call_of_runs {s s' : ServerController} {tr : Trace}
    (h : Runs (doWork plus config s) tr s') : Call plus config s tr s' := by
  obtain ⟨now, tr, rfl, h₁⟩ := runs_perform_bind_iff.1 h
  split_ifs at h₁ with ht
  · obtain ⟨rfl, rfl⟩ := runs_pure_iff.1 h₁
    exact .throttled ht
  -- The ping of the server, then one branch for each answer about the force files.
  obtain ⟨_, running, tr, hping, h₂, rfl⟩ := runs_bind_iff.1 h₁
  obtain ⟨result, tr₁, rfl, hb₁, hc₁, rfl⟩ := runs_pingServer hping
  obtain ⟨forceOn, tr, rfl, h₃⟩ := runs_perform_bind_iff.1 h₂
  cases forceOn with
  | true =>
    obtain ⟨_, tr, rfl, h₄⟩ := runs_perform_bind_iff.1 h₃
    obtain ⟨_, _, _, hstart, h₅, rfl⟩ := runs_bind_iff.1 h₄
    obtain ⟨rfl, rfl⟩ := runs_pure_iff.1 h₅
    obtain ⟨hb₂, hc₂⟩ := runs_startServerIfNotRunning hstart
    rw [List.append_nil]
    exact .forcedOn ht hb₁ hc₁ ⟨hb₂.pings, hb₂.finds, hb₂.stops⟩ hc₂
  | false =>
    obtain ⟨forceOff, tr, rfl, h₄⟩ := runs_perform_bind_iff.1 h₃
    cases forceOff with
    | true =>
      obtain ⟨_, tr, rfl, h₅⟩ := runs_perform_bind_iff.1 h₄
      obtain ⟨_, _, _, hstop, h₆, rfl⟩ := runs_bind_iff.1 h₅
      obtain ⟨rfl, rfl⟩ := runs_pure_iff.1 h₆
      obtain ⟨hb₂, hc₂⟩ := runs_shutdownServerIfRunning hstop
      rw [List.append_nil]
      exact .forcedOff ht hb₁ hc₁ ⟨hb₂.pings, hb₂.finds, hb₂.stops⟩ hc₂
    | false =>
      -- Without force files, the clients decide.
      obtain ⟨tr₂, client, tr, hclients, h₅, rfl⟩ := runs_bind_iff.1 h₄
      cases client with
      | true =>
        obtain ⟨_, _, _, hstart, h₆, rfl⟩ := runs_bind_iff.1 h₅
        obtain ⟨rfl, rfl⟩ := runs_pure_iff.1 h₆
        obtain ⟨hb₃, hc₃⟩ := runs_startServerIfNotRunning hstart
        rw [List.append_nil]
        exact .byClients ht hb₁ hc₁ hclients hb₃ hc₃
      | false =>
        rw [if_neg Bool.false_ne_true] at h₅
        split_ifs at h₅ with htime
        · obtain ⟨_, _, _, hstop, h₆, rfl⟩ := runs_bind_iff.1 h₅
          obtain ⟨rfl, rfl⟩ := runs_pure_iff.1 h₆
          obtain ⟨hb₃, hc₃⟩ := runs_shutdownServerIfRunning hstop
          rw [List.append_nil]
          exact .byClients ht hb₁ hc₁ hclients hb₃ (by simpa [TimedOut, htime] using hc₃)
        · obtain ⟨rfl, rfl⟩ := runs_pure_iff.1 h₅
          exact .byClients ht hb₁ hc₁ hclients ⟨rfl, fun _ => rfl, rfl⟩
            (by simp [TimedOut, htime])

/-! ## Observation of a call -/

@[simp]
theorem keepOff_ne_keepOn : kFileKeepOff ≠ kFileKeepOn := by decide

/-- A throttled call observes the time only. -/
theorem observe_now (now : Int) :
    observe config [⟨.now, now⟩] = ⟨now, none, false, false, false⟩ := rfl

theorem reading_now (now : Int) (tr : Trace) : reading (⟨.now, now⟩ :: tr) = now := rfl

/-- The observation of a call that works: after the ping of the server, and the
    bookkeeping, the rest of the events is about the force files and the clients. -/
theorem observe_ping {now : Int} {ip : String} {result : PingResult} {tr tr' : Trace}
    (hb : Blind tr) : observe config (⟨.now, now⟩ :: ⟨.pingHost ip, result⟩ :: (tr ++ tr')) =
      ⟨now, some result, tr'.any (finds (config.controlDir ++ kFileKeepOn)),
        tr'.any (finds (config.controlDir ++ kFileKeepOff)), (pings tr').any active⟩ := by
  simp [observe, reading_now, ping?, finds, hb.pings, hb.finds]

theorem next_of_throttled {s : ServerController} {o : Observation}
    (ht : Throttled plus config s o.now) : next plus config s o = s :=
  if_pos ht

theorem command_of_throttled {s : ServerController} {o : Observation}
    (ht : Throttled plus config s o.now) : command plus config s o = none :=
  if_pos ht

theorem next_of_not_throttled {s : ServerController} {o : Observation}
    (ht : ¬Throttled plus config s o.now) : next plus config s o =
      ⟨recorded s.running o.server, o.now, if o.needed then o.now else s.lastClient⟩ :=
  if_neg ht

theorem toList_command {s : ServerController} {o : Observation}
    (ht : ¬Throttled plus config s o.now) : (command plus config s o).toList =
      if o.needed then if recorded s.running o.server then [] else [.wol config.mac]
      else if recorded s.running o.server ∧ (o.forceOff ∨ TimedOut plus config s o.now) then
        [.shutdown config.ip config.sshUser]
      else [] := by
  rw [command, if_neg ht]
  split_ifs <;> rfl

/-- What a call observed determines its commands and the state after it. -/
theorem Call.observed {s s' : ServerController} {tr : Trace} (h : Call plus config s tr s') :
    s' = next plus config s (observe config tr) ∧
      commands tr = (command plus config s (observe config tr)).toList := by
  cases h with
  | throttled ht =>
    rw [observe_now, next_of_throttled ht, command_of_throttled ht]
    exact ⟨rfl, rfl⟩
  | forcedOn ht hb₁ hc₁ hb₂ hc₂ =>
    rw [observe_ping hb₁, next_of_not_throttled ht, toList_command ht]
    simp [Observation.needed, hc₁, hc₂, command?, finds]
  | forcedOff ht hb₁ hc₁ hb₂ hc₂ =>
    rw [observe_ping hb₁, next_of_not_throttled ht, toList_command ht]
    simp [Observation.needed, hc₁, hc₂, command?, finds, hb₂.finds]
  | byClients ht hb₁ hc₁ hcl hb₃ hc₃ =>
    obtain ⟨hc₂, hf₂, hr, -⟩ := runs_checkClients hcl
    rw [observe_ping hb₁, next_of_not_throttled ht, toList_command ht]
    simp [Observation.needed, hc₁, hc₂, hc₃, command?, ping?, finds, hb₃.pings, hb₃.finds, hf₂,
      ← hr]

/-- A throttled call reads the clock, and nothing else. -/
theorem Call.of_throttled {s s' : ServerController} {tr : Trace} (h : Call plus config s tr s')
    (ht : Throttled plus config s (reading tr)) : s' = s ∧ ∃ now, tr = [⟨.now, now⟩] := by
  cases h with
  | throttled => exact ⟨rfl, _, rfl⟩
  | forcedOn hn | forcedOff hn | byClients hn => exact absurd ht hn

/-- A call is effective if and only if it is not throttled. -/
theorem Call.effective_iff {s s' : ServerController} {tr : Trace} (h : Call plus config s tr s') :
    effective tr = true ↔ ¬Throttled plus config s (reading tr) := by
  cases h with
  | throttled ht => exact ⟨nofun, fun hn => absurd ht hn⟩
  | forcedOn ht | forcedOff ht | byClients ht => exact ⟨fun _ => ht, fun _ => rfl⟩

variable (config) in
/-- An effective call gets an answer from the ping of the server. -/
theorem server_isSome_of_effective {tr : Trace} (h : effective tr = true) :
    (observe config tr).server.isSome = true := by
  cases hp : pings tr with
  | nil => simp [effective, hp] at h
  | cons ping pings => simp [observe, hp]

/-- A call issues at most one command. -/
theorem Call.commands_length {s s' : ServerController} {tr : Trace} (h : Call plus config s tr s') :
    (commands tr).length ≤ 1 := by
  rw [h.observed.2]
  cases command plus config s (observe config tr) <;> simp

/-- A server is only woken if it is needed. -/
theorem needed_of_wol {s : ServerController} {o : Observation} {mac : String}
    (h : command plus config s o = some (.wol mac)) : o.needed = true := by
  rw [command] at h
  split_ifs at h with _ hn
  · exact hn
  · cases h

/-- A server is only shut down if it is not needed, and forced off or timed out. -/
theorem of_shutdown {s : ServerController} {o : Observation} {ip sshUser : String}
    (h : command plus config s o = some (.shutdown ip sshUser)) :
    ¬Throttled plus config s o.now ∧ o.needed = false ∧ recorded s.running o.server = true ∧
      (o.forceOff = true ∨ TimedOut plus config s o.now) := by
  rw [command] at h
  split_ifs at h with ht hn _ hs
  · cases h
  · exact ⟨ht, Bool.not_eq_true _ ▸ hn, hs⟩

theorem Call.mem_commands_iff {s s' : ServerController} {tr : Trace} {c : Command}
    (h : Call plus config s tr s') :
    c ∈ commands tr ↔ command plus config s (observe config tr) = some c := by
  rw [h.observed.2, Option.mem_toList]

/-- A call without force files shuts the server down if it is effective, no client
    answered, the server is up and the timeout over. -/
theorem Call.isShutdown_iff {s s' : ServerController} {tr : Trace} (h : Call plus config s tr s')
    (hoff : (observe config tr).forceOff = false) : IsShutdown tr ↔
      ¬Throttled plus config s (reading tr) ∧ (observe config tr).needed = false ∧
        recorded s.running (observe config tr).server = true ∧
        TimedOut plus config s (reading tr) := by
  constructor
  · rintro ⟨ip, sshUser, hmem⟩
    obtain ⟨ht, hn, hr, hoff' | htime⟩ := of_shutdown (h.mem_commands_iff.1 hmem)
    · rw [hoff] at hoff'
      cases hoff'
    · exact ⟨ht, hn, hr, htime⟩
  · rintro ⟨ht, hn, hr, htime⟩
    refine ⟨config.ip, config.sshUser, ?_⟩
    rw [h.observed.2, toList_command ht, hn, hr, if_neg nofun, if_pos ⟨rfl, .inr htime⟩]
    exact List.mem_cons_self

end ServerController

end Hostcontrold
