import Hostcontrold.Controller.Files

/-!
# What a controller owns

The configuration of a controller says with which files, hosts, user and hardware address
it has to do (`Owned`). A call reads the clock once, at its beginning, and then acts on
these, and on no others (`doWork_acts`).
-/

namespace Hostcontrold

open Interaction ServerController

/-- The operations by which a configuration allows to act. -/
def Acts (config : ServerMachineConfig) : Op → Prop
  | .now => False
  | .checkFileExists path => path ∈ paths config
  | .createEmptyFile path => ∃ state, path = statusPath config state
  | .removeFile path => ∃ state, path = statusPath config state
  | .createDirectory path => path = config.controlDir
  | .pingHost ip => ip ∈ config.ip :: config.clients.map ClientMachineConfig.ip
  | .sendMagicPacket mac => mac = config.mac
  | .sendShutdownCommand ip sshUser => ip = config.ip ∧ sshUser = config.sshUser
  | _ => True

/-- The operations a configuration allows. -/
def Owned (config : ServerMachineConfig) (op : Op) : Prop := op = .now ∨ Acts config op

variable {plus : Int → Int → Int} {config : ServerMachineConfig} {s : ServerController}
  {running newState : Bool}

theorem acts_checkAndSignal :
    (checkAndSignalServerState config running newState).Only (Acts config) := by
  by_cases h : running = newState
  · rw [checkAndSignal_of_eq h]
    trivial
  · rw [checkAndSignal_of_ne h]
    exact ⟨trivial, fun _ => ⟨⟨_, rfl⟩, fun _ => ⟨⟨_, rfl⟩, fun _ => trivial⟩⟩⟩

/-- The construction performs only operations its configuration allows. -/
theorem owned_construct : (construct config).Only (Owned config) :=
  ⟨.inr trivial, fun _ => ⟨.inr rfl, fun _ => ⟨.inr ⟨true, rfl⟩, fun _ =>
    ⟨.inr ⟨false, rfl⟩, fun _ => (acts_checkAndSignal.mono fun _ => .inr).bind fun _ =>
      ⟨.inl rfl, fun _ => trivial⟩⟩⟩⟩⟩

theorem acts_pingServer : (pingServer config running).Only (Acts config) := by
  refine ⟨List.mem_cons_self, ?_⟩
  intro result
  cases result with
  | kHostActive | kHostInactive => exact ⟨trivial, fun _ => acts_checkAndSignal⟩
  | kFailed => exact ⟨trivial, fun _ => trivial⟩

theorem acts_startServerIfNotRunning :
    (startServerIfNotRunning config running).Only (Acts config) := by
  cases running with
  | true => trivial
  | false =>
    refine ⟨rfl, ?_⟩
    intro sent
    cases sent with
    | true => exact ⟨trivial, fun _ => trivial⟩
    | false => exact ⟨trivial, fun _ => ⟨trivial, fun _ => trivial⟩⟩

theorem acts_shutdownServerIfRunning :
    (shutdownServerIfRunning config running).Only (Acts config) := by
  cases running with
  | true => exact ⟨⟨rfl, rfl⟩, fun _ => trivial⟩
  | false => trivial

theorem acts_checkClients {clients : List ClientMachineConfig}
    (h : ∀ client ∈ clients, client ∈ config.clients) :
    (checkClients clients).Only (Acts config) := by
  induction clients with
  | nil => trivial
  | cons client clients ih =>
    obtain ⟨hclient, hclients⟩ := List.forall_mem_cons.1 h
    have hping : client.ip ∈ config.ip :: config.clients.map ClientMachineConfig.ip :=
      List.mem_cons_of_mem _ (List.mem_map_of_mem hclient)
    refine ⟨trivial, ?_⟩
    intro stop
    cases stop with
    | true => trivial
    | false =>
      refine ⟨hping, ?_⟩
      intro result
      cases result with
      | kHostActive => exact ⟨trivial, fun _ => trivial⟩
      | kHostInactive | kFailed => exact ⟨trivial, fun _ => ih hclients⟩

variable (plus config s) in
/-- A call reads the clock, and then acts. -/
theorem doWork_acts : ∃ rest : Int → Action ServerController,
    doWork plus config s = Action.now >>= rest ∧
      ∀ currentTime, (rest currentTime).Only (Acts config) := by
  refine ⟨_, rfl, fun currentTime => ?_⟩
  split_ifs
  · trivial
  refine acts_pingServer.bind fun running => ?_
  -- The branches: forced on, forced off, a client has answered, or none has.
  refine ⟨by simp [Acts, paths], fun forceOn => ?_⟩
  cases forceOn with
  | true => exact ⟨trivial, fun _ => acts_startServerIfNotRunning.bind fun _ => trivial⟩
  | false =>
    refine ⟨by simp [Acts, paths], fun forceOff => ?_⟩
    cases forceOff with
    | true => exact ⟨trivial, fun _ => acts_shutdownServerIfRunning.bind fun _ => trivial⟩
    | false =>
      refine (acts_checkClients fun _ h => h).bind fun client => ?_
      cases client with
      | true => exact acts_startServerIfNotRunning.bind fun _ => trivial
      | false =>
        rw [if_neg Bool.false_ne_true]
        dsimp only
        split_ifs
        · exact acts_shutdownServerIfRunning.bind fun _ => trivial
        · trivial

/-- A call performs only operations its configuration allows. -/
theorem owned_doWork : (doWork plus config s).Only (Owned config) := by
  obtain ⟨rest, hwork, hrest⟩ := doWork_acts plus config s
  rw [hwork]
  exact ⟨.inl rfl, fun currentTime => (hrest currentTime).mono fun _ => .inr⟩

end Hostcontrold
