import Hostcontrold.Controller.Owned
import Hostcontrold.Daemon.Start
import Hostcontrold.Interaction.Interpretation
import Hostcontrold.Json.Utf8
import Hostcontrold.Network.Commands
import Hostcontrold.Network.WakeOnLan
import Hostcontrold.Utils.Directory

/-!
# The daemon on the system

In the program, the interfaces of the controllers are implemented: files by the streams
of the standard library, pings and shutdown commands by processes, and wake-on-LAN by a
socket. What is left are the operations of the system (`SystemOp`): `deploy` implements
the interfaces of a controller by them, and `deployMain` the operations of the program.

The program acts for the servers it is configured for only (`AfterReading.owned`). On the
system, this means that it opens, makes, writes and removes no other files than those of
its servers, and runs no other commands than pings of their hosts and shutdown commands
for them (`daemon_confined`, `daemon_commands`).
-/

namespace Hostcontrold

open Interaction ServerController

/-! ## Implementations -/

/-- The operations of the system. An operation of the wake-on-LAN code comes with the
    text of the address. -/
inductive SystemOp
  | openConfig
  | readConfig
  | writeConfig (config : Json)
  | sleep
  | now
  | stopExecution
  | log (priority : LogPriority) (message : String)
  | file (op : FileOp)
  | directory (op : DirectoryOp)
  | process (op : ProcessOp)
  | wol (mac : String) (op : WolOp)

abbrev SystemOp.Ans : SystemOp → Type
  | .openConfig => Bool
  | .readConfig => Except JsonException Json
  | .writeConfig _ => Bool
  | .sleep => Unit
  | .now => Int
  | .stopExecution => Bool
  | .log _ _ => Unit
  | .file op => op.Ans
  | .directory op => op.Ans
  | .process op => op.Ans
  | .wol _ op => op.Ans

abbrev SystemAction := Program SystemOp.Ans

/-- The events on a system. -/
abbrev SystemTrace := List (Event SystemOp.Ans)

/-- The implementation of the interfaces of a controller. -/
def deploy : (op : Op) → SystemAction op.Ans
  | .now => .perform SystemOp.now
  | .checkFileExists path => (IOStreamFile.checkFileExists path).embed .file
  | .createEmptyFile path => (IOStreamFile.createEmptyFile path).embed .file
  | .removeFile path => (IOStreamFile.removeFile path).embed .file
  | .createDirectory path => (IOStreamFile.createDirectory path).embed .directory
  | .pingHost ip => (Pinger.pingHost ip).embed .process
  | .sendMagicPacket mac => (WakeOnLan.sendMagicPacket (Utf8.ofString mac)).embed (.wol mac)
  | .sendShutdownCommand ip sshUser =>
    (SshShutdown.sendShutdownCommand ip sshUser).embed .process
  | .stopExecution => .perform SystemOp.stopExecution
  | .log priority message => .perform (SystemOp.log priority message)

/-- The implementation of the operations of the program. -/
def deployMain : (op : MainOp) → SystemAction op.Ans
  | .openConfig => .perform SystemOp.openConfig
  | .readConfig => .perform SystemOp.readConfig
  | .writeConfig config => .perform (SystemOp.writeConfig config)
  | .log priority message => .perform (SystemOp.log priority message)
  | .controller _ op => deploy op
  | .stopExecution => .perform SystemOp.stopExecution
  | .sleep => .perform SystemOp.sleep

/-- The program on the system. -/
def daemon (plus : Int → Int → Int) (turns : Nat) : SystemAction Outcome :=
  (main plus turns).interpret deployMain

/-! ## What the program is configured for -/

/-- The servers of a configuration: those of the blocks that can be decoded. -/
def servers (json : Json) : List ServerMachineConfig :=
  json.elements.filterMap fun block => (ServerMachineConfig.fromJson block).toOption

/-- The operations the servers allow to the program, once the configuration is read. -/
def MainOwned (configs : List ServerMachineConfig) : MainOp → Prop
  | .controller _ op => ∃ config ∈ configs, Owned config op
  | .openConfig | .readConfig | .writeConfig _ => False
  | _ => True

variable {plus : Int → Int → Int} {config : ServerMachineConfig} {turns i : Nat}
  {configs : List ServerMachineConfig} {blocks : List Json}
  {tr : List (Event MainOp.Ans)} {outcome : Outcome} {read : Except JsonException Json}

theorem mem_servers_iff {json : Json} : config ∈ servers json ↔
    ∃ block ∈ json.elements, ServerMachineConfig.fromJson block = .ok config := by
  rw [servers, List.mem_filterMap]
  refine exists_congr fun block => and_congr_right fun _ => ?_
  cases ServerMachineConfig.fromJson block <;> simp [Except.toOption]

theorem owned_createControllers (h : ∀ block ∈ blocks, ∀ config,
    ServerMachineConfig.fromJson block = .ok config → config ∈ configs) :
    (createControllers i blocks).Each (MainOwned configs)
      fun r => ∀ controllers, r = .ok controllers → ∀ c ∈ controllers, c.1 ∈ configs := by
  induction blocks generalizing i with
  | nil =>
    rintro _ ⟨⟩
    exact fun _ hc => absurd hc List.not_mem_nil
  | cons block blocks ih =>
    obtain ⟨hblock, hblocks⟩ := List.forall_mem_cons.1 h
    rw [createControllers]
    cases hdecoded : ServerMachineConfig.fromJson block with
    | error e =>
      intro controllers h
      cases h
    | ok config =>
      have hconfig := hblock config hdecoded
      refine Program.Only.bind_each ?_ fun controller => (ih hblocks).bind ?_
      · exact .embed _ (owned_construct.mono fun op hop => ⟨config, hconfig, hop⟩)
      · rintro (e | controllers) hmem _ h
        · cases h
        · obtain rfl := Except.ok.inj h
          exact List.forall_mem_cons.2 ⟨hconfig, hmem _ rfl⟩

theorem owned_mainLoop {done todo : List Controlled} (hdone : ∀ c ∈ done, c.1 ∈ configs)
    (htodo : ∀ c ∈ todo, c.1 ∈ configs) :
    (mainLoop plus turns done todo).Only (MainOwned configs) := by
  induction turns generalizing done todo with
  | zero => trivial
  | succ turns ih =>
    refine only_perform_bind_iff.2 ⟨trivial, fun stop => ?_⟩
    cases stop with
    | true => trivial
    | false =>
      rcases todo with _ | ⟨⟨config, controller⟩, todo⟩
      · exact ⟨trivial, fun _ => ih (fun _ hc => absurd hc List.not_mem_nil) hdone⟩
      · obtain ⟨hconfig, htodo⟩ := List.forall_mem_cons.1 htodo
        refine Program.Only.bind ?_ fun controller => ih ?_ htodo
        · exact .embed _ (owned_doWork.mono fun op hop => ⟨config, hconfig, hop⟩)
        · exact List.forall_mem_append.2 ⟨hdone, List.forall_mem_singleton.2 hconfig⟩

/-- Once the configuration is read, the program acts for the servers in it only. -/
theorem AfterReading.owned (h : AfterReading plus turns read tr outcome) :
    ∀ e ∈ tr, MainOwned (read.toOption.elim [] servers) e.op := by
  have hservers (json : Json) : ∀ block ∈ json.elements, ∀ config,
      ServerMachineConfig.fromJson block = .ok config → config ∈ servers json :=
    fun block hblock config hdecoded => mem_servers_iff.2 ⟨block, hblock, hdecoded⟩
  cases h with
  | parseError => exact List.forall_mem_singleton.2 trivial
  | otherError => exact fun _ he => absurd he List.not_mem_nil
  | notDecoded hcreate =>
    exact hcreate.only ((owned_createControllers (hservers _)).only fun _ => id)
  | loop hcreate hloop =>
    refine List.forall_mem_append.2
      ⟨hcreate.only ((owned_createControllers (hservers _)).only fun _ => id), ?_⟩
    have hmem := hcreate.each (owned_createControllers (hservers _)) _ rfl
    exact hloop.only (owned_mainLoop (fun _ hc => absurd hc List.not_mem_nil) hmem)

/-! ## Confinement -/

/-- The operations of the system the servers allow: files are opened for writing, and
    removed, if they are status files, and only pings and shutdown commands are run. -/
def Confined (configs : List ServerMachineConfig) : SystemOp → Prop
  | .openConfig | .readConfig | .writeConfig _ => False
  | .file (.openRead path) => ∃ config ∈ configs, path ∈ paths config
  | .file (.openWrite path) => ∃ config ∈ configs, ∃ state, path = statusPath config state
  | .file (.remove path) => ∃ config ∈ configs, ∃ state, path = statusPath config state
  | .directory (.mkdir path _) => ∃ config ∈ configs, path = config.controlDir
  | .process (.system command) => ∃ config ∈ configs,
    (∃ ip ∈ config.ip :: config.clients.map ClientMachineConfig.ip,
      command = Exec.shellCommand (Pinger.pingCommand ip)) ∨
    command = Exec.shellCommand (SshShutdown.shutdownCommand config.ip config.sshUser)
  | .wol mac _ => ∃ config ∈ configs, mac = config.mac
  | _ => True

/-- The files of a controller are opened, and its status files written and removed. -/
theorem confined_deploy {op : Op} (hconfig : config ∈ configs) (h : Owned config op) :
    (deploy op).Only (Confined configs) := by
  have hcheck {path : String} (hpath : path ∈ paths config) :
      (IOStreamFile.checkFileExists path).Only fun op => Confined configs (.file op) :=
    (only_perform_iff _).2 ⟨config, hconfig, hpath⟩
  have hcommand {command : String}
      (hsystem : Confined configs (.process (.system (Exec.shellCommand command)))) :
      (Exec.command command).Only fun op => Confined configs (.process op) :=
    ⟨trivial, fun _ => ⟨hsystem, fun _ => ⟨trivial, fun _ => trivial⟩⟩⟩
  rcases h with rfl | h
  · exact (only_perform_iff _).2 trivial
  cases op with
  | now => cases h
  | checkFileExists path => exact (hcheck h).embed _
  | createEmptyFile path =>
    obtain ⟨state, rfl⟩ := h
    refine Program.Only.embed _ ((hcheck (statusPath_mem state)).bind fun found => ?_)
    cases found with
    | true => trivial
    | false =>
      refine ⟨⟨config, hconfig, state, rfl⟩, fun opened => ?_⟩
      cases opened with
      | true => trivial
      | false => exact ⟨trivial, fun _ => trivial⟩
  | removeFile path =>
    obtain ⟨state, rfl⟩ := h
    refine Program.Only.embed _ ((hcheck (statusPath_mem state)).bind fun found => ?_)
    cases found with
    | false => trivial
    | true =>
      refine only_perform_bind_iff.2 ⟨⟨config, hconfig, state, rfl⟩, fun status => ?_⟩
      split_ifs
      · exact ⟨trivial, fun _ => ⟨trivial, fun _ => trivial⟩⟩
      · trivial
  | createDirectory path =>
    refine Program.Only.embed _ (only_perform_bind_iff.2 ⟨⟨config, hconfig, h⟩, fun status => ?_⟩)
    split_ifs
    · trivial
    · refine only_perform_bind_iff.2 ⟨trivial, fun errno => ?_⟩
      split_ifs
      · exact ⟨trivial, fun _ => trivial⟩
      · exact ⟨trivial, fun _ => ⟨trivial, fun _ => trivial⟩⟩
  | pingHost ip =>
    refine Program.Only.embed _ ((hcommand ⟨config, hconfig, .inl ⟨ip, h, rfl⟩⟩).bind fun ret => ?_)
    split_ifs
    · exact ⟨trivial, fun _ => ⟨trivial, fun _ => trivial⟩⟩
    · trivial
    · trivial
  | sendMagicPacket mac =>
    exact Program.Only.embed _ (Program.Only.mono (only_true _) fun _ _ => ⟨config, hconfig, h⟩)
  | sendShutdownCommand ip sshUser =>
    obtain ⟨rfl, rfl⟩ := h
    refine Program.Only.embed _ ((hcommand ⟨config, hconfig, .inr rfl⟩).bind fun ret => ?_)
    split_ifs
    · exact ⟨trivial, fun _ => ⟨trivial, fun _ => trivial⟩⟩
    · exact ⟨trivial, fun _ => trivial⟩
    · exact ⟨trivial, fun _ => trivial⟩
  | stopExecution | log => exact (only_perform_iff _).2 trivial

theorem confined_deployMain {op : MainOp} (h : MainOwned configs op) :
    (deployMain op).Only (Confined configs) := by
  cases op with
  | openConfig | readConfig | writeConfig => cases h
  | controller i op =>
    obtain ⟨config, hconfig, howned⟩ := h
    exact confined_deploy hconfig howned
  | log | stopExecution | sleep => exact (only_perform_iff _).2 trivial

/-- Reading the configuration, on the system. -/
theorem implements_readEvents {tr : SystemTrace} (h : Implements deployMain (readEvents read) tr) :
    tr = [⟨.openConfig, true⟩,
      ⟨.log .info ("Found existing config file under: " ++ configPath), ()⟩,
      ⟨.readConfig, read⟩] := by
  obtain ⟨_, _, rfl, hopen, h₁⟩ := implements_cons_iff.1 h
  obtain ⟨_, _, rfl, hlog, h₂⟩ := implements_cons_iff.1 h₁
  obtain ⟨_, _, rfl, hread, h₃⟩ := implements_cons_iff.1 h₂
  obtain rfl := implements_nil_iff.1 h₃
  obtain rfl := runs_perform_iff.1 hopen
  obtain rfl := runs_perform_iff.1 hlog
  obtain rfl := runs_perform_iff.1 hread
  rfl

/-- Writing the example configuration, on the system. -/
theorem implements_exampleEvents {written : Bool} {tr : SystemTrace}
    (h : Implements deployMain (exampleEvents written) tr) : ∃ priority message,
      tr = [⟨.openConfig, false⟩, ⟨.log .err ("Found no config file under: " ++ configPath), ()⟩,
        ⟨.writeConfig (.array [exampleServerConfig.toJson]), written⟩,
        ⟨.log priority message, ()⟩] := by
  obtain ⟨_, _, rfl, hopen, h₁⟩ := implements_cons_iff.1 h
  obtain ⟨_, _, rfl, hlog, h₂⟩ := implements_cons_iff.1 h₁
  obtain ⟨_, _, rfl, hwrite, h₃⟩ := implements_cons_iff.1 h₂
  obtain rfl := runs_perform_iff.1 hopen
  obtain rfl := runs_perform_iff.1 hlog
  obtain rfl := runs_perform_iff.1 hwrite
  cases written with
  | true | false =>
    obtain ⟨_, _, rfl, hlast, h₄⟩ := implements_cons_iff.1 h₃
    obtain rfl := implements_nil_iff.1 h₄
    obtain rfl := runs_perform_iff.1 hlast
    exact ⟨_, _, rfl⟩

/-- The daemon writes an example configuration and gives up, or it reads the configuration
    and does what the servers in it allow, and nothing else. -/
theorem daemon_confined {tr : SystemTrace} (h : Runs (daemon plus turns) tr outcome) :
    (outcome = .returned 1 ∧ ∃ written priority message,
      tr = [⟨.openConfig, false⟩, ⟨.log .err ("Found no config file under: " ++ configPath), ()⟩,
        ⟨.writeConfig (.array [exampleServerConfig.toJson]), written⟩,
        ⟨.log priority message, ()⟩]) ∨
      ∃ read tr', tr = [⟨.openConfig, true⟩,
          ⟨.log .info ("Found existing config file under: " ++ configPath), ()⟩,
          ⟨.readConfig, read⟩] ++ tr' ∧
        ∀ e ∈ tr', Confined (read.toOption.elim [] servers) e.op := by
  obtain ⟨tr', hmain, himpl⟩ := runs_interpret_iff.1 h
  rcases runs_main_cases hmain with ⟨written, rfl, rfl⟩ | ⟨read, tr', rfl, hafter⟩
  · exact .inl ⟨rfl, written, implements_exampleEvents himpl⟩
  · obtain ⟨tr₁, tr₂, rfl, h₁, h₂⟩ := implements_append_iff.1 himpl
    obtain rfl := implements_readEvents h₁
    exact .inr ⟨read, tr₂, rfl, h₂.only hafter.owned fun _ he => confined_deployMain he⟩

/-- The operations at the start, and messages. -/
def Startup : SystemOp → Prop
  | .openConfig | .readConfig | .writeConfig _ | .log _ _ => True
  | _ => False

/-- Whatever else is done is done after the configuration is read, and allowed by it. -/
theorem confined_of_event {tr tr' : SystemTrace} {e : Event SystemOp.Ans}
    (h : Runs (daemon plus turns) (tr ++ e :: tr') outcome) (hstart : ¬Startup e.op) :
    ∃ read, ⟨.readConfig, read⟩ ∈ tr ∧ Confined (read.toOption.elim [] servers) e.op := by
  rcases daemon_confined h with ⟨-, _, _, _, he⟩ | ⟨read, tr₂, he, hconfined⟩
  · have hmem := he ▸ List.mem_append_right tr List.mem_cons_self
    simp only [List.mem_cons, List.not_mem_nil, or_false] at hmem
    rcases hmem with rfl | rfl | rfl | rfl <;> exact absurd trivial hstart
  · rcases List.append_eq_append_iff.1 he with ⟨t, ht, hrest⟩ | ⟨t, rfl, rfl⟩
    · cases t with
      | nil =>
        obtain rfl := List.nil_append tr₂ ▸ hrest
        exact ⟨read, by simp [← ht.trans (List.append_nil tr)], hconfined _ List.mem_cons_self⟩
      | cons e' t =>
        -- The event is one of the start.
        obtain ⟨rfl, -⟩ := List.cons_eq_cons.1 hrest
        have hmem : e ∈ tr ++ e :: t := List.mem_append_right tr List.mem_cons_self
        rw [← ht] at hmem
        simp only [List.mem_cons, List.not_mem_nil, or_false] at hmem
        rcases hmem with rfl | rfl | rfl <;> exact absurd trivial hstart
    · exact ⟨read, by simp, hconfined _ (by simp)⟩

/-- Every command the daemon runs is a ping of a host it is configured for, or shuts down a
    server it is configured for, and the configuration has been read before. -/
theorem daemon_commands {tr tr' : SystemTrace} {command : String} {result : ProcessResult}
    (h : Runs (daemon plus turns) (tr ++ ⟨.process (.system command), result⟩ :: tr') outcome) :
    ∃ json, ⟨.readConfig, .ok json⟩ ∈ tr ∧ ∃ config ∈ servers json,
      (∃ ip ∈ config.ip :: config.clients.map ClientMachineConfig.ip,
        command = Exec.shellCommand (Pinger.pingCommand ip)) ∨
      command = Exec.shellCommand (SshShutdown.shutdownCommand config.ip config.sshUser) := by
  obtain ⟨read, hread, config, hconfig, hcommand⟩ := confined_of_event h id
  cases read with
  | error => exact absurd hconfig List.not_mem_nil
  | ok json => exact ⟨json, hread, config, hconfig, hcommand⟩

/-! ## A calm system -/

/-- The answers of a system on which it is `now`, commands end with `result`, there are no
    files, and nothing fails. -/
def calm (json : Json) (now : Int) (result : String → ProcessResult) : (op : SystemOp) → op.Ans
  | .openConfig => true
  | .readConfig => .ok json
  | .writeConfig _ => true
  | .sleep => ()
  | .now => now
  | .stopExecution => false
  | .log _ _ => ()
  | .file (.openRead _) => false
  | .file (.openWrite _) => true
  | .file (.remove _) => (0 : Int)
  | .file .strerror => ""
  | .file (.logErr _) => ()
  | .directory (.mkdir _ _) => (0 : Int)
  | .directory .errno => (0 : Int)
  | .directory .strerror => ""
  | .directory (.log _ _) => ()
  | .process .blockSignals => []
  | .process (.restoreSignals _) => ()
  | .process (.system command) => result command
  | .process .strerror => ""
  | .process (.log _ _) => ()
  | .wol mac (.read position) => WakeOnLan.charAt (Utf8.ofString mac) position
  | .wol _ (.write _ _) => ()
  | .wol _ (.load _) => (0 : UInt8)
  | .wol _ .socket => (3 : Int)
  | .wol _ (.setsockopt _) => (0 : Int)
  | .wol _ (.sendto _ _ _ _) => (102 : Int)
  | .wol _ (.close _) => ()
  | .wol _ .strerror => ([] : Bytes)
  | .wol _ (.logErr _) => ()

/-- The example configuration, with a server that is down and clients that are up. -/
def calmExample : (op : SystemOp) → op.Ans :=
  calm (.array [exampleServerConfig.toJson]) 5000000000 fun command =>
    if command = Exec.shellCommand (Pinger.pingCommand exampleServerConfig.ip) then .exited 1
    else .exited 0

/-- A run of the example configuration, and its commands: the server is pinged, then the first
    client, which answers. -/
theorem daemon_commands_example :
    let r := exec (fun op (_ : Unit) => (calmExample op, ())) (daemon exactPlus 1) ()
    r.trace.filterMap (fun e => match e.op with
      | .process (.system command) => some command
      | _ => none) = [Exec.shellCommand (Pinger.pingCommand "192.168.0.6"),
        Exec.shellCommand (Pinger.pingCommand "192.168.0.213")] ∧
    ∃ tr command result tr', r.trace = tr ++ ⟨.process (.system command), result⟩ :: tr' ∧
      ∃ json, ⟨.readConfig, .ok json⟩ ∈ tr ∧ ∃ config ∈ servers json,
        (∃ ip ∈ config.ip :: config.clients.map ClientMachineConfig.ip,
          command = Exec.shellCommand (Pinger.pingCommand ip)) ∨
        command = Exec.shellCommand (SshShutdown.shutdownCommand config.ip config.sshUser) := by
  intro r
  have htrace : r.trace = r.trace.take 15 ++
      ⟨.process (.system (Exec.shellCommand (Pinger.pingCommand "192.168.0.6"))), .exited 1⟩ ::
        r.trace.drop 16 := rfl
  exact ⟨by decide +zetaReduce, _, _, _, _, htrace, daemon_commands (htrace ▸ exec_runs _ _ _)⟩

end Hostcontrold
