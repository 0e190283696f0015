import Hostcontrold.Controller.Policy
import Hostcontrold.System.History
import Hostcontrold.System.Network
import Hostcontrold.System.Parts

/-!
# The policy on the system

On the system, a call finds out how the processes of its pings have ended, and which force
files can be opened (`systemObserve`), and it gives its commands by running the code for
wake-on-LAN, or the process of a shutdown (`issued`).

The daemon follows the power policy: in every run, the commands of each controller are those
that the policy decides on, call by call, from what its calls have found out
(`daemon_policy`).
-/

namespace Hostcontrold

open Interaction Policy ServerController

variable {plus : Int → Int → Int} {turns i : Nat} {config : ServerMachineConfig} {json : Json}
  {outcome : Outcome} {tr₀ : Trace} {tr : SystemTrace}

/-! ## What a call finds out, and does -/

/-- The reading of the clock of an event, if it is one. -/
def systemReading? : Event SystemOp.Ans → Option Int
  | ⟨.now, time⟩ => some time
  | _ => none

/-- The first reading of the clock. -/
def systemReading (tr : SystemTrace) : Int := (tr.filterMap systemReading?).head?.getD 0

/-- The event opens the file `path`. -/
def opens (path : String) : Event SystemOp.Ans → Bool
  | ⟨.file (.openRead p), opened⟩ => opened && p == path
  | _ => false

/-- The event is one of the code for wake-on-LAN. -/
def isWol : Event SystemOp.Ans → Bool
  | ⟨.wol _ _, _⟩ => true
  | _ => false

variable (config) in
/-- The process by which the server is shut down. -/
def shutdownProcess : String :=
  Exec.shellCommand (SshShutdown.shutdownCommand config.ip config.sshUser)

variable (config) in
/-- How the pings have ended, in order: all processes but those that shut down the server. -/
def pinged (tr : SystemTrace) : List ProcessResult :=
  ((tr.filterMap systemProcess?).filter fun process => process.1 ≠ shutdownProcess config).map
    Prod.snd

variable (config) in
/-- How the processes that shut down the server have ended, in order. -/
def shutdowns (tr : SystemTrace) : List ProcessResult :=
  ((tr.filterMap systemProcess?).filter fun process => process.1 = shutdownProcess config).map
    Prod.snd

variable (config) in
/-- What a call on the system finds out. The first ping is that of the server. -/
def systemObserve (tr : SystemTrace) : Observation where
  now := systemReading tr
  server := (pinged config tr).head?.map classify
  forceOn := tr.any (opens (config.controlDir ++ kFileKeepOn))
  forceOff := tr.any (opens (config.controlDir ++ kFileKeepOff))
  client := (pinged config tr).tail.any (· = .exited 0)

variable (config) in
/-- The power commands that a call on the system gives. -/
def issued (tr : SystemTrace) : List Command :=
  (if tr.any isWol then [.wol config.mac] else []) ++
    (shutdowns config tr).map fun _ => .shutdown config.ip config.sshUser

/-! ## The view of a controller -/

/-- What happens on the system looks to the controller as it should. -/
structure SameView (config : ServerMachineConfig) (tr₀ : Trace) (tr : SystemTrace) : Prop where
  clock : tr.filterMap systemReading? = tr₀.filterMap reading?
  hosts : (pinged config tr).map classify = (pings tr₀).map Prod.snd
  forced : ∀ name ∈ [kFileKeepOn, kFileKeepOff],
    tr.any (opens (config.controlDir ++ name)) = tr₀.any (finds (config.controlDir ++ name))
  woken : tr.any isWol = (commands tr₀).any (· = .wol config.mac)
  shutDown : (shutdowns config tr).length =
    ((commands tr₀).filter (· = .shutdown config.ip config.sshUser)).length

theorem SameView.append {tr₀' : Trace} {tr' : SystemTrace} (h : SameView config tr₀ tr)
    (h' : SameView config tr₀' tr') : SameView config (tr₀ ++ tr₀') (tr ++ tr') where
  clock := by rw [List.filterMap_append, List.filterMap_append, h.clock, h'.clock]
  hosts := by
    have hhosts := congrArg₂ (· ++ ·) h.hosts h'.hosts
    simpa [pinged] using hhosts
  forced name hname := by
    rw [List.any_append, List.any_append, h.forced name hname, h'.forced name hname]
  woken := by rw [List.any_append, commands_append, List.any_append, h.woken, h'.woken]
  shutDown := by
    have hshutDown := congrArg₂ (· + ·) h.shutDown h'.shutDown
    simpa [shutdowns] using hshutDown

theorem SameView.nil : SameView config [] [] :=
  ⟨rfl, rfl, fun _ _ => rfl, rfl, rfl⟩

variable (config) in
/-- An operation of the system from which the controller learns nothing. -/
def Unseen : SystemOp → Prop
  | .now | .process (.system _) | .wol _ _ => False
  | .file (.openRead path) => ∀ name ∈ [kFileKeepOn, kFileKeepOff], path ≠ config.controlDir ++ name
  | _ => True

theorem SameView.of_unseen (h : ∀ e ∈ tr, Unseen config e.op) : SameView config [] tr := by
  induction tr with
  | nil => exact .nil
  | cons e tr ih =>
    obtain ⟨hfirst, hrest⟩ := List.forall_mem_cons.1 h
    have happend (hfirst : SameView config [] [e]) : SameView config ([] ++ []) ([e] ++ tr) :=
      hfirst.append (ih hrest)
    refine happend ?_
    obtain ⟨op, x⟩ := e
    cases op with
    | now | wol => cases hfirst
    | file op =>
      cases op with
      | openRead path =>
        have hopens : ∀ name ∈ [kFileKeepOn, kFileKeepOff],
            [Event.mk (SystemOp.file (.openRead path)) x].any (opens (config.controlDir ++ name)) =
              false := by
          intro name hname
          simp [opens, hfirst name hname]
        exact ⟨rfl, rfl, hopens, rfl, rfl⟩
      | _ => exact ⟨rfl, rfl, fun _ _ => rfl, rfl, rfl⟩
    | process op =>
      cases op with
      | system => cases hfirst
      | _ => exact ⟨rfl, rfl, fun _ _ => rfl, rfl, rfl⟩
    | _ => exact ⟨rfl, rfl, fun _ _ => rfl, rfl, rfl⟩

theorem head?_cString {s : String} {c : Char} (h : s.toList.head? = some c) (hc : c.toNat ≠ 0) :
    (cString s).toList.head? = some c := by
  obtain ⟨cs, hs⟩ := List.head?_eq_some_iff.1 h
  simp [cString, hs, hc]

/-- The process of a ping does not shut down the server. -/
theorem ping_ne_shutdown (ip : String) :
    Exec.shellCommand (Pinger.pingCommand ip) ≠ shutdownProcess config := by
  have hping : (Exec.shellCommand (Pinger.pingCommand ip)).toList.head? = some 'p' := by
    refine head?_cString ?_ (by decide)
    delta Pinger.pingCommand
    simp
  have hshutdown : (shutdownProcess config).toList.head? = some 's' := by
    refine head?_cString ?_ (by decide)
    delta SshShutdown.shutdownCommand
    simp
  intro h
  rw [h, hshutdown] at hping
  cases hping

theorem unseen_checkFileExists {state : Bool} :
    (IOStreamFile.checkFileExists (statusPath config state)).Only
      fun op => Unseen config (.file op) := by
  refine (only_perform_iff _).2 (List.forall_mem_cons.2 ⟨(statusPath_ne state).1, ?_⟩)
  exact List.forall_mem_singleton.2 (statusPath_ne state).2

/-- Of the events around processes, the processes are seen. -/
theorem view_process (events : List (Event ProcessOp.Ans)) :
    let tr := events.map (Event.embed SystemOp.process)
    tr.filterMap systemReading? = [] ∧ (∀ path, tr.any (opens path) = false) ∧
      tr.any isWol = false ∧ tr.filterMap systemProcess? = processes events := by
  refine ⟨?_, fun path => ?_, ?_, List.filterMap_map⟩
  · exact List.filterMap_eq_nil_iff.2 (List.forall_mem_map.2 fun _ _ => rfl)
  · exact List.any_eq_false.2 (List.forall_mem_map.2 fun _ _ => Bool.false_ne_true)
  · exact List.any_eq_false.2 (List.forall_mem_map.2 fun _ _ => Bool.false_ne_true)

/-- Of the events of the code for wake-on-LAN, it is only seen that they are there. -/
theorem view_wol (mac : String) (events : List (Event WolOp.Ans)) :
    let tr := events.map (Event.embed (SystemOp.wol mac))
    tr.filterMap systemReading? = [] ∧ (∀ path, tr.any (opens path) = false) ∧
      tr.any isWol = !events.isEmpty ∧ tr.filterMap systemProcess? = [] := by
  refine ⟨?_, fun path => ?_, ?_, ?_⟩
  · exact List.filterMap_eq_nil_iff.2 (List.forall_mem_map.2 fun _ _ => rfl)
  · exact List.any_eq_false.2 (List.forall_mem_map.2 fun _ _ => Bool.false_ne_true)
  · cases events <;> simp [isWol, Event.embed]
  · exact List.filterMap_eq_nil_iff.2 (List.forall_mem_map.2 fun _ _ => rfl)

/-- Every operation of a controller looks as it should. -/
theorem sameView_deploy {op : Op} {x : op.Ans} (howned : Owned config op)
    (h : Runs (deploy op) tr x) : SameView config [⟨op, x⟩] tr := by
  have hunseen {p : SystemAction op.Ans} (hp : p.Only (Unseen config)) (h : Runs p tr x) :
      SameView config [] tr := .of_unseen (h.only hp)
  rcases howned with rfl | hacts
  · obtain rfl := runs_perform_iff.1 h
    exact ⟨rfl, rfl, fun _ _ => rfl, rfl, rfl⟩
  cases op with
  | now => cases hacts
  | checkFileExists path =>
    obtain ⟨events, rfl, hcheck⟩ := (runs_embed_iff _).1 h
    obtain rfl := runs_perform_iff.1 hcheck
    exact ⟨rfl, rfl, fun _ _ => rfl, rfl, rfl⟩
  | createEmptyFile path =>
    obtain ⟨state, rfl⟩ := hacts
    have hview := hunseen (Program.Only.embed _ (unseen_checkFileExists.bind fun found => ?_)) h
    · exact ⟨hview.clock, hview.hosts, hview.forced, hview.woken, hview.shutDown⟩
    · cases found with
      | true => trivial
      | false =>
        refine ⟨trivial, fun opened => ?_⟩
        cases opened with
        | true => trivial
        | false => exact ⟨trivial, fun _ => trivial⟩
  | removeFile path =>
    obtain ⟨state, rfl⟩ := hacts
    have hview := hunseen (Program.Only.embed _ (unseen_checkFileExists.bind fun found => ?_)) h
    · exact ⟨hview.clock, hview.hosts, hview.forced, hview.woken, hview.shutDown⟩
    · cases found with
      | false => trivial
      | true =>
        refine only_perform_bind_iff.2 ⟨trivial, fun status => ?_⟩
        split_ifs
        · exact ⟨trivial, fun _ => ⟨trivial, fun _ => trivial⟩⟩
        · trivial
  | createDirectory path =>
    have hview := hunseen (.embed SystemOp.directory
      ((only_true (IOStreamFile.createDirectory path)).mono fun _ _ => trivial)) h
    exact ⟨hview.clock, hview.hosts, hview.forced, hview.woken, hview.shutDown⟩
  | pingHost ip =>
    obtain ⟨events, rfl, hping⟩ := (runs_embed_iff _).1 h
    obtain ⟨result, rfl, hprocess⟩ := Pinger.runs_pingHost hping
    obtain ⟨hclock, hopens, hwol, hprocesses⟩ := view_process events
    refine ⟨hclock, ?_, fun _ _ => hopens _, hwol, ?_⟩
    · simp [pinged, hprocesses, hprocess, ping_ne_shutdown, pings, ping?]
    · simp [shutdowns, hprocesses, hprocess, ping_ne_shutdown, command?]
  | sendMagicPacket mac =>
    obtain rfl := hacts
    obtain ⟨events, rfl, hsend⟩ := (runs_embed_iff _).1 h
    obtain ⟨hclock, hopens, hwol, hprocesses⟩ := view_wol config.mac events
    -- The code for wake-on-LAN begins with reading the address.
    have hsome : events.isEmpty = false := by
      obtain ⟨_, _, _, hconvert, -, rfl⟩ := runs_bind_iff.1 hsend
      obtain ⟨_, _, rfl, -⟩ := runs_perform_bind_iff.1 hconvert
      rfl
    refine ⟨hclock, ?_, fun _ _ => hopens _, ?_, ?_⟩
    · simp [pinged, hprocesses, pings, ping?]
    · simp [hwol, hsome, command?]
    · simp [shutdowns, hprocesses, command?]
  | sendShutdownCommand ip sshUser =>
    obtain ⟨rfl, rfl⟩ := hacts
    obtain ⟨events, rfl, hshutdown⟩ := (runs_embed_iff _).1 h
    obtain ⟨result, hprocess⟩ := SshShutdown.exists_process hshutdown
    obtain ⟨hclock, hopens, hwol, hprocesses⟩ := view_process events
    refine ⟨hclock, ?_, fun _ _ => hopens _, hwol, ?_⟩
    · simp [pinged, hprocesses, hprocess, shutdownProcess, pings, ping?]
    · simp [shutdowns, hprocesses, hprocess, shutdownProcess, command?]
  | stopExecution | log =>
    obtain rfl := runs_perform_iff.1 h
    exact ⟨rfl, rfl, fun _ _ => rfl, rfl, rfl⟩

/-- What is done for a controller looks as it should. -/
theorem sameView_of_implements (h : Implements deploy tr₀ tr)
    (howned : ∀ e ∈ tr₀, Owned config e.op) : SameView config tr₀ tr :=
  h.lift .nil (fun _ _ _ _ => .append) fun _ he _ => sameView_deploy (howned _ he)

/-! ## The policy -/

theorem classify_eq_active_iff {result : ProcessResult} :
    classify result = .kHostActive ↔ result = .exited 0 := by
  cases result <;> simp [classify]

/-- A call finds out what it should. -/
theorem systemObserve_eq (h : SameView config tr₀ tr) :
    systemObserve config tr = observe config tr₀ := by
  have hnow : systemReading tr = reading tr₀ := by
    rw [systemReading, h.clock, List.head?_filterMap]
    rfl
  have hserver : (pinged config tr).head?.map classify = (pings tr₀).head?.map Prod.snd := by
    rw [← List.head?_map, h.hosts, List.head?_map]
  have hclient : (pinged config tr).tail.any (· = .exited 0) = (pings tr₀).tail.any active := by
    have hany := congrArg (fun answers => answers.tail.any (· = PingResult.kHostActive)) h.hosts
    simp only [← List.map_tail, List.any_map, Function.comp_def, classify_eq_active_iff] at hany
    exact hany
  rw [systemObserve, observe, hnow, hserver, hclient, h.forced _ (by simp), h.forced _ (by simp)]

/-- The commands of a call are those of its configuration. -/
theorem commands_cases {s s' : ServerController} (h : Call plus config s tr₀ s') :
    commands tr₀ = [] ∨ commands tr₀ = [.wol config.mac] ∨
      commands tr₀ = [.shutdown config.ip config.sshUser] := by
  rw [h.observed.2, command]
  split_ifs <;> simp

/-- A call gives the commands it should. -/
theorem issued_eq {s s' : ServerController} (h : Call plus config s tr₀ s')
    (hview : SameView config tr₀ tr) : issued config tr = commands tr₀ := by
  rw [issued, hview.woken, List.map_const', hview.shutDown]
  rcases commands_cases h with hcommands | hcommands | hcommands <;> simp [hcommands]

variable {tr₀ : SystemTrace} {trs : List SystemTrace} {s : ServerController}

/-- In every run of a controller on the system, the state is the summary of the effective
    calls, and the commands are those of the policy, call by call. -/
theorem IsSystemRun.policy (h : IsSystemRun exactPlus config tr₀ trs s) :
    Summary config (systemReading tr₀)
        (effectiveCalls config (trs.map (systemObserve config))) s ∧
      trs.map (issued config) =
        decisions config (systemReading tr₀) (trs.map (systemObserve config)) := by
  induction h with
  | construct hrun =>
    obtain ⟨tr₀', hrun', himpl⟩ := runs_interpret_iff.1 hrun
    have hobserved := systemObserve_eq (sameView_of_implements himpl (hrun'.only owned_construct))
    have hnow : systemReading _ = reading tr₀' := congrArg Observation.now hobserved
    rw [(runs_construct hrun').1, hnow]
    exact ⟨⟨rfl, rfl, rfl⟩, rfl⟩
  | @call tr trs s _ _ hrun ih =>
    obtain ⟨hs, hdecisions⟩ := ih
    obtain ⟨tr', hrun', himpl⟩ := runs_interpret_iff.1 hrun
    have hcall := call_of_runs hrun'
    have hview := sameView_of_implements himpl (hrun'.only owned_doWork)
    obtain ⟨rfl, hcommands⟩ := hcall.observed
    rw [← systemObserve_eq hview] at hcommands ⊢
    refine ⟨?_, congrArg₂ List.cons ?_ hdecisions⟩
    · rw [List.map_cons, effectiveCalls]
      split_ifs with ho
      · exact hs.next ho
      · rw [next_of_throttled ((hs.throttled_iff _).2 ho)]
        exact hs
    · rw [issued_eq hcall hview, hcommands, hs.command]

end Hostcontrold
