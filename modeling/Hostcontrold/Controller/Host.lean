import Hostcontrold.Controller.Files
import Hostcontrold.Controller.Inputs
import Hostcontrold.Interaction.Embedding
import Hostcontrold.Interaction.Interpretation
import Hostcontrold.Network.Commands

/-!
# A controller on its host

On the host, the pings and the shutdown commands of a controller are processes
(`onHost`); its other interfaces are as before. What the controller sees is what
these programs make of the way the processes end.

A ping that did not work should not be taken for a stopped server (`Faithful`): only
the exit code 1 says that there was no reply. The ping of the server in a call is
reported faithfully if and only if it could not be started, or has exited with 0 or 1
(`faithful_iff`). Any other exit code, as when `ping` is missing or the name of the
host is not resolved, and any signal are taken for a server that does not answer:
the server is recorded as stopped, `off` replaces `on`, and it may be woken.
-/

namespace Hostcontrold

open Interaction ServerController

/-- The operations of a host: processes, and the other interfaces. -/
inductive HostOp
  | interface (op : Op)
  | process (op : ProcessOp)

abbrev HostOp.Ans : HostOp → Type
  | .interface op => op.Ans
  | .process op => op.Ans

/-- How the operations of a controller are implemented on the host. -/
def onHost : (op : Op) → Program HostOp.Ans op.Ans
  | .pingHost ip => (Pinger.pingHost ip).embed .process
  | .sendShutdownCommand ip sshUser =>
    (SshShutdown.sendShutdownCommand ip sshUser).embed .process
  | .now => .perform (HostOp.interface .now)
  | .checkFileExists path => .perform (HostOp.interface (.checkFileExists path))
  | .createEmptyFile path => .perform (HostOp.interface (.createEmptyFile path))
  | .removeFile path => .perform (HostOp.interface (.removeFile path))
  | .createDirectory path => .perform (HostOp.interface (.createDirectory path))
  | .sendMagicPacket mac => .perform (HostOp.interface (.sendMagicPacket mac))
  | .stopExecution => .perform (HostOp.interface .stopExecution)
  | .log priority message => .perform (HostOp.interface (.log priority message))

/-- The events on a host. -/
abbrev HostTrace := List (Event HostOp.Ans)

/-- The process of an event, if it is one: the command, and how it has ended. -/
def hostSystem? : Event HostOp.Ans → Option (String × ProcessResult)
  | ⟨.process op, x⟩ => system? ⟨op, x⟩
  | _ => none

/-- How the ping of the server in a call has ended, if there was one: the first
    process with its command. -/
def serverPing (config : ServerMachineConfig) (events : HostTrace) : Option ProcessResult :=
  ((events.filterMap hostSystem?).find?
    fun process => process.1 = Exec.shellCommand (Pinger.pingCommand config.ip)).map Prod.snd

variable (plus : Int → Int → Int) (config : ServerMachineConfig)

/-- The status files change with the operations of the controller only. -/
def HostWorld : World HostOp.Ans Files := fun files e files' =>
  match e with
  | ⟨.interface op, x⟩ => StatusWorld config files ⟨op, x⟩ files'
  | ⟨.process _, _⟩ => status config files' = status config files

/-- A call of a controller on its host: the controller and the files before and after
    it, and what happened. -/
structure HostCall where
  before : ServerController
  files : Files
  events : HostTrace
  after : ServerController
  files' : Files

/-- The runs of a controller on its host: the calls (the latest first), the state
    reached, and the files. -/
inductive HostRun : List HostCall → ServerController → Files → Prop
  | construct {files files' : Files} {events : HostTrace} {s : ServerController} :
      Runs ((construct config).interpret onHost) events s →
      Evolves (HostWorld config) files events files' → HostRun [] s files'
  | call {calls : List HostCall} {files files' : Files} {events : HostTrace}
      {s s' : ServerController} :
      HostRun calls s files → Runs ((doWork plus config s).interpret onHost) events s' →
      Evolves (HostWorld config) files events files' →
      HostRun (⟨s, files, events, s', files'⟩ :: calls) s' files'

/-- In a call, the ping of the server is reported to the controller as `answer`. -/
def Reported (c : HostCall) (answer : PingResult) : Prop :=
  ∃ tr, Runs (doWork plus config c.before) tr c.after ∧ Implements onHost tr c.events ∧
    (observe config tr).server = some answer

/-- In a call, a ping that did not work does not count as a stopped server. -/
structure Faithful (c : HostCall) : Prop where
  /-- The server is only found stopped if there was no reply. -/
  stopped : c.before.running = true → c.after.running = false →
    serverPing config c.events = some (.exited 1)
  /-- Only then, the file `on` disappears, or the file `off` appears. -/
  replaced : status config c.files true = true ∧ status config c.files' true = false ∨
      status config c.files false = false ∧ status config c.files' false = true →
    serverPing config c.events = some (.exited 1)
  /-- All other failures are reported as such, and change nothing. -/
  failed : ∀ result, serverPing config c.events = some result → result.waitStatus ≠ 0 →
    result ≠ .exited 1 → Reported plus config c .kFailed ∧ c.after.running = c.before.running ∧
      status config c.files' = status config c.files

variable {plus config} {s s' : ServerController} {tr : Trace} {events : HostTrace}
  {files files' : Files}

/-! ## The ping of the server -/

/-- The processes among the events of an embedded program. -/
theorem filterMap_hostSystem?_embed (tr : List (Event ProcessOp.Ans)) :
    (tr.map (Event.embed HostOp.process)).filterMap hostSystem? = processes tr := by
  rw [List.filterMap_map]
  rfl

/-- The first process with the command of the ping is the ping of the server. -/
theorem serverPing_of_processes {result : ProcessResult} {tr : List (Event ProcessOp.Ans)}
    (h : processes tr = [(Exec.shellCommand (Pinger.pingCommand config.ip), result)])
    (now : Int) (rest : HostTrace) : serverPing config ([⟨.interface .now, now⟩] ++
      (tr.map (Event.embed HostOp.process) ++ rest)) = some result := by
  rw [serverPing, List.filterMap_append, List.filterMap_append, filterMap_hostSystem?_embed, h]
  simp [hostSystem?]

/-- A call reads the clock, then pings the server, unless it is throttled. -/
theorem ServerController.Call.start (h : Call plus config s tr s') :
    (∃ now, tr = [⟨.now, now⟩]) ∨
      ∃ now answer tr', tr = ⟨.now, now⟩ :: ⟨.pingHost config.ip, answer⟩ :: tr' := by
  cases h with
  | throttled => exact .inl ⟨_, rfl⟩
  | forcedOn | forcedOff | byClients => exact .inr ⟨_, _, _, rfl⟩

/-- What a call sees of the ping of the server is how the process has ended. -/
theorem server_eq (h : Call plus config s tr s') (himpl : Implements onHost tr events) :
    (observe config tr).server = (serverPing config events).map classify := by
  obtain ⟨now, rfl⟩ | ⟨now, answer, tr', rfl⟩ := h.start
  · obtain ⟨_, _, rfl, hnow, hrest⟩ := implements_cons_iff.1 himpl
    obtain rfl := implements_nil_iff.1 hrest
    obtain rfl := runs_perform_iff.1 hnow
    rfl
  · obtain ⟨_, _, rfl, hnow, hrest⟩ := implements_cons_iff.1 himpl
    obtain ⟨_, _, rfl, hembed, -⟩ := implements_cons_iff.1 hrest
    obtain rfl := runs_perform_iff.1 hnow
    obtain ⟨tr, rfl, hping⟩ := (runs_embed_iff _).1 hembed
    obtain ⟨result, rfl, hprocess⟩ := Pinger.runs_pingHost hping
    rw [serverPing_of_processes hprocess]
    rfl

/-! ## The status files -/

/-- The implementations of the operations change the status files like the operations. -/
theorem statusWorld_of_onHost {op : Op} {x : op.Ans} (h : Runs (onHost op) events x)
    (hfiles : Evolves (HostWorld config) files events files') :
    StatusWorld config files ⟨op, x⟩ files' := by
  have hprocess {tr : List (Event ProcessOp.Ans)}
      (he : Evolves (HostWorld config) files (tr.map (Event.embed HostOp.process)) files') :
      status config files' = status config files := by
    have hstep : ∀ e ∈ tr.map (Event.embed HostOp.process), ∀ w w',
        status config w = status config files → HostWorld config w e w' →
        status config w' = status config files := by
      intro e hmem w w' hw hM
      obtain ⟨e, -, rfl⟩ := List.mem_map.1 hmem
      exact Eq.trans hM hw
    exact he.preserves hstep rfl
  cases op with
  | pingHost | sendShutdownCommand =>
    obtain ⟨tr, rfl, -⟩ := (runs_embed_iff _).1 h
    exact hprocess hfiles
  | _ =>
    obtain rfl := runs_perform_iff.1 h
    obtain ⟨_, he, hnil⟩ := evolves_cons_iff.1 hfiles
    exact evolves_nil_iff.1 hnil ▸ he

/-- The file `on` is not lost, and there is no new file `off`. -/
def Keeps (φ ψ : Bool → Bool) : Prop :=
  (φ true = true → ψ true = true) ∧ (ψ false = true → φ false = true)

theorem Keeps.refl (φ : Bool → Bool) : Keeps φ φ := ⟨id, id⟩

/-- The operations that signal a running server. -/
def SignalsRunning (config : ServerMachineConfig) (op : Op) : Prop :=
  WritesNothing op ∨ op = .createEmptyFile (statusPath config true) ∨
    op = .removeFile (statusPath config false)

theorem Keeps.step {φ : Bool → Bool} {e : Event Op.Ans} (he : SignalsRunning config e.op)
    (h : Keeps φ (status config files)) (hM : StatusWorld config files e files') :
    Keeps φ (status config files') := by
  obtain ⟨op, success⟩ := e
  rcases he with he | rfl | rfl
  · rw [hM.of_writes_none he]
    exact h
  · rw [hM]
    cases success with
    | true =>
      refine ⟨fun _ => by simp [status, affect], fun hoff => h.2 ?_⟩
      simpa [status, affect] using hoff
    | false => exact h
  · rw [hM]
    cases success with
    | true => exact ⟨fun hon => by simpa [status, affect] using h.1 hon, by simp [status, affect]⟩
    | false => exact h

/-- In a call that does not find the server stopped, the file `on` is not lost, and
    there is no new file `off`, although file operations may fail. -/
theorem keeps_doWork {φ : Bool → Bool} :
    Triple (StatusWorld config) (fun files => status config files = φ) (doWork plus config s)
      (fun s' files => s'.running = true ∨ s'.running = s.running → Keeps φ (status config files))
      (fun _ => True) := by
  have hsignal (newState : Bool) : Triple (StatusWorld config)
      (fun files => status config files = φ) (checkAndSignalServerState config s.running newState)
      (fun r files => r = true ∨ r = s.running → Keeps φ (status config files))
      (fun _ => True) := by
    by_cases h : s.running = newState
    · rw [checkAndSignal_of_eq h]
      exact Triple.pure (fun _ hw _ => hw ▸ Keeps.refl _) fun _ _ => trivial
    -- Signalling a running server creates `on` first and removes `off` then, if at all.
    cases newState with
    | true =>
      have honly : (checkAndSignalServerState config s.running true).Only
          (SignalsRunning config) := by
        rw [checkAndSignal_of_ne h]
        exact ⟨.inl rfl, fun _ => ⟨.inr (.inl rfl), fun _ => ⟨.inr (.inr rfl), fun _ => trivial⟩⟩⟩
      have hkeeps : Triple (StatusWorld config) (fun files => Keeps φ (status config files))
          (checkAndSignalServerState config s.running true)
          (fun _ files => Keeps φ (status config files)) (fun _ => True) :=
        Triple.of_only honly (fun _ _ _ he hw hM => Keeps.step he hw hM) fun _ _ => trivial
      exact hkeeps.conseq (fun _ hw => hw ▸ Keeps.refl _) fun _ _ hw _ => hw
    | false =>
      refine ⟨fun _ hrun _ hr => ?_, fun _ _ _ => trivial⟩
      obtain ⟨rfl, -⟩ := runs_checkAndSignal hrun
      exact absurd (hr.resolve_left Bool.false_ne_true).symm h
  refine triple_doWork stable_status (fun _ _ => trivial) hsignal
    (fun _ hw _ => hw ▸ Keeps.refl _) ?_ fun _ _ _ => trivial
  intro r e files files' he hw hM hr
  rw [hM.of_writes_none he]
  exact hw hr

/-! ## Faithful calls -/

/-- The recorded state after a call. -/
theorem ServerController.Call.running_eq (h : Call plus config s tr s') :
    s'.running = recorded s.running (observe config tr).server := by
  obtain ⟨rfl, -⟩ := h.observed
  by_cases ht : Throttled plus config s (reading tr)
  · obtain ⟨hs, now, rfl⟩ := h.of_throttled ht
    rw [hs]
    rfl
  · rw [next_of_not_throttled ht]

/-- The ends of a ping that are classified as they should be: it could not be started,
    or it has told whether there was a reply. -/
def Classified (result : ProcessResult) : Prop :=
  result = .notStarted ∨ result = .exited 0 ∨ result = .exited 1

instance (result : ProcessResult) : Decidable (Classified result) :=
  inferInstanceAs (Decidable (_ ∨ _ ∨ _))

theorem classified_of_kFailed {result : ProcessResult} (h : classify result = .kFailed) :
    Classified result := by
  cases result with
  | notStarted => exact .inl rfl
  | exited code =>
    rw [classify] at h
    split_ifs at h
  | killed => cases h

/-- A call is faithful if and only if the end of the ping of the server is classified
    as it should be. -/
theorem faithful_call_iff {c : HostCall}
    (hrun : Runs ((doWork plus config c.before).interpret onHost) c.events c.after)
    (hfiles : Evolves (HostWorld config) c.files c.events c.files') :
    Faithful plus config c ↔ ∀ result ∈ serverPing config c.events, Classified result := by
  obtain ⟨tr, hwork, himpl⟩ := runs_interpret_iff.1 hrun
  have hserver := server_eq (call_of_runs hwork) himpl
  have hrunning := (call_of_runs hwork).running_eq
  have hworld : Evolves (StatusWorld config) c.files tr c.files' :=
    himpl.evolves (fun _ _ _ _ _ h he => statusWorld_of_onHost h he) hfiles
  constructor
  · intro h result hresult
    by_contra hne
    have hzero : result.waitStatus ≠ 0 := fun hz =>
      hne (.inr (.inl (ProcessResult.waitStatus_eq_zero_iff.1 hz)))
    have hone : result ≠ .exited 1 := fun ho => hne (.inr (.inr ho))
    -- Another end of the ping would have to be reported as `kFailed`, which it is not.
    obtain ⟨⟨tr', hwork', himpl', hreported⟩, -⟩ := h.failed result hresult hzero hone
    rw [server_eq (call_of_runs hwork') himpl', Option.mem_def.1 hresult] at hreported
    exact hne (classified_of_kFailed (Option.some.inj hreported))
  · intro hclassified
    rw [hserver] at hrunning
    have hstopped (hbefore : c.before.running = true) (hafter : c.after.running = false) :
        serverPing config c.events = some (.exited 1) := by
      rw [hrunning, hbefore] at hafter
      rcases hping : serverPing config c.events with _ | result
      · rw [hping] at hafter
        cases hafter
      · rw [hping] at hafter
        obtain rfl | rfl | rfl := hclassified result hping
        · cases hafter
        · cases hafter
        · rfl
    refine ⟨hstopped, ?_, ?_⟩
    · intro hreplaced
      by_contra hne
      -- Had the server not been found stopped, no file would have been replaced.
      have hkept : c.after.running = true ∨ c.after.running = c.before.running := by
        cases hafter : c.after.running with
        | true => exact .inl rfl
        | false =>
          refine .inr (Eq.symm (Bool.not_eq_true _ ▸ ?_))
          exact fun hbefore => hne (hstopped hbefore hafter)
      obtain ⟨hon, hoff⟩ := keeps_doWork.post rfl hwork hworld hkept
      rcases hreplaced with ⟨h, h'⟩ | ⟨h, h'⟩
      · exact absurd (hon h) (by simp [h'])
      · exact absurd (hoff h') (by simp [h])
    · intro result hping hzero hone
      -- Of the classified ends, only a ping that was not started is a failure.
      obtain rfl | rfl | rfl := hclassified result hping
      · rw [hping] at hserver hrunning
        exact ⟨⟨tr, hwork, himpl, hserver⟩, hrunning,
          status_doWork.post rfl hwork hworld hrunning⟩
      · exact absurd rfl hzero
      · exact absurd rfl hone

/-- In every run of a controller on its host, the calls in which a ping that did not
    work does not count as a stopped server are those in which the ping of the server
    could not be started, or has exited with 0 or 1. -/
theorem faithful_iff {calls : List HostCall} (h : HostRun plus config calls s files) :
    ∀ c ∈ calls,
      (Faithful plus config c ↔ ∀ result ∈ serverPing config c.events, Classified result) := by
  induction h with
  | construct => exact fun _ hc => absurd hc List.not_mem_nil
  | call _ hrun hfiles ih => exact List.forall_mem_cons.2 ⟨faithful_call_iff hrun hfiles, ih⟩

/-- A host on which it is `now`, and all processes end with `result`. Nobody uses the
    force files. -/
def hostHandler (now : Int) (result : ProcessResult) : Handler HostOp.Ans Unit
  | .interface .now, _ => (now, ())
  | .interface (.pingHost _), _ => (.kFailed, ())
  | .interface (.log _ _), _ => ((), ())
  | .interface .stopExecution, _ => (false, ())
  | .interface (.checkFileExists _), _ => (false, ())
  | .interface (.createEmptyFile _), _ => (true, ())
  | .interface (.removeFile _), _ => (true, ())
  | .interface (.createDirectory _), _ => (true, ())
  | .interface (.sendMagicPacket _), _ => (true, ())
  | .interface (.sendShutdownCommand _ _), _ => (true, ())
  | .process .blockSignals, _ => ([], ())
  | .process (.system _), _ => (result, ())
  | .process .strerror, _ => ("", ())
  | .process (.restoreSignals _), _ => ((), ())
  | .process (.log _ _), _ => ((), ())

/-- The files after events on a host. -/
def hostReplay (files : Files) (events : HostTrace) : Files :=
  events.foldl (fun files e =>
    match e with
    | ⟨.interface op, x⟩ => affect ⟨op, x⟩ files
    | ⟨.process _, _⟩ => files) files

theorem evolves_hostReplay (files : Files) (events : HostTrace) :
    Evolves (HostWorld config) files events (hostReplay files events) := by
  induction events generalizing files with
  | nil => exact .nil files
  | cons e events ih =>
    obtain ⟨_ | _, x⟩ := e
    · exact .cons rfl (ih _)
    · exact .cons rfl (ih files)

/-- The construction on such a host, without any files. -/
def hostConstruct : Execution HostOp.Ans ServerController Unit :=
  exec (hostHandler 0 .notStarted) ((construct testConfig).interpret onHost) ()

/-- A call on such a host. -/
def hostCall (s : ServerController) (files : Files) (now : Int) (result : ProcessResult) :
    HostCall :=
  let r := exec (hostHandler now result) ((doWork exactPlus testConfig s).interpret onHost) ()
  ⟨s, files, r.trace, r.result, hostReplay files r.trace⟩

theorem hostRun_construct : HostRun exactPlus testConfig [] hostConstruct.result
    (hostReplay (fun _ => false) hostConstruct.trace) :=
  .construct (exec_runs _ _ _) (evolves_hostReplay _ _)

theorem hostRun_call {calls : List HostCall} (h : HostRun exactPlus testConfig calls s files)
    (now : Int) (result : ProcessResult) :
    HostRun exactPlus testConfig (hostCall s files now result :: calls)
      (hostCall s files now result).after (hostCall s files now result).files' :=
  .call h (exec_runs _ _ _) (evolves_hostReplay _ _)

/-- The call in which a server, up to then running, does not answer. -/
theorem faithful_noReply :
    let start := hostReplay (fun _ => false) hostConstruct.trace
    let first := hostCall hostConstruct.result start 5000000000 (.exited 0)
    let second := hostCall first.after first.files' 10000000000 (.exited 1)
    second.before.running = true ∧ second.after.running = false ∧
      Faithful exactPlus testConfig second := by
  intro start first second
  have hrun := hostRun_call (hostRun_call hostRun_construct 5000000000 (.exited 0))
    10000000000 (.exited 1)
  refine ⟨by decide +zetaReduce, by decide +zetaReduce, ?_⟩
  exact (faithful_iff hrun second List.mem_cons_self).2 (by decide +zetaReduce)

/-- A running server cannot be pinged, as its name is not resolved: `ping` exits with 2.
    The server is recorded as stopped, and `off` replaces `on`. -/
theorem not_faithful_unresolved :
    let start := hostReplay (fun _ => false) hostConstruct.trace
    let first := hostCall hostConstruct.result start 5000000000 (.exited 0)
    let second := hostCall first.after first.files' 10000000000 (.exited 2)
    HostRun exactPlus testConfig [second, first] second.after second.files' ∧
      serverPing testConfig second.events = some (.exited 2) ∧
      second.before.running = true ∧ second.after.running = false ∧
      Signalled testConfig true second.files ∧ Signalled testConfig false second.files' ∧
      ¬Faithful exactPlus testConfig second := by
  intro start first second
  have hping : serverPing testConfig second.events = some (.exited 2) := by decide +zetaReduce
  have hbefore : second.before.running = true := by decide +zetaReduce
  have hafter : second.after.running = false := by decide +zetaReduce
  refine ⟨?_, hping, hbefore, hafter, ?_, ?_, ?_⟩
  · exact hostRun_call (hostRun_call hostRun_construct 5000000000 (.exited 0))
      10000000000 (.exited 2)
  · exact funext (by decide +zetaReduce)
  · exact funext (by decide +zetaReduce)
  · intro h
    exact absurd (hping.symm.trans (h.stopped hbefore hafter)) (by decide)

end Hostcontrold
