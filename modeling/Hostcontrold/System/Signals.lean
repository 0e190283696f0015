import Hostcontrold.Interaction.Guard
import Hostcontrold.System.Operations

/-!
# Signals

While a command is run, all signals are blocked. They are restored afterwards, whatever the
command did: at every event of every run, the signals blocked are all of them if a command
is run, and otherwise those that were blocked when the daemon was started
(`daemon_signals`). So a stop signal is not lost to a command, and it is delivered before
anything else is done.
-/

namespace Hostcontrold

open Interaction ServerController

variable {plus : Int → Int → Int} {turns : Nat} {tr tr' : SystemTrace} {outcome : Outcome}
  {e : Event SystemOp.Ans}

variable (full : SignalSet)

/-- Which signals are blocked; `full` are all that can be. -/
def SignalWorld : World SystemOp.Ans SignalSet := fun blocked e blocked' =>
  match e with
  | ⟨.process .blockSignals, old⟩ => old = blocked ∧ blocked' = full
  | ⟨.process (.restoreSignals old), _⟩ => blocked' = old
  | _ => blocked' = blocked

/-- Commands are run with all signals blocked, and everything else happens with the signals
    blocked that were blocked at the start. -/
def SignalGuard (initial : SignalSet) (e : Event SystemOp.Ans) (blocked : SignalSet) : Prop :=
  match e.op with
  | .process (.system _) => blocked = full
  | .process (.restoreSignals _) => blocked = full
  | _ => blocked = initial

variable {full} {initial blocked : SignalSet}

/-- An operation that is not about signals. -/
def Unsignalled : ProcessOp → Prop
  | .strerror | .log _ _ => True
  | _ => False

theorem guarded_unsignalled {α : Type} {p : ProcessAction α} (hp : p.Only Unsignalled) :
    Guarded (fun w e w' => SignalWorld full w (e.embed SystemOp.process) w')
      (fun e w => SignalGuard full initial (e.embed SystemOp.process) w) (· = initial) p
      fun _ => (· = initial) := by
  refine Guarded.of_only hp ?_ ?_
  · rintro ⟨op, x⟩ w hop hw
    cases op with
    | strerror | log => exact hw
    | blockSignals | restoreSignals | system => cases hop
  · rintro ⟨op, x⟩ w w' hop hw hstep
    cases op with
    | strerror | log => exact Eq.trans hstep hw
    | blockSignals | restoreSignals | system => cases hop

/-- A command blocks the signals, and restores them. -/
theorem guarded_command (command : String) :
    Guarded (fun w e w' => SignalWorld full w (e.embed SystemOp.process) w')
      (fun e w => SignalGuard full initial (e.embed SystemOp.process) w) (· = initial)
      (Exec.command command) fun _ => (· = initial) := by
  have hblock := @Guarded.perform _ _ _ (fun w e w' => SignalWorld full w (e.embed .process) w')
    (fun e w => SignalGuard full initial (e.embed .process) w) (· = initial) ProcessOp.blockSignals
    (fun old w => old = initial ∧ w = full) (fun _ _ hw => hw)
    fun w old w' hw hstep => ⟨hstep.1.trans hw, hstep.2⟩
  refine hblock.bind fun old => ?_
  have hsystem := @Guarded.perform _ _ _ (fun w e w' => SignalWorld full w (e.embed .process) w')
    (fun e w => SignalGuard full initial (e.embed .process) w) (fun w => old = initial ∧ w = full)
    (ProcessOp.system (Exec.shellCommand command)) (fun _ w => old = initial ∧ w = full)
    (fun _ _ hw => hw.2) fun w _ w' hw hstep => ⟨hw.1, Eq.trans hstep hw.2⟩
  refine hsystem.bind fun result => ?_
  have hrestore := @Guarded.perform _ _ _ (fun w e w' => SignalWorld full w (e.embed .process) w')
    (fun e w => SignalGuard full initial (e.embed .process) w) (fun w => old = initial ∧ w = full)
    (ProcessOp.restoreSignals old) (fun _ => (· = initial))
    (fun _ _ hw => hw.2) fun w _ w' hw hstep => Eq.trans hstep hw.1
  exact hrestore.bind fun _ => Guarded.pure fun _ hw => hw

/-- An operation that runs no process. -/
def Processless : SystemOp → Prop
  | .process _ => False
  | _ => True

theorem guarded_processless {α : Type} {p : SystemAction α} (hp : p.Only Processless) :
    Guarded (SignalWorld full) (SignalGuard full initial) (· = initial) p
      fun _ => (· = initial) := by
  refine Guarded.of_only hp ?_ ?_
  · rintro ⟨op, x⟩ w hop hw
    cases op with
    | process => cases hop
    | _ => exact hw
  · rintro ⟨op, x⟩ w w' hop hw hstep
    cases op with
    | process => cases hop
    | _ => exact Eq.trans hstep hw

theorem guarded_signals (op : MainOp) : Guarded (SignalWorld full) (SignalGuard full initial)
    (· = initial) (deployMain op) fun _ => (· = initial) := by
  cases op with
  | controller i op =>
    cases op with
    | pingHost ip =>
      refine Guarded.embed ((guarded_command _).bind fun ret => guarded_unsignalled ?_)
      split_ifs
      · exact ⟨trivial, fun _ => ⟨trivial, fun _ => trivial⟩⟩
      · trivial
      · trivial
    | sendShutdownCommand ip sshUser =>
      refine Guarded.embed ((guarded_command _).bind fun ret => guarded_unsignalled ?_)
      split_ifs
      · exact ⟨trivial, fun _ => ⟨trivial, fun _ => trivial⟩⟩
      · exact ⟨trivial, fun _ => trivial⟩
      · exact ⟨trivial, fun _ => trivial⟩
    | checkFileExists | createEmptyFile | removeFile | createDirectory | sendMagicPacket =>
      exact guarded_processless (.embed _ ((only_true _).mono fun _ _ => trivial))
    | now | stopExecution | log =>
      exact guarded_processless ((only_perform_iff _).2 trivial)
  | _ => exact guarded_processless ((only_perform_iff _).2 trivial)

/-- In every run of the daemon, at every event: a command is run with all signals blocked,
    and everything else happens with the signals blocked that were blocked at the start. -/
theorem daemon_signals (h : Runs (daemon plus turns) (tr ++ e :: tr') outcome)
    (hM : Evolves (SignalWorld full) initial tr blocked) : SignalGuard full initial e blocked :=
  (Guarded.interpret (only_true _) fun op _ => guarded_signals op).guard rfl h hM

/-- A calm system with signals. -/
def signalHandler (full : SignalSet) : Handler SystemOp.Ans SignalSet
  | .process .blockSignals, blocked => (blocked, full)
  | .process (.restoreSignals old), _ => ((), old)
  | op, blocked => (calmExample op, blocked)

theorem signalWorld_handler {blocked' : SignalSet}
    (h : World.ofHandler (signalHandler full) blocked e blocked') :
    SignalWorld full blocked e blocked' := by
  obtain ⟨op, x⟩ := e
  obtain ⟨rfl, rfl⟩ := Prod.mk.inj (show signalHandler full op blocked = (x, blocked') from h)
  cases op with
  | process op =>
    cases op with
    | blockSignals => exact ⟨rfl, rfl⟩
    | _ => rfl
  | _ => rfl

/-- The operation runs a command. -/
def isCommand : SystemOp → Bool
  | .process (.system _) => true
  | _ => false

/-- A command is run with all signals blocked; only one of them was blocked at the start. -/
theorem daemon_signals_example : ∃ tr e tr' blocked, isCommand e.op = true ∧
    (exec (signalHandler [1, 2, 3, 15]) (daemon exactPlus 1) [2]).trace = tr ++ e :: tr' ∧
    Evolves (SignalWorld [1, 2, 3, 15]) [2] tr blocked ∧
    SignalGuard [1, 2, 3, 15] [2] e blocked := by
  have hany : (exec (signalHandler [1, 2, 3, 15]) (daemon exactPlus 1) [2]).trace.any
      (fun e => isCommand e.op) = true := by decide
  obtain ⟨e, hmem, hcommand⟩ := List.any_eq_true.1 hany
  obtain ⟨tr, tr', htr⟩ := List.append_of_mem hmem
  have hM := (evolves_after htr).mono fun _ _ _ => signalWorld_handler
  exact ⟨tr, e, tr', _, hcommand, htr, hM, daemon_signals (htr ▸ exec_runs _ _ _) hM⟩

end Hostcontrold
