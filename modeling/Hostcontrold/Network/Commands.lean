import Hostcontrold.Interfaces

/-!
# Pings and shutdown commands

A host is pinged, and shut down, by running a command in a shell (`Exec.command`):
`ping`, or `ssh`. The command is run by the library function `system`, which answers
with a *wait status* (`ProcessResult.waitStatus`): a number that encodes how the
process has ended (`ProcessResult`). It is negative if the process could not be
started, a multiple of 256 if it has exited, and below 256 if it was killed.

The two users of `Exec.command` read the number in their own way.

* For a ping, every positive number is the answer that the host is inactive
  (`classify`), be it that there was no reply (exit code 1), or that there was no
  ping.
* For a shutdown, 255 is a failure, which is the exit code of `ssh`, but not its
  wait status. So a failure of `ssh` is reported as a success: `ReportsDelivery` holds for
  all ways a process may end, but this one (`reportsDelivery_iff`).
-/

namespace Hostcontrold

open Interaction Program

/-! ## Processes -/

/-- How a process has ended: it could not be started, it has exited with a code, or
    it was killed by a signal, which leaves a status. -/
inductive ProcessResult
  | notStarted
  | exited (code : UInt8)
  | killed (status : UInt8) (nonzero : status ≠ 0)
  deriving DecidableEq

/-- The wait status, as returned by `system`. -/
def ProcessResult.waitStatus : ProcessResult → Int
  | .notStarted => -1
  | .exited code => code.toNat * 256
  | .killed status _ => status.toNat

/-- A set of signals. -/
abbrev SignalSet := List Nat

/-- The operations around a process. All signals are blocked, and the old set is
    restored. -/
inductive ProcessOp
  | blockSignals
  | restoreSignals (old : SignalSet)
  | system (command : String)
  | strerror
  | log (priority : LogPriority) (message : String)
  deriving DecidableEq, Repr

abbrev ProcessOp.Ans : ProcessOp → Type
  | .blockSignals => SignalSet
  | .system _ => ProcessResult
  | .strerror => String
  | _ => Unit

abbrev ProcessAction := Program ProcessOp.Ans

/-- The C string of a string: up to the first NUL. -/
def cString (s : String) : String := .ofList (s.toList.takeWhile (·.toNat ≠ 0))

/-- What the shell is given: the command without its output. -/
def Exec.shellCommand (command : String) : String := cString (command ++ " > /dev/null 2>&1")

/-- Runs a command, with all signals blocked. -/
def Exec.command (command : String) : ProcessAction Int := do
  let old ← perform ProcessOp.blockSignals
  let result ← perform (ProcessOp.system (shellCommand command))
  perform (ProcessOp.restoreSignals old)
  return result.waitStatus

/-- The message for a command that could not be started. -/
def notExecuted (command error : String) (ret : Int) : String :=
  "failed to execute command: '" ++ cString command ++ "' because of: " ++ error ++
    " (" ++ toString ret ++ ")"

namespace Pinger

def pingCommand (ip : String) : String := "ping -c1 -s1 -q " ++ ip

def pingHost (ip : String) : ProcessAction PingResult := do
  let ret ← Exec.command (pingCommand ip)
  if ret < 0 then
    let error ← perform ProcessOp.strerror
    perform (ProcessOp.log .err (notExecuted (pingCommand ip) error ret))
    return .kFailed
  else if ret > 0 then return .kHostInactive
  else return .kHostActive

end Pinger

namespace SshShutdown

def remoteCommand : String := "sudo shutdown -h now"

def shutdownCommand (ip sshUser : String) : String :=
  "ssh -o ConnectTimeout=1 -o StrictHostKeyChecking=no " ++ sshUser ++ "@" ++ ip ++ " '" ++
    remoteCommand ++ "'"

def sendShutdownCommand (ip sshUser : String) : ProcessAction Bool := do
  let ret ← Exec.command (shutdownCommand ip sshUser)
  if ret < 0 then
    let error ← perform ProcessOp.strerror
    perform (ProcessOp.log .err (notExecuted (shutdownCommand ip sshUser) error ret))
    return false
  else if ret = 255 then
    perform (ProcessOp.log .err
      ("failed to executed remote command: '" ++ remoteCommand ++ "' via SSH"))
    return false
  else
    perform (ProcessOp.log .info ("shutting down: " ++ cString ip))
    return true

end SshShutdown

/-! ## Runs -/

/-- The process of an event, if it is one: the command, and how it has ended. -/
def system? : Event ProcessOp.Ans → Option (String × ProcessResult)
  | ⟨.system command, result⟩ => some (command, result)
  | _ => none

/-- The processes run, in order. -/
def processes (tr : List (Event ProcessOp.Ans)) : List (String × ProcessResult) :=
  tr.filterMap system?

namespace ProcessResult

variable {result : ProcessResult}

theorem waitStatus_neg_iff : result.waitStatus < 0 ↔ result = .notStarted := by
  cases result with
  | notStarted => decide
  | exited code => exact iff_of_false (by rw [waitStatus]; omega) (by simp)
  | killed status nonzero => exact iff_of_false (by rw [waitStatus]; omega) (by simp)

theorem waitStatus_eq_zero_iff : result.waitStatus = 0 ↔ result = .exited 0 := by
  cases result with
  | notStarted => decide
  | exited code =>
    rw [waitStatus, exited.injEq, ← UInt8.toNat_inj, UInt8.toNat_zero]
    omega
  | killed status nonzero => simpa [waitStatus, ← UInt8.toNat_inj] using nonzero

/-- No exit code has the wait status 255. -/
theorem waitStatus_exited_ne (code : UInt8) : (exited code).waitStatus ≠ 255 := by
  rw [waitStatus]
  omega

end ProcessResult

variable {tr : List (Event ProcessOp.Ans)} {ip sshUser command : String}

/-- A command is run once, with the signals blocked. -/
theorem Exec.runs_command_iff {ret : Int} : Runs (Exec.command command) tr ret ↔
    ∃ old result, ret = result.waitStatus ∧ tr = [⟨.blockSignals, old⟩,
      ⟨.system (shellCommand command), result⟩, ⟨.restoreSignals old, ()⟩] := by
  constructor
  · intro h
    obtain ⟨old, _, rfl, hsystem⟩ := runs_perform_bind_iff.1 h
    obtain ⟨result, _, rfl, hrestore⟩ := runs_perform_bind_iff.1 hsystem
    obtain ⟨_, _, rfl, hpure⟩ := runs_perform_bind_iff.1 hrestore
    obtain ⟨rfl, rfl⟩ := runs_pure_iff.1 hpure
    exact ⟨old, result, rfl, rfl⟩
  · rintro ⟨old, result, rfl, rfl⟩
    exact .call (.call (.call (.pure _)))

/-! ## Pings -/

/-- The answer to a ping, from how the process has ended. -/
def classify : ProcessResult → PingResult
  | .notStarted => .kFailed
  | .exited code => if code = 0 then .kHostActive else .kHostInactive
  | .killed _ _ => .kHostInactive

/-- A host is pinged by one process, which determines the answer. -/
theorem Pinger.runs_pingHost {answer : PingResult} (h : Runs (pingHost ip) tr answer) :
    ∃ result, answer = classify result ∧
      processes tr = [(Exec.shellCommand (pingCommand ip), result)] := by
  obtain ⟨_, ret, _, hcommand, hrest, rfl⟩ := runs_bind_iff.1 h
  obtain ⟨old, result, rfl, rfl⟩ := Exec.runs_command_iff.1 hcommand
  refine ⟨result, ?_⟩
  -- A positive wait status says that something else than exit code 0 has happened.
  split_ifs at hrest with hneg hpos
  · obtain ⟨_, _, rfl, hlog⟩ := runs_perform_bind_iff.1 hrest
    obtain ⟨_, _, rfl, hpure⟩ := runs_perform_bind_iff.1 hlog
    obtain ⟨rfl, rfl⟩ := runs_pure_iff.1 hpure
    obtain rfl := ProcessResult.waitStatus_neg_iff.1 hneg
    exact ⟨rfl, rfl⟩
  · obtain ⟨rfl, rfl⟩ := runs_pure_iff.1 hrest
    refine ⟨?_, rfl⟩
    cases result with
    | notStarted => exact absurd hpos (by decide)
    | exited code =>
      rw [classify, if_neg]
      rintro rfl
      exact absurd hpos (by decide)
    | killed => rfl
  · obtain ⟨rfl, rfl⟩ := runs_pure_iff.1 hrest
    have hzero : result.waitStatus = 0 := by omega
    obtain rfl := ProcessResult.waitStatus_eq_zero_iff.1 hzero
    exact ⟨rfl, rfl⟩

/-! ## Shutdown commands -/

/-- A shutdown has been announced in the log. -/
def Announced (tr : List (Event ProcessOp.Ans)) : Prop :=
  ∃ priority rest, ⟨.log priority ("shutting down" ++ rest), ()⟩ ∈ tr

/-- For a process that ends with `result`, the answer tells whether `ssh` could deliver
    the command. -/
structure ReportsDelivery (ip sshUser : String) (result : ProcessResult) : Prop where
  failed : result = .notStarted ∨ result = .exited 255 → ∀ tr answer,
    Runs (SshShutdown.sendShutdownCommand ip sshUser) tr answer →
    processes tr = [(Exec.shellCommand (SshShutdown.shutdownCommand ip sshUser), result)] →
    answer = false ∧ ¬Announced tr
  delivered : ∀ code, result = .exited code → code ≠ 255 → ∀ tr answer,
    Runs (SshShutdown.sendShutdownCommand ip sshUser) tr answer →
    processes tr = [(Exec.shellCommand (SshShutdown.shutdownCommand ip sshUser), result)] →
    answer = true

/-- The events of a shutdown after its process has ended. -/
inductive SshShutdown.After (ip sshUser : String) (result : ProcessResult) :
    List (Event ProcessOp.Ans) → Bool → Prop
  | notExecuted {error : String} : result.waitStatus < 0 → After ip sshUser result
      [⟨.strerror, error⟩, ⟨.log .err
        (notExecuted (shutdownCommand ip sshUser) error result.waitStatus), ()⟩] false
  | failed : result.waitStatus = 255 → After ip sshUser result
      [⟨.log .err ("failed to executed remote command: '" ++ remoteCommand ++ "' via SSH"), ()⟩]
      false
  | sent : 0 ≤ result.waitStatus → result.waitStatus ≠ 255 →
      After ip sshUser result [⟨.log .info ("shutting down: " ++ cString ip), ()⟩] true

/-- A shutdown is sent by one process. -/
theorem SshShutdown.runs_sendShutdownCommand_iff {answer : Bool} :
    Runs (sendShutdownCommand ip sshUser) tr answer ↔ ∃ old result tr', tr = [⟨.blockSignals, old⟩,
      ⟨.system (Exec.shellCommand (shutdownCommand ip sshUser)), result⟩,
      ⟨.restoreSignals old, ()⟩] ++ tr' ∧ After ip sshUser result tr' answer := by
  constructor
  · intro h
    obtain ⟨_, ret, _, hcommand, hrest, rfl⟩ := runs_bind_iff.1 h
    obtain ⟨old, result, rfl, rfl⟩ := Exec.runs_command_iff.1 hcommand
    refine ⟨old, result, _, rfl, ?_⟩
    -- The wait status is compared with 255, not the exit code.
    split_ifs at hrest with hneg heq
    · obtain ⟨_, _, rfl, hlog⟩ := runs_perform_bind_iff.1 hrest
      obtain ⟨_, _, rfl, hpure⟩ := runs_perform_bind_iff.1 hlog
      obtain ⟨rfl, rfl⟩ := runs_pure_iff.1 hpure
      exact .notExecuted hneg
    · obtain ⟨_, _, rfl, hpure⟩ := runs_perform_bind_iff.1 hrest
      obtain ⟨rfl, rfl⟩ := runs_pure_iff.1 hpure
      exact .failed heq
    · obtain ⟨_, _, rfl, hpure⟩ := runs_perform_bind_iff.1 hrest
      obtain ⟨rfl, rfl⟩ := runs_pure_iff.1 hpure
      exact .sent (Int.not_lt.1 hneg) heq
  · rintro ⟨old, result, tr', rfl, hafter⟩
    refine (Exec.runs_command_iff.2 ⟨old, result, rfl, rfl⟩).bind ?_
    cases hafter with
    | notExecuted hneg =>
      rw [if_pos hneg]
      exact .call (.call (.pure _))
    | failed heq =>
      rw [if_neg (by omega), if_pos heq]
      exact .call (.pure _)
    | sent hnonneg hne =>
      rw [if_neg (Int.not_lt.2 hnonneg), if_neg hne]
      exact .call (.pure _)

/-- So there is one process, whatever becomes of it. -/
theorem SshShutdown.exists_process {answer : Bool}
    (h : Runs (sendShutdownCommand ip sshUser) tr answer) : ∃ result,
      processes tr = [(Exec.shellCommand (shutdownCommand ip sshUser), result)] := by
  obtain ⟨_, result, _, rfl, hafter⟩ := runs_sendShutdownCommand_iff.1 h
  refine ⟨result, ?_⟩
  cases hafter <;> rfl

theorem SshShutdown.after_of_processes {result : ProcessResult} {answer : Bool}
    (h : Runs (sendShutdownCommand ip sshUser) tr answer)
    (hprocess : processes tr = [(Exec.shellCommand (shutdownCommand ip sshUser), result)]) :
    ∃ tr', After ip sshUser result tr' answer ∧ (Announced tr → Announced tr') := by
  obtain ⟨old, result', tr', rfl, hafter⟩ := runs_sendShutdownCommand_iff.1 h
  obtain ⟨hcommand, -⟩ := List.cons_eq_cons.1 hprocess
  obtain ⟨-, rfl⟩ := Prod.mk.inj hcommand
  exact ⟨tr', hafter, fun ⟨priority, rest, hmem⟩ => ⟨priority, rest, by simpa using hmem⟩⟩

/-- The message of an error is no announcement. -/
theorem shutting_ne_notExecuted (rest command error : String) (ret : Int) :
    "shutting down" ++ rest ≠ notExecuted command error ret := by
  delta notExecuted
  intro h
  have hhead := congrArg (·.toList.head?) h
  simp at hhead

theorem not_announced_notExecuted {error error' : String} {ret : Int} :
    ¬Announced [⟨.strerror, error⟩, ⟨.log .err (notExecuted command error' ret), ()⟩] := by
  rintro ⟨priority, rest, hmem⟩
  rcases List.mem_pair.1 hmem with h | h
  · cases (Event.mk.inj h).1
  · exact shutting_ne_notExecuted _ _ _ _ (ProcessOp.log.inj (Event.mk.inj h).1).2

/-- If the host cannot be reached, `ssh` exits with 255, and the shutdown is announced: the
    wait status is not 255. -/
theorem SshShutdown.exists_runs_unreachable (ip sshUser : String) :
    ∃ tr, Runs (sendShutdownCommand ip sshUser) tr true ∧
      processes tr = [(Exec.shellCommand (shutdownCommand ip sshUser), .exited 255)] ∧
      ⟨.log .info ("shutting down: " ++ cString ip), ()⟩ ∈ tr :=
  ⟨_, runs_sendShutdownCommand_iff.2
      ⟨[], .exited 255, _, rfl, .sent (by decide) (by decide)⟩,
    rfl, List.mem_append_right _ List.mem_cons_self⟩

theorem not_reportsDelivery_unreachable (ip sshUser : String) :
    ¬ReportsDelivery ip sshUser (.exited 255) := by
  intro h
  obtain ⟨tr, hrun, hprocess, -⟩ := SshShutdown.exists_runs_unreachable ip sshUser
  cases (h.failed (.inr rfl) _ _ hrun hprocess).1

/-- A shutdown that could not be delivered is reported as failed, and one that was
    delivered as sent, if and only if `ssh` does not exit with 255. -/
theorem reportsDelivery_iff (ip sshUser : String) (result : ProcessResult) :
    ReportsDelivery ip sshUser result ↔ result ≠ .exited 255 := by
  constructor
  · rintro h rfl
    exact not_reportsDelivery_unreachable ip sshUser h
  · intro hne
    refine ⟨?_, ?_⟩
    · intro hfailed tr answer h hprocess
      obtain rfl := hfailed.resolve_right hne
      obtain ⟨tr', hafter, hannounced⟩ := SshShutdown.after_of_processes h hprocess
      cases hafter with
      | notExecuted => exact ⟨rfl, fun ha => not_announced_notExecuted (hannounced ha)⟩
      | failed heq => exact absurd heq (by decide)
      | sent hnonneg => exact absurd hnonneg (by decide)
    · rintro code rfl - tr answer h hprocess
      obtain ⟨tr', hafter, -⟩ := SshShutdown.after_of_processes h hprocess
      cases hafter with
      | notExecuted hneg => cases ProcessResult.waitStatus_neg_iff.1 hneg
      | failed heq => exact absurd heq (ProcessResult.waitStatus_exited_ne code)
      | sent => rfl

/-- The host cannot be reached, `ssh` exits with 255, and the shutdown is announced. -/
theorem not_reports_unreachable :
    (∃ tr, Runs (SshShutdown.sendShutdownCommand "192.168.0.6" "clang") tr true ∧
      processes tr = [(Exec.shellCommand (SshShutdown.shutdownCommand "192.168.0.6" "clang"),
        .exited 255)] ∧
      ⟨.log .info "shutting down: 192.168.0.6", ()⟩ ∈ tr) ∧
    ¬ReportsDelivery "192.168.0.6" "clang" (.exited 255) := by
  obtain ⟨tr, hrun, hprocess, hlog⟩ := SshShutdown.exists_runs_unreachable "192.168.0.6" "clang"
  exact ⟨⟨tr, hrun, hprocess, hlog⟩, not_reportsDelivery_unreachable _ _⟩

end Hostcontrold
