import Hostcontrold.Controller.StatusFiles

/-!
# Failed file operations

The signalling of a state ignores whether its file operations succeed, and the
recorded state changes anyway. A later call only compares the answer of the
server with the recorded state: if they agree, the files are not looked at. So a
failed operation leaves the status files wrong until the server changes its state
again (`not_repaired`).

A call in which all file operations succeed shows the answer of the server if and
only if the answer is a change, or the status files agree with the recorded state
already (`repaired_iff`), as they do if no file operation failed in the last
change.
-/

namespace Hostcontrold.ServerController

open Interaction Policy

variable (config : ServerMachineConfig) in
/-- The construction, or the call after it, in which the answer of the server last
    changed. -/
def lastChange (construction : Trace) : List Trace → Trace
  | [] => construction
  | tr :: trs =>
    if lastAnswer config (tr :: trs) = lastAnswer config trs then lastChange construction trs
    else tr

variable {plus : Int → Int → Int} {config : ServerMachineConfig} {tr past : Trace}
  {s s' : ServerController} {process : Option Process} {p : Process} {files files' : Files}
  {state : Bool}

/-- The effect on the status files of a call in which all file operations succeed. -/
theorem status_of_succeeded (hrun : Runs (doWork plus config s) tr s')
    (hfiles : Evolves (StatusWorld config) files tr files') (hok : ∀ e ∈ tr, failed e = false) :
    status config files' = changed (status config files) s.running s'.running :=
  (@reliable_doWork _ _ _ (fun _ => True) _ trivial fun _ _ _ => trivial).post rfl hrun
    (reliable_of_succeeded hfiles hok)

/-- If no file operation of the last change failed, the status files show the
    recorded state. -/
theorem Life.signalled_of_lastChange
    (h : Life (StatusWorld config) plus config process files past) :
    ∀ p ∈ process, (∀ e ∈ lastChange config p.construction p.calls, failed e = false) →
      Signalled config p.controller.running files := by
  induction h with
  | boot | constructKilled | callKilled => exact fun _ hp => nomatch hp
  | others _ hfiles ih => exact fun p hp hok => hfiles.trans (ih p hp hok)
  | construct _ hrun hfiles =>
    rintro p ⟨⟩ hok
    exact triple_construct.post trivial hrun (reliable_of_succeeded hfiles hok)
  | call hlife hrun hfiles ih =>
    rintro p ⟨⟩ hok
    have hbefore := hlife.running _ rfl
    have hafter := (call_of_runs hrun).running hbefore
    rw [lastChange, ← hafter, ← hbefore] at hok
    split_ifs at hok with hsame
    · rw [Signalled, hsame]
      exact (status_doWork.post rfl hrun hfiles hsame).trans (ih _ rfl hok)
    · rw [Signalled, status_of_succeeded hrun hfiles hok, changed, if_neg (Ne.symm hsame)]

/-- A conclusive answer is recorded. -/
theorem Call.running_of_conclusive (h : Call plus config s tr s')
    (hping : conclusive (observe config tr).server = some state) : s'.running = state := by
  obtain ⟨rfl, -⟩ := h.observed
  by_cases ht : Throttled plus config s (reading tr)
  · obtain ⟨-, now, rfl⟩ := h.of_throttled ht
    cases hping
  · rw [next_of_not_throttled ht]
    rcases hs : (observe config tr).server with _ | _ | _ | _ <;>
      simp_all [conclusive, recorded]

/-- In every history, for every call with a conclusive answer in which all file
    operations succeed: the status files show the answer if and only if it differs
    from the recorded state, or they showed the recorded state before. This they
    did if no file operation of the last change failed. -/
theorem repaired_iff (h : Life (StatusWorld config) plus config (some p) files past)
    (hrun : Runs (doWork plus config p.controller) tr s')
    (hfiles : Evolves (StatusWorld config) files tr files') (hok : ∀ e ∈ tr, failed e = false)
    (hping : conclusive (observe config tr).server = some state) :
    (Signalled config state files' ↔
      p.controller.running ≠ state ∨ Signalled config p.controller.running files) ∧
    ((∀ e ∈ lastChange config p.construction p.calls, failed e = false) →
      Signalled config p.controller.running files) := by
  refine ⟨?_, h.signalled_of_lastChange p rfl⟩
  obtain rfl := (call_of_runs hrun).running_of_conclusive hping
  rw [Signalled, status_of_succeeded hrun hfiles hok, changed]
  split_ifs with hsame
  · rw [← hsame]
    exact ⟨.inr, fun h => h.resolve_left fun hne => hne rfl⟩
  · exact iff_of_true rfl (.inl hsame)

/-- The call in which the server of the unit tests is first found running, and
    creating the file `on` fails. -/
def firstFailed : Inputs :=
  { Inputs.calm 5000000000 .kHostActive .kFailed with file := fun i => i ≠ 0 }

/-- After a failed creation no status file is left; the next change of the state
    repairs this. -/
theorem repaired_iff_changed :
    let start := execute testConfig (.calm 0 .kHostActive .kFailed) (construct testConfig)
    let first := execute testConfig firstFailed (doWork exactPlus testConfig start.result)
    let second := execute testConfig (.calm 10000000000 .kHostInactive .kFailed)
      (doWork exactPlus testConfig first.result)
    let files := replay (replay (fun _ => false) start.trace) first.trace
    (∀ state, status testConfig files state = false) ∧
      Signalled testConfig false (replay files second.trace) := by
  intro start first second files
  have hstart : Life (StatusWorld testConfig) exactPlus testConfig
      (some ⟨start.trace, [], start.result⟩) _ _ :=
    .construct (.boot fun _ => false) (execute_runs _ _ _) (evolves_replay _)
  have hfirst : Life (StatusWorld testConfig) exactPlus testConfig
      (some ⟨start.trace, [first.trace], first.result⟩) files _ :=
    .call hstart (execute_runs _ _ _) (evolves_replay _)
  exact ⟨by decide +zetaReduce, (repaired_iff hfirst (execute_runs _ _ _) (evolves_replay _)
    (by decide +zetaReduce) (by decide +zetaReduce)).1.2 (.inl (by decide +zetaReduce))⟩

/-- After a failed creation, the server is found running once more: all file
    operations of this call succeed, as there are none, and no status file exists. -/
theorem not_repaired :
    let start := execute testConfig (.calm 0 .kHostActive .kFailed) (construct testConfig)
    let first := execute testConfig firstFailed (doWork exactPlus testConfig start.result)
    let second := execute testConfig (.calm 10000000000 .kHostActive .kFailed)
      (doWork exactPlus testConfig first.result)
    let files := replay (replay (fun _ => false) start.trace) first.trace
    Life (StatusWorld testConfig) exactPlus testConfig
        (some ⟨start.trace, [second.trace, first.trace], second.result⟩)
        (replay files second.trace) (start.trace ++ first.trace ++ second.trace) ∧
      (∀ e ∈ second.trace, failed e = false) ∧
      conclusive (observe testConfig second.trace).server = some true ∧
      ∀ state, status testConfig (replay files second.trace) state = false := by
  intro start first second files
  refine ⟨?_, by decide +zetaReduce, by decide +zetaReduce, by decide +zetaReduce⟩
  have hstart : Life (StatusWorld testConfig) exactPlus testConfig
      (some ⟨start.trace, [], start.result⟩) _ start.trace :=
    .construct (.boot fun _ => false) (execute_runs _ _ _) (evolves_replay _)
  have hfirst : Life (StatusWorld testConfig) exactPlus testConfig
      (some ⟨start.trace, [first.trace], first.result⟩) files (start.trace ++ first.trace) :=
    .call hstart (execute_runs _ _ _) (evolves_replay _)
  exact .call hfirst (execute_runs _ _ _) (evolves_replay _)

end Hostcontrold.ServerController
