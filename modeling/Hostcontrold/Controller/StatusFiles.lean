import Hostcontrold.Controller.Files
import Hostcontrold.Controller.Policy

/-!
# The status files tell the observed state

The process of a controller may be killed at any point and started again, by a
new construction. `Life` describes such a history, with the files it leaves
behind: the process runs a whole action, or is killed after some of its events;
and other files may change at any time.

If the file operations succeed, exactly one of the two status files exists after
the construction and after every call, the one of the latest conclusive answer of
the server; within a call, at least one of them exists (`status_files`). This
does not depend on what a killed process left behind.
-/

namespace Hostcontrold.ServerController

open Interaction Policy

/-- A process running a controller: its construction, its calls (the latest
    first), and the state reached. -/
structure Process where
  construction : Trace
  calls : List Trace
  controller : ServerController

variable (M : World Op.Ans Files) (plus : Int → Int → Int) (config : ServerMachineConfig)

/-- The history of a controller: the process running, if any, the files, and the
    events so far. A killed action performs some of its events, perhaps none. -/
inductive Life : Option Process → Files → Trace → Prop
  | boot (files : Files) : Life none files []
  | others {process : Option Process} {files files' : Files} {past : Trace} :
      Life process files past → status config files' = status config files →
      Life process files' past
  | construct {files files' : Files} {past tr : Trace} {s : ServerController} :
      Life none files past → Runs (construct config) tr s → Evolves M files tr files' →
      Life (some ⟨tr, [], s⟩) files' (past ++ tr)
  | constructKilled {files files' : Files} {past tr tr' : Trace} {s : ServerController} :
      Life none files past → Runs (construct config) (tr ++ tr') s → Evolves M files tr files' →
      Life none files' (past ++ tr)
  | call {p : Process} {files files' : Files} {past tr : Trace} {s' : ServerController} :
      Life (some p) files past → Runs (doWork plus config p.controller) tr s' →
      Evolves M files tr files' →
      Life (some ⟨p.construction, tr :: p.calls, s'⟩) files' (past ++ tr)
  | callKilled {p : Process} {files files' : Files} {past tr tr' : Trace} {s' : ServerController} :
      Life (some p) files past → Runs (doWork plus config p.controller) (tr ++ tr') s' →
      Evolves M files tr files' → Life none files' (past ++ tr)

/-- The latest conclusive answer of the server in the effective calls `trs`. -/
def lastAnswer (trs : List Trace) : Bool := up ((trs.filter effective).map (observe config))

variable {M plus config} {tr tr₀ past : Trace} {trs : List Trace} {s s' : ServerController}
  {process : Option Process} {p : Process} {files files' : Files}

/-- The recorded state is the latest conclusive answer. -/
theorem Call.running (h : Call plus config s tr s') (hs : s.running = lastAnswer config trs) :
    s'.running = lastAnswer config (tr :: trs) := by
  obtain ⟨rfl, -⟩ := h.observed
  rw [lastAnswer, List.filter_cons]
  by_cases ht : Throttled plus config s (reading tr)
  · rw [next_of_throttled ht, if_neg fun he => h.effective_iff.1 he ht, hs]
    rfl
  · rw [next_of_not_throttled ht, if_pos (h.effective_iff.2 ht), List.map_cons, ← recorded_up, hs]
    rfl

theorem Life.running (h : Life M plus config process files past) :
    ∀ p ∈ process, p.controller.running = lastAnswer config p.calls := by
  induction h with
  | boot | constructKilled | callKilled => exact fun _ hp => nomatch hp
  | others _ _ ih => exact ih
  | construct _ hrun _ =>
    rintro p ⟨⟩
    rw [(runs_construct hrun).1]
    rfl
  | call _ hrun _ ih =>
    rintro p ⟨⟩
    exact (call_of_runs hrun).running (ih _ rfl)

/-- All operations are permitted. -/
theorem Life.permitted (h : Life M plus config process files past) :
    ∀ e ∈ past, Permitted config e.op := by
  induction h with
  | boot => exact fun _ he => absurd he List.not_mem_nil
  | others _ _ ih => exact ih
  | construct _ hrun _ ih => exact List.forall_mem_append.2 ⟨ih, hrun.only only_construct⟩
  | call _ hrun _ ih => exact List.forall_mem_append.2 ⟨ih, hrun.only only_doWork⟩
  | constructKilled _ hrun _ ih =>
    exact List.forall_mem_append.2
      ⟨ih, (List.forall_mem_append.1 (hrun.only only_construct)).1⟩
  | callKilled _ hrun _ ih =>
    exact List.forall_mem_append.2 ⟨ih, (List.forall_mem_append.1 (hrun.only only_doWork)).1⟩

theorem signalled_changed {state r : Bool} : changed (just state) state r = just r := by
  rw [changed]
  split_ifs with h
  · rw [h]
  · rfl

/-- If the file operations succeed, the status files show the recorded state. -/
theorem Life.signalled (h : Life (ReliableWorld config) plus config process files past) :
    ∀ p ∈ process, Signalled config p.controller.running files := by
  induction h with
  | boot | constructKilled | callKilled => exact fun _ hp => nomatch hp
  | others _ hfiles ih => exact fun p hp => hfiles.trans (ih p hp)
  | construct _ hrun hfiles =>
    rintro p ⟨⟩
    exact triple_construct.post trivial hrun hfiles
  | call _ hrun hfiles ih =>
    rintro p ⟨⟩
    exact ((@reliable_doWork _ _ _ (fun _ => True) _ trivial fun _ _ _ => trivial).post
      (ih _ rfl) hrun hfiles).trans signalled_changed

/-- In every history in which the file operations succeed: after the construction
    and after every call, the status files show the latest conclusive answer of
    the server; at every point within a call, one of them exists; and the force
    files are never created or removed. -/
theorem status_files (h : Life (ReliableWorld config) plus config process files past) :
    (∀ p ∈ process, Signalled config (lastAnswer config p.calls) files) ∧
    (∀ p ∈ process, ∀ tr tr' s' files', Runs (doWork plus config p.controller) (tr ++ tr') s' →
      Evolves (ReliableWorld config) files tr files' →
      ∃ state, status config files' state = true) ∧
    ∀ e ∈ past, ∀ path ∈ writes? e.op, path ≠ config.controlDir ++ kFileKeepOn ∧
      path ≠ config.controlDir ++ kFileKeepOff := by
  refine ⟨?_, ?_, ?_⟩
  · intro p hp
    rw [← h.running p hp]
    exact h.signalled p hp
  · intro p hp tr tr' s' files' hrun hfiles
    exact (@reliable_doWork _ _ _ (fun ψ => ∃ state, ψ state = true) _ ⟨_, just_self _⟩
      fun state _ hψ => ⟨state, hψ⟩).crash (h.signalled p hp) hrun hfiles
  · intro e he path hpath
    obtain ⟨state, rfl⟩ := (h.permitted e he).writes path hpath
    exact statusPath_ne state

/-- A process is killed while it signals a running server: both status files are
    left. The next one starts with a stopped server, whose file is the only one. -/
theorem status_files_killed :
    let start := execute testConfig (.calm 0 .kHostActive .kFailed) (construct testConfig)
    let call := execute testConfig (.calm 5000000000 .kHostActive .kFailed)
      (doWork exactPlus testConfig start.result)
    let left := replay (replay (fun _ => false) start.trace) (call.trace.take 5)
    (∀ state, status testConfig left state = true) ∧
      Signalled testConfig false (replay left start.trace) := by
  intro start call left
  have hstart : Life (ReliableWorld testConfig) exactPlus testConfig
      (some ⟨start.trace, [], start.result⟩) (replay (fun _ => false) start.trace) _ :=
    .construct (.boot _) (execute_runs _ _ _)
      (reliable_of_succeeded (evolves_replay _) (by decide +zetaReduce))
  have hkilled : Life (ReliableWorld testConfig) exactPlus testConfig none left _ :=
    .callKilled hstart (List.take_append_drop 5 call.trace ▸ execute_runs _ _ _)
      (reliable_of_succeeded (evolves_replay _) (by decide +zetaReduce))
  have hrestart : Life (ReliableWorld testConfig) exactPlus testConfig
      (some ⟨start.trace, [], start.result⟩) (replay left start.trace) _ :=
    .construct hkilled (execute_runs _ _ _)
      (reliable_of_succeeded (evolves_replay _) (by decide +zetaReduce))
  exact ⟨by decide +zetaReduce, (status_files hrestart).1 _ rfl⟩

end Hostcontrold.ServerController
