import Hostcontrold.Controller.Call

/-!
# The runs of a controller

A controller is constructed, and then called any number of times (`IsRun`). The
answers it gets from its interfaces are arbitrary: the clock may jump, pings may
fail, and so may file operations and commands.

By `IsRun.invariant`, what holds after the construction and is preserved by
calls holds in every run.
-/

namespace Hostcontrold.ServerController

open Interaction

variable (plus : Int → Int → Int) (config : ServerMachineConfig)

/-- The runs of a controller: the events of its construction, those of its calls
    (the latest first), and the state reached. -/
inductive IsRun : Trace → List Trace → ServerController → Prop
  | construct {tr : Trace} {s : ServerController} : Runs (construct config) tr s → IsRun tr [] s
  | call {tr₀ tr : Trace} {trs : List Trace} {s s' : ServerController} :
      IsRun tr₀ trs s → Runs (doWork plus config s) tr s' → IsRun tr₀ (tr :: trs) s'

variable {plus config} {tr tr₀ : Trace} {trs : List Trace} {s s' : ServerController}

/-- The construction signals a stopped server, then reads the clock. -/
theorem runs_construct (h : Runs (construct config) tr s) : s = ⟨false, 0, reading tr⟩ ∧
    ∃ made cleanedOn cleanedOff message created removed,
      tr = [⟨.log .info ("Start controlling host: " ++ config.name), ()⟩,
        ⟨.createDirectory config.controlDir, made⟩,
        ⟨.removeFile (config.controlDir ++ kFileOn), cleanedOn⟩,
        ⟨.removeFile (config.controlDir ++ kFileOff), cleanedOff⟩,
        ⟨.log .info message, ()⟩,
        ⟨.createEmptyFile (config.controlDir ++ statusFile false), created⟩,
        ⟨.removeFile (config.controlDir ++ statusFile true), removed⟩,
        ⟨.now, s.lastClient⟩] := by
  obtain ⟨_, _, rfl, h₁⟩ := runs_perform_bind_iff.1 h
  obtain ⟨made, _, rfl, h₂⟩ := runs_perform_bind_iff.1 h₁
  obtain ⟨cleanedOn, _, rfl, h₃⟩ := runs_perform_bind_iff.1 h₂
  obtain ⟨cleanedOff, _, rfl, h₄⟩ := runs_perform_bind_iff.1 h₃
  obtain ⟨_, _, _, hsignal, h₅, rfl⟩ := runs_bind_iff.1 h₄
  obtain ⟨rfl, ⟨hne, -⟩ | ⟨-, message, created, removed, rfl⟩⟩ := runs_checkAndSignal hsignal
  · cases hne
  obtain ⟨_, _, rfl, h₆⟩ := runs_perform_bind_iff.1 h₅
  obtain ⟨rfl, rfl⟩ := runs_pure_iff.1 h₆
  exact ⟨rfl, made, cleanedOn, cleanedOff, message, created, removed, rfl⟩

theorem commands_construct (h : Runs (construct config) tr s) : commands tr = [] := by
  obtain ⟨-, _, _, _, _, _, _, rfl⟩ := runs_construct h
  rfl

/-- The events determine the state reached. -/
theorem IsRun.unique (h : IsRun plus config tr₀ trs s) (h' : IsRun plus config tr₀ trs s') :
    s' = s := by
  induction h generalizing s' with
  | construct h =>
    obtain ⟨h'⟩ := h'
    rw [(runs_construct h).1, (runs_construct h').1]
  | @call tr trs _ _ _ h ih =>
    obtain _ | ⟨hrun, h'⟩ := h'
    obtain rfl := ih hrun
    rw [← List.append_nil tr] at h'
    exact (h.unique h').2

/-- Every call of a run is made in the state reached by the calls before. -/
theorem IsRun.split {later earlier : List Trace}
    (h : IsRun plus config tr₀ (later ++ tr :: earlier) s) (h' : IsRun plus config tr₀ earlier s') :
    ∃ s₁, Call plus config s' tr s₁ := by
  induction later generalizing s with
  | nil =>
    obtain _ | ⟨hrun, h⟩ := h
    obtain rfl := hrun.unique h'
    exact ⟨_, call_of_runs h⟩
  | cons _ later ih =>
    obtain _ | ⟨hrun, -⟩ := h
    exact ih hrun

/-- An invariant over the calls made so far: it holds after the construction,
    and every call preserves it. -/
theorem IsRun.invariant (h : IsRun plus config tr₀ trs s)
    (I : List Trace → ServerController → Prop) (h₀ : I [] ⟨false, 0, reading tr₀⟩)
    (hI : ∀ trs s tr s', I trs s → Call plus config s tr s' → I (tr :: trs) s') : I trs s := by
  induction h with
  | construct h => exact (runs_construct h).1 ▸ h₀
  | call _ h ih => exact hI _ _ _ _ ih (call_of_runs h)

end Hostcontrold.ServerController
