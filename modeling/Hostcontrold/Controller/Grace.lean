import Hostcontrold.Controller.Inputs

/-!
# The grace window

A server that was needed, or woken, is not shut down for the shutdown timeout,
unless it is forced off. This holds without any assumption on the clock, which
may also be set back between calls: the throttle makes sure that the readings of
the calls that do some work never decrease, and the last time the server was
needed is kept up to date in all branches that may wake it.

`Grace` is the invariant behind it: every reading at which the server was needed
is at or before the two times the controller keeps.
-/

namespace Hostcontrold.ServerController

open Interaction

variable (config : ServerMachineConfig)

/-- A call that shuts the server down, without force files. -/
def ShutsDown (tr : Trace) : Prop :=
  IsShutdown tr ∧ (observe config tr).forceOn = false ∧ (observe config tr).forceOff = false

/-- A call in which the server is woken, or forced on, or, without force files,
    a client answers. -/
def KeepsUp (tr : Trace) : Prop :=
  (∃ mac, .wol mac ∈ commands tr) ∨ (observe config tr).forceOn = true ∨
    (observe config tr).forceOn = false ∧ (observe config tr).forceOff = false ∧
      (observe config tr).client = true

variable {config} {plus : Int → Int → Int} {s s' : ServerController} {tr tr₀ : Trace}
  {trs : List Trace}

theorem KeepsUp.needed (h : KeepsUp config tr) (hcall : Call plus config s tr s') :
    (observe config tr).needed = true := by
  rcases h with ⟨mac, hmac⟩ | hon | ⟨-, hoff, hclient⟩
  · exact needed_of_wol (hcall.mem_commands_iff.1 hmac)
  · simp [Observation.needed, hon]
  · simp [Observation.needed, hoff, hclient]

/-- The readings at which the server was needed do not come after the times the
    controller keeps. -/
def Grace (config : ServerMachineConfig) (trs : List Trace) (s : ServerController) : Prop :=
  ∀ tr ∈ trs, KeepsUp config tr → reading tr ≤ s.lastClient ∧ reading tr ≤ s.lastControl

/-- A call that works does not read a time before the previous one. -/
theorem lastControl_le (hci : 0 ≤ config.controlInterval) {now : Int}
    (ht : ¬Throttled exactPlus config s now) : s.lastControl ≤ now := by
  simp only [Throttled, exactPlus, gt_iff_lt, Int.not_lt] at ht
  omega

theorem Grace.call (hci : 0 ≤ config.controlInterval) (h : Grace config trs s)
    (hcall : Call exactPlus config s tr s') : Grace config (tr :: trs) s' := by
  by_cases ht : Throttled exactPlus config s (reading tr)
  · -- A throttled call changes nothing, and does not need the server.
    obtain ⟨rfl, now, rfl⟩ := hcall.of_throttled ht
    rintro tr' (_ | ⟨_, htr'⟩) hk
    · exact absurd (hk.needed hcall) (by simp [observe_now, Observation.needed])
    · exact h tr' htr' hk
  · have hle := lastControl_le hci ht
    obtain ⟨rfl, -⟩ := hcall.observed
    rw [next_of_not_throttled ht]
    rintro tr' (_ | ⟨_, htr'⟩) hk
    · simp only [hk.needed hcall, if_true]
      exact ⟨Int.le_refl _, Int.le_refl _⟩
    · obtain ⟨hclient, hcontrol⟩ := h tr' htr' hk
      have hnow : reading tr' ≤ (observe config tr).now := Int.le_trans hcontrol hle
      refine ⟨?_, hnow⟩
      dsimp only
      split_ifs
      · exact hnow
      · exact hclient

theorem IsRun.grace (hci : 0 ≤ config.controlInterval) (h : IsRun exactPlus config tr₀ trs s) :
    Grace config trs s :=
  h.invariant (Grace config) (fun _ htr => absurd htr List.not_mem_nil) fun _ _ _ _ =>
    Grace.call hci

/-- Every call issues at most one power command, and a call that shuts the server
    down, without force files, comes at least the shutdown timeout after every
    earlier call in which it was woken or needed. -/
theorem grace_window (hci : 0 ≤ config.controlInterval) (h : IsRun exactPlus config tr₀ trs s) :
    (∀ tr ∈ trs, (commands tr).length ≤ 1) ∧
    trs.Pairwise fun later earlier => ShutsDown config later → KeepsUp config earlier →
      config.shutdownTimeout * 1000000000 ≤ reading later - reading earlier := by
  induction h with
  | construct _ => exact ⟨fun _ htr => absurd htr List.not_mem_nil, .nil⟩
  | call hrun h ih =>
    have hcall := call_of_runs h
    refine ⟨List.forall_mem_cons.2 ⟨hcall.commands_length, ih.1⟩, .cons ?_ ih.2⟩
    rintro earlier hmem ⟨hdown, -, hoff⟩ hk
    obtain ⟨-, -, -, htime⟩ := (hcall.isShutdown_iff hoff).1 hdown
    have hle := (hrun.grace hci earlier hmem hk).1
    simp only [TimedOut, exactPlus] at htime
    omega

/-- The server of the unit tests is shut down at the timeout, ten minutes after a
    client answered. -/
theorem grace_window_timeout :
    let calls := (play exactPlus testConfig (.calm 3600000000000 .kHostActive .kFailed)
      [.calm 4200000000000 .kHostActive .kHostInactive,
        .calm 3600000000000 .kHostActive .kHostActive]).1
    (calls.map commands = [[.shutdown "ServerIp" "user"], []]) ∧
    calls.Pairwise fun later earlier => ShutsDown testConfig later → KeepsUp testConfig earlier →
      testConfig.shutdownTimeout * 1000000000 ≤ reading later - reading earlier :=
  ⟨by decide, (grace_window (by decide) (play_isRun exactPlus testConfig _ _)).2⟩

end Hostcontrold.ServerController
