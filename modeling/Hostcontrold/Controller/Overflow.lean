import Hostcontrold.Controller.Inputs

/-!
# Overflow in the comparisons of times

The decoder accepts any unsigned integer for the interval and the timeout. It is
cast to a signed number of seconds, converted to nanoseconds and added to a time,
all in 64 bits: what is compared with the clock is the exact sum, wrapped around
(`wrapPlus_toInt64`).

For readings up to 2^62 ns, which is in the year 2116, the comparisons of a
server block are `Exact` in all runs if and only if both times are below 2^62 ns,
or the interval is one that never lets a call pass (`exact_iff`). A timeout of
10000000000 seconds, meant as *never*, has the server shut down at once
(`not_exact_never`).
-/

namespace Hostcontrold.ServerController

open Interaction

/-- In 64 bits, the sum of a time and the value of a literal wraps around. -/
theorem wrapPlus_toInt64 (time : Int) (n : UInt64) :
    wrapPlus time n.toInt64.toInt = (exactPlus time n.toNat).bmod (2 ^ 64) := by
  have hn : n.toInt64.toInt = (n.toNat : Int).bmod (2 ^ 64) := BitVec.toInt_eq_toNat_bmod n.toBitVec
  rw [wrapPlus, hn, Int.bmod_mul_bmod, Int.add_bmod_bmod, exactPlus]

/-- Sums of times below 2^62 do not wrap around. -/
theorem wrapPlus_of_small {time : Int} {n : UInt64} (h₀ : 0 ≤ time) (h₁ : time ≤ 2 ^ 62)
    (hn : (n.toNat : Int) * 1000000000 < 2 ^ 62) :
    wrapPlus time n.toInt64.toInt = exactPlus time n.toNat := by
  rw [wrapPlus_toInt64]
  apply Int.bmod_eq_of_le <;> simp only [exactPlus] <;> omega

/-- A call that compares the clock with the shutdown timeout. -/
def ComparesTimeout (config : ServerMachineConfig) (tr : Trace) : Prop :=
  effective tr = true ∧ (observe config tr).forceOn = false ∧
    (observe config tr).forceOff = false ∧ (observe config tr).client = false

/-- The comparisons in the call `tr`, made in the state `s`, agree with the exact
    ones, for an interval and a timeout in seconds. -/
structure Exact (config : ServerMachineConfig) (interval timeout : Int) (s : ServerController)
    (tr : Trace) : Prop where
  throttled : Throttled wrapPlus config s (reading tr) ↔
    exactPlus s.lastControl interval > reading tr
  timedOut : ComparesTimeout config tr → (TimedOut wrapPlus config s (reading tr) ↔
    exactPlus s.lastClient timeout ≤ reading tr)

/-- A reading of the clock up to 2^62 ns. -/
def InRange (tr : Trace) : Prop := 0 ≤ reading tr ∧ reading tr ≤ 2 ^ 62

variable {config : ServerMachineConfig} {plus : Int → Int → Int} {tr₀ tr : Trace}
  {trs : List Trace} {s s' : ServerController} {interval timeout : UInt64}

/-- The times kept are readings of the clock. -/
theorem IsRun.inRange (h : IsRun plus config tr₀ trs s) (hr : ∀ tr ∈ tr₀ :: trs, InRange tr) :
    (0 ≤ s.lastControl ∧ s.lastControl ≤ 2 ^ 62) ∧ 0 ≤ s.lastClient ∧ s.lastClient ≤ 2 ^ 62 := by
  obtain ⟨h₀, hr⟩ := List.forall_mem_cons.1 hr
  refine h.invariant (fun trs s => (∀ tr ∈ trs, InRange tr) →
    (0 ≤ s.lastControl ∧ s.lastControl ≤ 2 ^ 62) ∧ 0 ≤ s.lastClient ∧ s.lastClient ≤ 2 ^ 62)
    (fun _ => ⟨by simp, h₀⟩) (fun trs s tr s' ih hcall hr => ?_) hr
  obtain ⟨htr, hr⟩ := List.forall_mem_cons.1 hr
  obtain ⟨hcontrol, hclient⟩ := ih hr
  obtain ⟨rfl, -⟩ := hcall.observed
  rw [next]
  split_ifs
  · exact ⟨hcontrol, hclient⟩
  · exact ⟨htr, htr⟩
  · exact ⟨htr, hclient⟩

/-- If the first call is always throttled, so are all the other ones. -/
theorem IsRun.lastControl_eq_zero (h : IsRun plus config tr₀ trs s)
    (hr : ∀ tr ∈ trs, InRange tr) (hplus : 2 ^ 62 < plus 0 config.controlInterval) :
    s.lastControl = 0 := by
  refine h.invariant (fun trs s => (∀ tr ∈ trs, InRange tr) → s.lastControl = 0)
    (fun _ => rfl) (fun trs s tr s' ih hcall hr => ?_) hr
  obtain ⟨htr, hr⟩ := List.forall_mem_cons.1 hr
  have ht : Throttled plus config s (reading tr) := by
    rw [Throttled, ih hr]
    exact Int.lt_of_le_of_lt htr.2 hplus
  rw [(hcall.of_throttled ht).1, ih hr]

/-- The comparisons are exact if no sum wraps around. -/
theorem exact_of_small (hinterval : config.controlInterval = interval.toInt64.toInt)
    (htimeout : config.shutdownTimeout = timeout.toInt64.toInt)
    (hi : (interval.toNat : Int) * 1000000000 < 2 ^ 62)
    (ht : (timeout.toNat : Int) * 1000000000 < 2 ^ 62) (h : IsRun wrapPlus config tr₀ trs s)
    (hr : ∀ tr ∈ tr₀ :: trs, InRange tr) : Exact config interval.toNat timeout.toNat s tr := by
  obtain ⟨⟨h₀, h₁⟩, h₂, h₃⟩ := h.inRange hr
  constructor
  · rw [Throttled, hinterval, wrapPlus_of_small h₀ h₁ hi]
  · intro _
    rw [TimedOut, htimeout, wrapPlus_of_small h₂ h₃ ht]

/-- The comparisons are exact if no call is ever effective. -/
theorem exact_of_never (hinterval : config.controlInterval = interval.toInt64.toInt)
    (hi : 2 ^ 62 < ((interval.toNat : Int) * 1000000000).bmod (2 ^ 64))
    (h : IsRun wrapPlus config tr₀ trs s) (hcall : Call wrapPlus config s tr s')
    (hr : ∀ tr ∈ trs, InRange tr) (htr : InRange tr) :
    Exact config interval.toNat timeout.toNat s tr := by
  have hplus : wrapPlus 0 config.controlInterval =
      ((interval.toNat : Int) * 1000000000).bmod (2 ^ 64) := by
    rw [hinterval, wrapPlus_toInt64, exactPlus, Int.zero_add]
  have hzero := h.lastControl_eq_zero hr (hplus ▸ hi)
  have hthrottled : Throttled wrapPlus config s (reading tr) := by
    rw [Throttled, hzero, hplus]
    exact Int.lt_of_le_of_lt htr.2 hi
  refine ⟨iff_of_true hthrottled ?_, ?_⟩
  · obtain ⟨-, hle⟩ := htr
    rw [hzero, exactPlus]
    by_contra hn
    rw [Int.bmod_eq_of_le (by omega) (by omega)] at hi
    omega
  · intro hcompares
    exact absurd hthrottled (hcall.effective_iff.1 hcompares.1)

/-- The inputs of a call with nobody around, at the time `now`. -/
def quiet (now : Int) : Inputs := .calm now .kHostActive .kHostInactive

/-- With nobody around, the timeout is compared in an effective call. -/
theorem comparesTimeout_quiet {now : Int} (ht : ¬Throttled plus config s now) :
    ComparesTimeout config (execute config (quiet now) (doWork plus config s)).trace := by
  have hcall : Call plus config s (execute config (quiet now) (doWork plus config s)).trace _ :=
    call_of_runs (execute_runs _ _ _)
  have hinactive : PingResult.kHostInactive ≠ .kHostActive := by decide
  refine ⟨hcall.effective_iff.2 ht, ?_⟩
  rw [observe_doWork plus config (quiet now) ht, Inputs.observation,
    Inputs.clientAnswers_eq_false fun _ => hinactive]
  exact ⟨rfl, rfl, rfl⟩

/-- The comparisons of a controller started at `start` and called at 2^62 ns. -/
theorem exact_start (hexact : ∀ tr₀ trs s tr s', IsRun wrapPlus config tr₀ trs s →
      Runs (doWork wrapPlus config s) tr s' → (∀ tr' ∈ tr₀ :: tr :: trs, InRange tr') →
      Exact config interval.toNat timeout.toNat s tr)
    {start : Int} (h₀ : 0 ≤ start) (h₁ : start ≤ 2 ^ 62) :
    (wrapPlus 0 config.controlInterval > 2 ^ 62 ↔ exactPlus 0 interval.toNat > 2 ^ 62) ∧
      (¬wrapPlus 0 config.controlInterval > 2 ^ 62 →
        (wrapPlus start config.shutdownTimeout ≤ 2 ^ 62 ↔
          exactPlus start timeout.toNat ≤ 2 ^ 62)) := by
  have hrange : ∀ tr' ∈ [(execute config (quiet start) (construct config)).trace,
      (execute config (quiet (2 ^ 62)) (doWork wrapPlus config ⟨false, 0, start⟩)).trace],
      InRange tr' := by
    simp only [List.forall_mem_cons]
    exact ⟨⟨h₀, h₁⟩, ⟨show (0 : Int) ≤ 2 ^ 62 by omega, Int.le_refl _⟩, nofun⟩
  obtain ⟨hthrottled, htimedOut⟩ := hexact _ _ _ _ _ (play_isRun wrapPlus config (quiet start) [])
    (execute_runs _ _ _) hrange
  exact ⟨hthrottled, fun ht => htimedOut (comparesTimeout_quiet ht)⟩

/-- Whether the comparisons of a server block are exact in all runs, for readings
    up to 2^62 ns. -/
theorem exact_iff {json : Json} (h : ServerMachineConfig.fromJson json = .ok config)
    (hinterval : json.atKey "control_interval_sec" = .ok (.numberUnsigned interval))
    (htimeout : json.atKey "shutdown_timeout_sec" = .ok (.numberUnsigned timeout)) :
    (∀ tr₀ trs s tr s', IsRun wrapPlus config tr₀ trs s → Runs (doWork wrapPlus config s) tr s' →
      (∀ tr' ∈ tr₀ :: tr :: trs, InRange tr') → Exact config interval.toNat timeout.toNat s tr) ↔
    ((interval.toNat : Int) * 1000000000 < 2 ^ 62 ∧ (timeout.toNat : Int) * 1000000000 < 2 ^ 62) ∨
      2 ^ 62 < ((interval.toNat : Int) * 1000000000).bmod (2 ^ 64) := by
  obtain ⟨-, hi, ht⟩ := ServerMachineConfig.of_fromJson h
  rw [hinterval] at hi
  rw [htimeout] at ht
  replace hi := (Except.ok.inj hi).symm
  replace ht := (Except.ok.inj ht).symm
  constructor
  · intro hexact
    -- The runs that start at the two ends of the range tell the conditions.
    obtain ⟨hthrottled, h₀⟩ := exact_start hexact (Int.le_refl 0) (by omega)
    obtain ⟨-, h₁⟩ := exact_start hexact (by omega) (Int.le_refl _)
    rw [hi, wrapPlus_toInt64] at hthrottled h₀ h₁
    rw [ht, wrapPlus_toInt64] at h₀ h₁
    simp only [exactPlus, Int.zero_add] at hthrottled h₀ h₁
    by_cases hnever : 2 ^ 62 < ((interval.toNat : Int) * 1000000000).bmod (2 ^ 64)
    · exact .inr hnever
    · have hsmall : (interval.toNat : Int) * 1000000000 < 2 ^ 62 := by omega
      refine .inl ⟨hsmall, ?_⟩
      have h₀ := h₀ hnever
      have h₁ := h₁ hnever
      by_contra hlarge
      -- The timeout is over the bound, in 64 bits too. Added to a late start, it wraps around.
      have hover : 2 ^ 62 < ((timeout.toNat : Int) * 1000000000).bmod (2 ^ 64) := by omega
      have hlt := @Int.bmod_lt ((timeout.toNat : Int) * 1000000000) (2 ^ 64) (by decide)
      rw [← Int.add_bmod_bmod] at h₁
      generalize ((timeout.toNat : Int) * 1000000000).bmod (2 ^ 64) = x at hover hlt h₁
      have hwrap : (2 ^ 62 + x).bmod (2 ^ 64) ≤ 2 ^ 62 := by
        rw [Int.bmod_def]
        split_ifs <;> omega
      have := h₁.1 hwrap
      omega
  · rintro hcond tr₀ trs s tr s' hrun hcall hr
    simp only [List.forall_mem_cons] at hr
    obtain ⟨hr₀, htr, hr⟩ := hr
    rcases hcond with ⟨hi', ht'⟩ | hi'
    · exact exact_of_small hi ht hi' ht' hrun (List.forall_mem_cons.2 ⟨hr₀, hr⟩)
    · exact exact_of_never hi hi' hrun (call_of_runs hcall) hr htr

/-- The server block of the unit tests, with the given interval and timeout. -/
def testBlock (interval timeout : UInt64) : Json :=
  .object [("name", .string "server"), ("ip", .string "ServerIp"), ("mac", .string "MAC"),
    ("ssh_user", .string "user"), ("control_dir", .string "/dir/server"),
    ("control_interval_sec", .numberUnsigned interval),
    ("shutdown_timeout_sec", .numberUnsigned timeout),
    ("clients", .array [.object [("name", .string "client"), ("ip", .string "ClientIp")]])]

/-- With the times of the unit tests, all comparisons are exact. -/
theorem exact_iff_testConfig : ServerMachineConfig.fromJson (testBlock 5 600) = .ok testConfig ∧
    ∀ tr₀ trs s tr s', IsRun wrapPlus testConfig tr₀ trs s →
      Runs (doWork wrapPlus testConfig s) tr s' → (∀ tr' ∈ tr₀ :: tr :: trs, InRange tr') →
      Exact testConfig 5 600 s tr :=
  ⟨by decide,
    (@exact_iff testConfig 5 600 (testBlock 5 600) (by decide) rfl rfl).2 (.inl (by decide))⟩

/-- The server of the unit tests, with a timeout meant as *never*. -/
def neverConfig : ServerMachineConfig := { testConfig with shutdownTimeout := 10000000000 }

/-- With a timeout of 10000000000 seconds, the server is shut down in the first call,
    at the time of the start. -/
theorem not_exact_never :
    ServerMachineConfig.fromJson (testBlock 5 10000000000) = .ok neverConfig ∧
    (play wrapPlus neverConfig (quiet 1700000000000000000) [quiet 1700000000000000000]).1.map
      commands = [[.shutdown "ServerIp" "user"]] ∧
    ¬∀ tr₀ trs s tr s', IsRun wrapPlus neverConfig tr₀ trs s →
      Runs (doWork wrapPlus neverConfig s) tr s' → (∀ tr' ∈ tr₀ :: tr :: trs, InRange tr') →
      Exact neverConfig 5 10000000000 s tr := by
  refine ⟨by decide, by decide, ?_⟩
  intro h
  have hexact := h _ _ _ _ _ (play_isRun _ _ (quiet 1700000000000000000) [])
    (execute_runs neverConfig (quiet 1700000000000000000) _) (by
      simp only [List.forall_mem_cons]
      exact ⟨⟨by decide, by decide⟩, ⟨by decide, by decide⟩, nofun⟩)
  exact absurd (hexact.timedOut (comparesTimeout_quiet (by decide))) (by decide)

end Hostcontrold.ServerController
