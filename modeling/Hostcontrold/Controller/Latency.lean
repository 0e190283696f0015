import Hostcontrold.Controller.Policy
import Mathlib.Data.List.Chain

/-!
# Spacing of the passes, and the latency of a shutdown

The main loop calls a controller over and over, with at most some gap `delta`
between the readings of two calls (`Polled`). The throttle picks the effective
calls greedily from this schedule: they are at least the control interval apart,
and at most that and the gap (`IsRun.spacing`).

So a server that is no longer needed is shut down in time: once it was needed for
the last time, the first shutdown command comes no earlier than the shutdown
timeout, and later by the interval and the gap at most (`shutdown_latency`), if
only the calls go on for so long. Until then the controller is `Pending`.
-/

namespace Hostcontrold

open Interaction

/-- Calls (the latest first) with a clock that is not set back, and at most
    `delta` between two readings. -/
def Polled (delta : Int) (trs : List Trace) : Prop :=
  trs.IsChain fun later earlier =>
    reading earlier ≤ reading later ∧ reading later ≤ reading earlier + delta

instance (delta : Int) (trs : List Trace) : Decidable (Polled delta trs) :=
  inferInstanceAs (Decidable (trs.IsChain _))

namespace Policy

variable {config : ServerMachineConfig} {delta : Int}

/-- Since the last effective call, the control interval is not over. -/
theorem now_le_of_head {o e : Observation} {past : List Observation}
    (hci : 0 ≤ config.controlInterval) (he : (effectiveCalls config (o :: past)).head? = some e) :
    o.now ≤ e.now + config.controlInterval * 1000000000 := by
  rw [effectiveCalls] at he
  split_ifs at he with ho
  · obtain rfl : o = e := Option.some.inj he
    omega
  · rw [Effective, he] at ho
    simp only [Option.map_some, Option.getD_some, exactPlus] at ho
    omega

/-- The effective calls among polled calls. -/
theorem isChain_effectiveCalls (hci : 0 ≤ config.controlInterval) {trs : List Trace}
    (h : Polled delta trs) : (effectiveCalls config (trs.map (observe config))).IsChain
      fun later earlier => config.controlInterval * 1000000000 ≤ later.now - earlier.now ∧
        later.now - earlier.now ≤ config.controlInterval * 1000000000 + delta := by
  induction trs with
  | nil => exact .nil
  | cons tr trs ih =>
    obtain ⟨hhead, htail⟩ := List.isChain_cons.1 h
    rw [List.map_cons, effectiveCalls]
    split_ifs with ho
    · refine List.isChain_cons.2 ⟨?_, ih htail⟩
      intro e he
      rw [Option.mem_def] at he
      rw [Effective, he] at ho
      simp only [Option.map_some, Option.getD_some, exactPlus] at ho
      -- The call just before is at most the interval after `e`, and `delta` before this one.
      cases trs with
      | nil => cases he
      | cons tr' trs =>
        have hle := now_le_of_head hci he
        have hgap := hhead tr' rfl
        simp only [observe] at hle ho ⊢
        omega
    · exact ih htail

end Policy

namespace ServerController

open Policy

variable {config : ServerMachineConfig} {delta u last : Int} {tr₀ tr p : Trace}
  {trs pre post : List Trace} {s s' : ServerController}

/-- The effective calls of a polled run are at least the control interval apart,
    and at most `delta` longer. -/
theorem IsRun.spacing (hci : 0 ≤ config.controlInterval) (h : IsRun exactPlus config tr₀ trs s)
    (hpoll : Polled delta trs) : (trs.filter effective).IsChain fun later earlier =>
      config.controlInterval * 1000000000 ≤ reading later - reading earlier ∧
        reading later - reading earlier ≤ config.controlInterval * 1000000000 + delta := by
  have hchain := isChain_effectiveCalls hci hpoll
  rw [h.effectiveCalls_eq] at hchain
  exact (List.isChain_map _).1 hchain

/-- In a call the server is running, if it is pinged, and nobody needs it: there
    is no force file, and no client answers. -/
structure Unneeded (config : ServerMachineConfig) (tr : Trace) : Prop where
  forceOn : (observe config tr).forceOn = false
  forceOff : (observe config tr).forceOff = false
  client : (observe config tr).client = false
  server : ∀ result ∈ (observe config tr).server, result = .kHostActive

instance : Decidable (Unneeded config tr) :=
  decidable_of_iff ((observe config tr).forceOn = false ∧ (observe config tr).forceOff = false ∧
      (observe config tr).client = false ∧
      ∀ result ∈ (observe config tr).server, result = .kHostActive)
    ⟨fun ⟨h₁, h₂, h₃, h₄⟩ => ⟨h₁, h₂, h₃, h₄⟩, fun ⟨h₁, h₂, h₃, h₄⟩ => ⟨h₁, h₂, h₃, h₄⟩⟩

/-- The first shutdown among the calls `trs` (the latest first) is issued, at a
    reading between `first` and `last`. -/
def FirstShutdown (first last : Int) (trs : List Trace) : Prop :=
  ∃ later q earlier, trs = later ++ q :: earlier ∧ IsShutdown q ∧
    (∀ tr ∈ earlier, ¬IsShutdown tr) ∧ first ≤ reading q ∧ reading q ≤ last

theorem FirstShutdown.cons {first last : Int} (h : FirstShutdown first last trs) (tr : Trace) :
    FirstShutdown first last (tr :: trs) := by
  obtain ⟨later, q, earlier, rfl, hq⟩ := h
  exact ⟨tr :: later, q, earlier, rfl, hq⟩

variable (config delta u) in
/-- When a server last needed at `u` times out. -/
def deadline : Int := u + config.shutdownTimeout * 1000000000

variable (config delta u) in
/-- When it is shut down at the latest. -/
def latest : Int := u + (config.shutdownTimeout + config.controlInterval) * 1000000000 + delta

variable (config delta u last post s) in
/-- The server was last needed at `u`, and not shut down since, in the calls
    `post`; the clock was last read at `last`. -/
structure Pending : Prop where
  lastClient : s.lastClient = u
  lastControl : s.lastControl ≤ deadline config u
  recent : last ≤ s.lastControl + config.controlInterval * 1000000000
  quiet : ∀ tr ∈ post, ¬IsShutdown tr ∧ reading tr < latest config delta u

/-- The call in which the server is needed. -/
theorem Pending.of_needed (hci : 0 ≤ config.controlInterval) (hst : 0 ≤ config.shutdownTimeout)
    (hcall : Call exactPlus config s p s') (hp : (observe config p).needed = true) :
    Pending config delta (reading p) (reading p) [] s' := by
  by_cases ht : Throttled exactPlus config s (reading p)
  · obtain ⟨-, now, rfl⟩ := hcall.of_throttled ht
    simp [observe_now, Observation.needed] at hp
  · obtain ⟨rfl, -⟩ := hcall.observed
    rw [next_of_not_throttled ht, hp]
    refine ⟨rfl, ?_, ?_, fun _ h => absurd h List.not_mem_nil⟩
    · simp only [deadline, observe]
      omega
    · simp only [observe]
      omega

/-- A call in which nobody needs the server shuts it down, or leaves it pending. -/
theorem Pending.call (hδ : 0 ≤ delta) (hci : 0 ≤ config.controlInterval)
    (h : Pending config delta u last post s) (hcall : Call exactPlus config s tr s')
    (hgap : reading tr ≤ last + delta) (hun : Unneeded config tr) :
    FirstShutdown (deadline config u) (latest config delta u) (tr :: post) ∨
      Pending config delta u (reading tr) (tr :: post) s' := by
  obtain ⟨hclient, hcontrol, hrecent, hquiet⟩ := h
  have hbound : deadline config u + config.controlInterval * 1000000000 + delta =
      latest config delta u := by
    simp only [deadline, latest]
    omega
  by_cases ht : Throttled exactPlus config s (reading tr)
  · -- A throttled call changes nothing, and comes before the next effective one is due.
    obtain ⟨rfl, now, rfl⟩ := hcall.of_throttled ht
    have hlt : reading [⟨.now, now⟩] < s'.lastControl + config.controlInterval * 1000000000 := ht
    refine .inr ⟨hclient, hcontrol, Int.le_of_lt hlt, List.forall_mem_cons.2 ⟨⟨?_, ?_⟩, hquiet⟩⟩
    · rintro ⟨ip, sshUser, hmem⟩
      simp [command?] at hmem
    · omega
  have hneeded : (observe config tr).needed = false := by
    simp [Observation.needed, hun.forceOn, hun.client]
  obtain ⟨result, hresult⟩ := Option.isSome_iff_exists.1
    (server_isSome_of_effective config (hcall.effective_iff.2 ht))
  have hrunning : recorded s.running (observe config tr).server = true := by
    rw [hresult, hun.server result hresult]
    rfl
  have hdown := hcall.isShutdown_iff hun.forceOff
  rw [TimedOut, hclient] at hdown
  obtain ⟨rfl, -⟩ := hcall.observed
  rw [next_of_not_throttled ht, hneeded]
  by_cases hdead : deadline config u ≤ reading tr
  · -- The first effective call at or after the deadline.
    refine .inl ⟨[], tr, post, rfl, hdown.2 ⟨ht, hneeded, hrunning, hdead⟩,
      fun t ht => (hquiet t ht).1, hdead, ?_⟩
    omega
  · -- An effective call before the deadline.
    refine .inr ⟨hclient, ?_, ?_, List.forall_mem_cons.2 ⟨⟨?_, ?_⟩, hquiet⟩⟩
    · exact Int.le_of_lt (Int.not_le.1 hdead)
    · simp only [observe]
      omega
    · exact fun h => hdead (hdown.1 h).2.2.2
    · omega

/-- After a call in which the server was needed, as long as nobody needs it: the
    first shutdown has been issued in time, or is pending. -/
theorem IsRun.firstShutdown_or_pending (hδ : 0 ≤ delta) (hci : 0 ≤ config.controlInterval)
    (hst : 0 ≤ config.shutdownTimeout) (h : IsRun exactPlus config tr₀ (post ++ p :: pre) s)
    (hpoll : Polled delta (post ++ p :: pre)) (hp : (observe config p).needed = true)
    (hpost : ∀ tr ∈ post, Unneeded config tr) :
    FirstShutdown (deadline config (reading p)) (latest config delta (reading p)) post ∨
      Pending config delta (reading p) (((post ++ p :: pre).head?.map reading).getD 0) post s := by
  induction post generalizing s with
  | nil =>
    obtain _ | ⟨-, h⟩ := h
    exact .inr (.of_needed hci hst (call_of_runs h) hp)
  | cons tr post ih =>
    obtain _ | ⟨hrun, h⟩ := h
    obtain ⟨hhead, htail⟩ := List.isChain_cons.1 hpoll
    obtain ⟨hun, hpost⟩ := List.forall_mem_cons.1 hpost
    rcases ih hrun htail hpost with hfirst | hpending
    · exact .inl (hfirst.cons tr)
    · refine hpending.call hδ hci (call_of_runs h) ?_ hun
      obtain ⟨tr', htr'⟩ : ∃ tr', (post ++ p :: pre).head? = some tr' := by
        cases post <;> exact ⟨_, rfl⟩
      rw [htr']
      exact (hhead tr' htr').2

/-- The effective calls of a polled run are the control interval apart, at most
    `delta` longer; and once the server was needed for the last time, in the call
    `p`, the first shutdown after it comes in time, if the calls go on for so
    long. -/
theorem shutdown_latency (hδ : 0 ≤ delta) (hci : 0 ≤ config.controlInterval)
    (hst : 0 ≤ config.shutdownTimeout) (h : IsRun exactPlus config tr₀ trs s)
    (hpoll : Polled delta trs) :
    ((trs.filter effective).IsChain fun later earlier =>
      config.controlInterval * 1000000000 ≤ reading later - reading earlier ∧
        reading later - reading earlier ≤ config.controlInterval * 1000000000 + delta) ∧
    ∀ post p pre, trs = post ++ p :: pre → (observe config p).needed = true →
      (∀ tr ∈ post, Unneeded config tr) →
      (∃ tr ∈ post, latest config delta (reading p) ≤ reading tr) →
      FirstShutdown (deadline config (reading p)) (latest config delta (reading p)) post := by
  refine ⟨h.spacing hci hpoll, ?_⟩
  rintro post p pre rfl hp hpost ⟨tr, htr, hlate⟩
  rcases h.firstShutdown_or_pending hδ hci hst hpoll hp hpost with hfirst | hpending
  · exact hfirst
  · exact absurd hlate (Int.not_le.2 (hpending.quiet tr htr).2)

/-- The server of the unit tests, polled every five minutes: needed for the last
    time at 3600 s, it is shut down between 4200 s and 4505 s. -/
theorem shutdown_latency_timeout :
    let calls := (play exactPlus testConfig (.calm 3600000000000 .kHostActive .kFailed)
      [.calm 4800000000000 .kHostActive .kHostInactive,
        .calm 4500000000000 .kHostActive .kHostInactive,
        .calm 4200000000000 .kHostActive .kHostInactive,
        .calm 3900000000000 .kHostActive .kHostInactive,
        .calm 3600000000000 .kHostActive .kHostActive]).1
    FirstShutdown 4200000000000 4505000000000 (calls.take 4) := by
  intro calls
  exact (@shutdown_latency testConfig 300000000000 _ calls _ (by decide) (by decide) (by decide)
    (play_isRun exactPlus testConfig _ _) (by decide +zetaReduce)).2
    (calls.take 4) _ [] rfl (by decide +zetaReduce) (by decide +zetaReduce) (by decide +zetaReduce)

/-- Without interval, timeout and gap, the call in which the server is needed is
    itself late enough: it has to be a later call that is late. -/
theorem shutdown_latency_needs_later_call :
    ¬∀ (delta : Int) (config : ServerMachineConfig) (tr₀ : Trace) (trs : List Trace)
      (s : ServerController), 0 ≤ delta → 0 ≤ config.controlInterval →
      0 ≤ config.shutdownTimeout → IsRun exactPlus config tr₀ trs s → Polled delta trs →
      (∀ tr ∈ trs.getLast?, config.controlInterval * 1000000000 ≤ reading tr) →
      (∀ tr ∈ trs, tr.any stops = false) →
      ∀ post p pre, trs = post ++ p :: pre → (observe config p).needed = true →
        (∀ tr ∈ post, Unneeded config tr) →
        (∃ tr ∈ trs, latest config delta (reading p) ≤ reading tr) →
        FirstShutdown (deadline config (reading p)) (latest config delta (reading p)) post := by
  intro h
  obtain ⟨later, q, earlier, he, -⟩ := h 0
    { testConfig with controlInterval := 0, shutdownTimeout := 0 } _ _ _ (by decide) (by decide)
    (by decide)
    (play_isRun _ _ (.calm 0 .kHostActive .kFailed) [.calm 0 .kHostActive .kHostActive])
    (by decide) (by decide) (by decide) [] _ [] rfl (by decide) (by decide) (by decide)
  cases later <;> cases he

end ServerController

end Hostcontrold
