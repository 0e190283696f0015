import Hostcontrold.Controller.Inputs

/-!
# Shutting down while being stopped

A server that is not forced off is to be shut down only if no clients are
running. `checkClients` stops pinging them once the stop flag is set, and returns
the same answer as if none of them was running: with the timeout over, the server
is shut down although some clients were not asked (`shutdown_interrupted`).

This is the only way to such a shutdown: it is safe if and only if the call was
not `Interrupted` (`safe_iff_not_interrupted`).
-/

namespace Hostcontrold.ServerController

open Interaction

variable (plus : Int → Int → Int) (config : ServerMachineConfig)

/-- Every client was pinged, and none of them answered. -/
def AllSilent (tr : Trace) : Prop :=
  (pings tr).tail.map Prod.fst = config.clients.map ClientMachineConfig.ip ∧
    ∀ ping ∈ (pings tr).tail, active ping = false

/-- A call that finds no force file shuts the server down only if all clients are
    silent. -/
def SafeShutdown (tr : Trace) : Prop :=
  (observe config tr).forceOn = false → (observe config tr).forceOff = false → IsShutdown tr →
    AllSilent config tr

/-- In an effective call, which finds no force file, the stop flag is found set
    before some client is pinged; the server is up, and the timeout over. -/
structure Interrupted (s : ServerController) (tr : Trace) : Prop where
  effective : ¬Throttled plus config s (reading tr)
  forceOn : (observe config tr).forceOn = false
  forceOff : (observe config tr).forceOff = false
  stops : tr.any stops = true
  running : recorded s.running (observe config tr).server = true
  timedOut : TimedOut plus config s (reading tr)

variable {plus config} {s s' : ServerController} {tr tr₀ : Trace} {later earlier : List Trace}

/-- An effective call that finds no force file asks the clients. -/
theorem Call.asks_clients (h : Call plus config s tr s')
    (ht : ¬Throttled plus config s (reading tr)) (hon : (observe config tr).forceOn = false)
    (hoff : (observe config tr).forceOff = false) :
    ∃ tr₂, Runs (checkClients config.clients) tr₂ (observe config tr).client ∧
      (pings tr).tail = pings tr₂ ∧ tr.any stops = tr₂.any stops := by
  cases h with
  | throttled hn => exact absurd hn ht
  | forcedOn _ hb₁ => simp [observe_ping hb₁, finds] at hon
  | forcedOff _ hb₁ => simp [observe_ping hb₁, finds] at hoff
  | @byClients now result client tr₁ tr₂ tr₃ _ hb₁ _ hclients hb₃ =>
    refine ⟨tr₂, ?_, ?_, ?_⟩
    · rw [observe_ping hb₁]
      simpa [ping?, hb₃.pings, ← (runs_checkClients hclients).2.2.1] using hclients
    · simp [ping?, hb₁.pings, hb₃.pings]
    · simp [stops, hb₁.stops, hb₃.stops]

/-- If no client answers such a call, they are all silent unless the stop flag was
    set. -/
theorem Call.allSilent_iff (h : Call plus config s tr s')
    (ht : ¬Throttled plus config s (reading tr)) (hon : (observe config tr).forceOn = false)
    (hoff : (observe config tr).forceOff = false) (hclient : (observe config tr).client = false) :
    AllSilent config tr ↔ tr.any stops = false := by
  obtain ⟨tr₂, hclients, hpings, hstops⟩ := h.asks_clients ht hon hoff
  obtain ⟨-, -, hr, hstop, hall⟩ := runs_checkClients hclients
  rw [AllSilent, hpings, hstops]
  constructor
  · rintro ⟨hips, -⟩
    by_contra hs
    have hlength := congrArg List.length hips
    have hlt := (hstop (Bool.of_not_eq_false hs)).2
    simp only [List.length_map] at hlength
    omega
  · intro hs
    refine ⟨hall hs hclient, ?_⟩
    intro ping hping
    rw [hclient, eq_comm, List.any_eq_false] at hr
    exact Bool.not_eq_true _ ▸ hr ping hping

/-- The stop flag is only read before the ping of a client, as long as none
    answered. -/
theorem Call.client_of_stops (h : Call plus config s tr s')
    (ht : ¬Throttled plus config s (reading tr)) (hon : (observe config tr).forceOn = false)
    (hoff : (observe config tr).forceOff = false) (hs : tr.any stops = true) :
    (observe config tr).client = false := by
  obtain ⟨tr₂, hclients, -, hstops⟩ := h.asks_clients ht hon hoff
  exact ((runs_checkClients hclients).2.2.2.1 (hstops ▸ hs)).1

/-- In every run, each call, made in the state reached by the calls before, shuts
    the server down safely if and only if it is not interrupted. -/
theorem safe_iff_not_interrupted (h : IsRun plus config tr₀ (later ++ tr :: earlier) s')
    (hs : IsRun plus config tr₀ earlier s) :
    SafeShutdown config tr ↔ ¬Interrupted plus config s tr := by
  obtain ⟨_, hcall⟩ := h.split hs
  constructor
  · rintro hsafe ⟨ht, hon, hoff, hs, hr, htime⟩
    have hclient := hcall.client_of_stops ht hon hoff hs
    have hn : (observe config tr).needed = false := by simp [Observation.needed, hon, hclient]
    have hsilent := hsafe hon hoff ((hcall.isShutdown_iff hoff).2 ⟨ht, hn, hr, htime⟩)
    rw [hcall.allSilent_iff ht hon hoff hclient, hs] at hsilent
    cases hsilent
  · intro hint hon hoff hdown
    obtain ⟨ht, hn, hr, htime⟩ := (hcall.isShutdown_iff hoff).1 hdown
    have hclient : (observe config tr).client = false := by
      simpa [Observation.needed, hon, hoff] using hn
    rw [hcall.allSilent_iff ht hon hoff hclient]
    by_contra hs
    exact hint ⟨ht, hon, hoff, Bool.of_not_eq_false hs, hr, htime⟩

/-- The server of the unit tests is shut down at the timeout, after its client was
    asked. -/
theorem safe_iff_not_interrupted_timeout :
    let calls := (play exactPlus testConfig (.calm 3600000000000 .kHostActive .kFailed)
      [.calm 4200000000000 .kHostActive .kHostInactive]).1
    calls.map commands = [[.shutdown "ServerIp" "user"]] ∧
      ∀ tr ∈ calls, SafeShutdown testConfig tr := by
  have hrun := play_isRun exactPlus testConfig (.calm 3600000000000 .kHostActive .kFailed)
  refine ⟨by decide, List.forall_mem_singleton.2 ?_⟩
  refine (@safe_iff_not_interrupted _ _ _ _ _ _ [] []
    (hrun [.calm 4200000000000 .kHostActive .kHostInactive]) (hrun [])).2 ?_
  intro hint
  exact absurd hint.stops (by decide)

/-- The server of the unit tests, with the stop flag set at the timeout: it is shut
    down in the call in which its client is not asked. -/
theorem shutdown_interrupted :
    let calls := (play exactPlus testConfig (.calm 3600000000000 .kHostActive .kFailed)
      [{ Inputs.calm 4200000000000 .kHostActive .kHostActive with stop := fun _ => true }]).1
    ∃ tr ∈ calls, ¬SafeShutdown testConfig tr := by
  refine ⟨_, List.mem_cons_self, ?_⟩
  intro hsafe
  obtain ⟨hpings, -⟩ := hsafe (by decide) (by decide) ⟨_, _, List.mem_cons_self⟩
  exact absurd hpings (by decide)

end Hostcontrold.ServerController
