import Hostcontrold.Controller.Inputs

/-!
# The power policy

The purpose of a controller, without its state. The policy decides from the
history alone, the observations made in all calls so far (the latest first):

* a call is *effective* if it comes at least the control interval after the
  previous effective call (`effectiveCalls`); the other ones do nothing;
* the server is *up* if the last conclusive answer to a ping of it was that it is
  active (`up`);
* if the server is needed and not up, it is woken; if it is forced off, or not
  needed for the shutdown timeout, and up, it is shut down (`decision`).

The controller compresses the history into three variables. In every run, it
issues the commands of the policy, call by call (`commands_eq_policy`).
-/

namespace Hostcontrold

open Interaction

namespace Policy

variable (config : ServerMachineConfig) (started : Int)

/-- A call at the time `now` is effective, given the earlier effective calls:
    the previous one, if any, is at least the control interval ago. -/
def Effective (earlier : List Observation) (now : Int) : Prop :=
  exactPlus ((earlier.head?.map Observation.now).getD 0) config.controlInterval ≤ now

instance (earlier : List Observation) (now : Int) : Decidable (Effective config earlier now) :=
  inferInstanceAs (Decidable (_ ≤ _))

/-- The effective calls of a history. -/
def effectiveCalls : List Observation → List Observation
  | [] => []
  | o :: past =>
    if Effective config (effectiveCalls past) o.now then o :: effectiveCalls past
    else effectiveCalls past

/-- A conclusive answer to a ping of the server. -/
def conclusive : Option PingResult → Option Bool
  | some .kHostActive => some true
  | some .kHostInactive => some false
  | _ => none

/-- The answer of the latest conclusive ping of the server. -/
def up (calls : List Observation) : Bool :=
  (calls.findSome? fun o => conclusive o.server).getD false

/-- When the server was last needed: the latest such call, or the start. -/
def lastNeeded (calls : List Observation) : Int :=
  ((calls.find? Observation.needed).map Observation.now).getD started

/-- The decision of a call, given the calls before. -/
def decision (past : List Observation) (o : Observation) : List Command :=
  let earlier := effectiveCalls config past
  if Effective config earlier o.now then
    if o.forceOn then
      if up (o :: earlier) then [] else [.wol config.mac]
    else if o.forceOff then
      if up (o :: earlier) then [.shutdown config.ip config.sshUser] else []
    else if o.client then
      if up (o :: earlier) then [] else [.wol config.mac]
    else if up (o :: earlier) ∧
        exactPlus (lastNeeded started earlier) config.shutdownTimeout ≤ o.now then
      [.shutdown config.ip config.sshUser]
    else []
  else []

/-- The decisions of the calls of a history. -/
def decisions : List Observation → List (List Command)
  | [] => []
  | o :: past => decision config started past o :: decisions past

/-- Which calls of a history are effective. -/
def effectiveness : List Observation → List Bool
  | [] => []
  | o :: past => decide (Effective config (effectiveCalls config past) o.now) :: effectiveness past

end Policy

namespace ServerController

open Policy

variable {config : ServerMachineConfig} {tr₀ : Trace} {trs : List Trace} {s : ServerController}

/-- The state of a controller, as the policy sees it: a summary of the effective
    calls so far. -/
structure Summary (config : ServerMachineConfig) (started : Int) (calls : List Observation)
    (s : ServerController) : Prop where
  running : s.running = up calls
  lastControl : s.lastControl = (calls.head?.map Observation.now).getD 0
  lastClient : s.lastClient = lastNeeded started calls

variable {started : Int} {calls : List Observation}

theorem Summary.throttled_iff (h : Summary config started calls s) (now : Int) :
    Throttled exactPlus config s now ↔ ¬Effective config calls now := by
  rw [Throttled, Effective, h.lastControl, Int.not_le, gt_iff_lt]

theorem recorded_up (calls : List Observation) (o : Observation) :
    recorded (up calls) o.server = up (o :: calls) := by
  rcases ho : o.server with _ | _ | _ | _ <;> simp [up, recorded, conclusive, ho]

theorem Summary.recorded (h : Summary config started calls s) (o : Observation) :
    recorded s.running o.server = up (o :: calls) := by
  rw [h.running, recorded_up]

/-- An effective call is added to the summary. -/
theorem Summary.next (h : Summary config started calls s) {o : Observation}
    (ho : Effective config calls o.now) :
    Summary config started (o :: calls) (next exactPlus config s o) := by
  rw [next_of_not_throttled ((h.throttled_iff o.now).not.2 (not_not.2 ho))]
  refine ⟨h.recorded o, rfl, ?_⟩
  by_cases hn : o.needed <;> simp [lastNeeded, hn, h.lastClient]

theorem Summary.command {past : List Observation}
    (h : Summary config started (effectiveCalls config past) s) (o : Observation) :
    (command exactPlus config s o).toList = decision config started past o := by
  by_cases ho : Effective config (effectiveCalls config past) o.now
  · rw [toList_command ((h.throttled_iff o.now).not.2 (not_not.2 ho)), h.recorded o]
    simp only [decision, if_pos ho, TimedOut, h.lastClient, Observation.needed]
    cases o.forceOn <;> cases o.forceOff <;> cases o.client <;> simp
  · rw [command_of_throttled ((h.throttled_iff o.now).2 ho), decision, if_neg ho]
    rfl

/-- In every run, the state is the summary of the effective calls. -/
theorem IsRun.summary (h : IsRun exactPlus config tr₀ trs s) :
    Summary config (reading tr₀) (effectiveCalls config (trs.map (observe config))) s := by
  refine h.invariant
    (fun trs s => Summary config (reading tr₀) (effectiveCalls config (trs.map (observe config))) s)
    ⟨rfl, rfl, rfl⟩ fun trs s tr s' hs hcall => ?_
  obtain ⟨rfl, -⟩ := hcall.observed
  rw [List.map_cons, effectiveCalls]
  split_ifs with ho
  · exact hs.next ho
  · rw [next_of_throttled ((hs.throttled_iff _).2 ho)]
    exact hs

/-- The effective calls of a run are those that did some work. -/
theorem IsRun.effectiveCalls_eq (h : IsRun exactPlus config tr₀ trs s) :
    effectiveCalls config (trs.map (observe config)) =
      (trs.filter effective).map (observe config) := by
  induction h with
  | construct _ => rfl
  | @call tr trs s _ hrun h ih =>
    have heff := ((call_of_runs h).effective_iff).trans
      ((not_congr (hrun.summary.throttled_iff (reading tr))).trans not_not)
    rw [List.map_cons, effectiveCalls, List.filter_cons]
    split_ifs with ho he he
    · rw [ih, List.map_cons]
    · exact absurd (heff.2 ho) he
    · exact absurd (heff.1 he) ho
    · exact ih

/-- In every run, the commands issued are those of the policy, call by call, and
    the calls that ping are the effective ones. -/
theorem commands_eq_policy (h : IsRun exactPlus config tr₀ trs s) :
    commands tr₀ = [] ∧
    trs.map commands = decisions config (reading tr₀) (trs.map (observe config)) ∧
    trs.map (fun tr => !(pings tr).isEmpty) =
      effectiveness config (trs.map (observe config)) := by
  induction h with
  | construct h => exact ⟨commands_construct h, rfl, rfl⟩
  | @call tr trs s _ hrun h ih =>
    have hs := hrun.summary
    have hcall := call_of_runs h
    refine ⟨ih.1, congrArg₂ List.cons ?_ ih.2.1, congrArg₂ List.cons ?_ ih.2.2⟩
    · rw [hcall.observed.2, hs.command]
    · exact Bool.eq_iff_iff.2 ((hcall.effective_iff.trans
        ((not_congr (hs.throttled_iff _)).trans not_not)).trans decide_eq_true_iff.symm)

/-- The server of the unit tests is shut down right at the timeout, ten minutes
    after the construction, as the policy decides. -/
theorem commands_eq_policy_timeout :
    let calls := (play exactPlus testConfig (.calm 3600000000000 .kHostActive .kFailed)
      [.calm 4200000000000 .kHostActive .kHostInactive,
        .calm 4195000000000 .kHostActive .kHostInactive]).1
    calls.map commands = decisions testConfig 3600000000000 (calls.map (observe testConfig)) ∧
      decisions testConfig 3600000000000 (calls.map (observe testConfig)) =
        [[.shutdown "ServerIp" "user"], []] :=
  ⟨(commands_eq_policy (play_isRun exactPlus testConfig _ _)).2.1, by decide⟩

end ServerController

end Hostcontrold
