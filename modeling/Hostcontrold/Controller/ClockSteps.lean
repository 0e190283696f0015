import Hostcontrold.Controller.Inputs

/-!
# Adjustments of the clock

The control interval and the shutdown timeout are spans of time, but a
controller measures them by readings of the system clock, which may be set
forward or back while it runs. Here, the events of a run are numbered: event 0
is the construction, and event `k` the `k`-th call. A reading is the true elapsed
time plus the offset of the clock at that event (`clock`).

Two runs that get the same answers, at the same true times, issue the same
commands whatever the answers are if and only if the difference between their
clocks goes *unnoticed* (`same_commands_iff`): the same calls are effective, and
each of them finds the same earlier ones past the timeout. A clock that is wrong
from the start by a fixed amount goes unnoticed (`same_commands_of_shift`); one
that is set forward may shut down the server right away, and one that is set
back suspends the controller (`clock_steps_noticed`).
-/

namespace Hostcontrold

/-- The readings of a clock that is set while the controller runs. -/
def clock (elapsed offset : Nat → Int) (k : Nat) : Int := elapsed k + offset k

/-- The same answers at another reading of the clock. -/
def Inputs.readAt (inputs : Inputs) (now : Int) : Inputs := { inputs with now }

namespace ServerController

section Readings

variable (plus : Int → Int → Int) (config : ServerMachineConfig) (r : Nat → Int)

/-- The first `n` calls at the readings `r`, the latest first. -/
def callsAt (inputs : Nat → Inputs) : Nat → List Inputs
  | 0 => []
  | n + 1 => (inputs (n + 1)).readAt (r (n + 1)) :: callsAt inputs n

/-- The state after the first `n` calls at the readings `r`. -/
def stateAt (inputs : Nat → Inputs) (n : Nat) : ServerController :=
  (play plus config ((inputs 0).readAt (r 0)) (callsAt r inputs n)).2

/-- The commands of the first `n` calls at the readings `r`, the latest call
    first. -/
def commandsAt (inputs : Nat → Inputs) (n : Nat) : List (List Command) :=
  (play plus config ((inputs 0).readAt (r 0)) (callsAt r inputs n)).1.map commands

/-- The reading at the last effective call among the first `n`. -/
def lastEffective : Nat → Int
  | 0 => 0
  | n + 1 =>
    if plus (lastEffective n) config.controlInterval ≤ r (n + 1) then r (n + 1)
    else lastEffective n

/-- An event is effective if it sets a time: the construction does, and the calls
    that are not too early. -/
def IsEffective : Nat → Prop
  | 0 => True
  | n + 1 => plus (lastEffective plus config r n) config.controlInterval ≤ r (n + 1)

instance : DecidablePred (IsEffective plus config r)
  | 0 => inferInstanceAs (Decidable True)
  | _ + 1 => inferInstanceAs (Decidable (_ ≤ _))

/-- The differences between two clocks go unnoticed in the first `n` calls. -/
def Unnoticed (r' : Nat → Int) (n : Nat) : Prop :=
  ∀ k ≤ n, (IsEffective plus config r k ↔ IsEffective plus config r' k) ∧
    (IsEffective plus config r k → ∀ j < k, IsEffective plus config r j →
      (plus (r j) config.shutdownTimeout ≤ r k ↔ plus (r' j) config.shutdownTimeout ≤ r' k))

end Readings

variable {plus : Int → Int → Int} {config : ServerMachineConfig} {r r' : Nat → Int}
  {inputs : Nat → Inputs} {n : Nat}

/-! ## One call -/

theorem stateAt_zero : stateAt plus config r inputs 0 = ⟨false, 0, r 0⟩ := rfl

theorem stateAt_succ : stateAt plus config r inputs (n + 1) =
    next plus config (stateAt plus config r inputs n)
      (((inputs (n + 1)).readAt (r (n + 1))).observation config) :=
  (play_cons _ _ _).1

theorem commandsAt_succ : commandsAt plus config r inputs (n + 1) =
    (command plus config (stateAt plus config r inputs n)
      (((inputs (n + 1)).readAt (r (n + 1))).observation config)).toList ::
    commandsAt plus config r inputs n :=
  (play_cons _ _ _).2

/-- What the other answers of a call amount to does not depend on the clock. -/
theorem observation_readAt (inputs : Inputs) (now : Int) :
    (inputs.readAt now).observation config = { inputs.observation config with now } := by
  have hclients i n : (inputs.readAt now).clientAnswers i n = inputs.clientAnswers i n := by
    induction n generalizing i with
    | zero => rfl
    | succ n ih =>
      rw [Inputs.clientAnswers, Inputs.clientAnswers, ih]
      rfl
  rw [Inputs.observation, hclients]
  rfl

theorem lastControl_stateAt :
    (stateAt plus config r inputs n).lastControl = lastEffective plus config r n := by
  induction n with
  | zero => rfl
  | succ n ih =>
    rw [stateAt_succ, observation_readAt, lastEffective]
    split_ifs with he
    · have ht : ¬Throttled plus config (stateAt plus config r inputs n) (r (n + 1)) := by
        rwa [Throttled, ih, gt_iff_lt, Int.not_lt]
      rw [next_of_not_throttled ht]
    · have ht : Throttled plus config (stateAt plus config r inputs n) (r (n + 1)) := by
        rwa [Throttled, ih, gt_iff_lt, ← Int.not_le]
      rw [next_of_throttled ht, ih]

variable (inputs) in
/-- The calls that are not effective are the throttled ones. -/
theorem throttled_stateAt : Throttled plus config (stateAt plus config r inputs n) (r (n + 1)) ↔
    ¬IsEffective plus config r (n + 1) := by
  rw [Throttled, lastControl_stateAt, IsEffective, Int.not_le, gt_iff_lt]

variable (inputs) in
/-- A call that is not effective changes nothing. -/
theorem stateAt_of_not_effective (h : ¬IsEffective plus config r (n + 1)) :
    stateAt plus config r inputs (n + 1) = stateAt plus config r inputs n ∧
      commandsAt plus config r inputs (n + 1) = [] :: commandsAt plus config r inputs n := by
  have ht := (throttled_stateAt inputs).2 h
  rw [stateAt_succ, commandsAt_succ, observation_readAt, next_of_throttled ht,
    command_of_throttled ht]
  exact ⟨rfl, rfl⟩

variable (inputs) in
/-- An effective call does the work, whatever the clock reads. -/
theorem stateAt_of_effective (h : IsEffective plus config r (n + 1)) :
    let o := (inputs (n + 1)).observation config
    let s := stateAt plus config r inputs n
    stateAt plus config r inputs (n + 1) =
      ⟨recorded s.running o.server, r (n + 1), if o.needed then r (n + 1) else s.lastClient⟩ ∧
    commandsAt plus config r inputs (n + 1) =
      (if o.needed then if recorded s.running o.server then [] else [.wol config.mac]
        else if recorded s.running o.server ∧
            (o.forceOff ∨ plus s.lastClient config.shutdownTimeout ≤ r (n + 1)) then
          [.shutdown config.ip config.sshUser]
        else []) :: commandsAt plus config r inputs n := by
  have ht := mt (throttled_stateAt inputs).1 (not_not.2 h)
  rw [stateAt_succ, commandsAt_succ, observation_readAt, next_of_not_throttled ht,
    toList_command ht]
  exact ⟨rfl, rfl⟩

/-! ## Unnoticed differences do not matter -/

/-- The states of two controllers that have seen the same, at the same events. -/
structure Aligned (plus : Int → Int → Int) (config : ServerMachineConfig) (r r' : Nat → Int)
    (n : Nat) (s s' : ServerController) : Prop where
  running : s'.running = s.running
  lastClient : ∃ j ≤ n, IsEffective plus config r j ∧ s.lastClient = r j ∧ s'.lastClient = r' j

theorem Unnoticed.of_succ (h : Unnoticed plus config r r' (n + 1)) :
    Unnoticed plus config r r' n := fun k hk => h k (Nat.le_succ_of_le hk)

/-- While the differences go unnoticed, the controllers stay aligned, and issue
    the same commands. -/
theorem Unnoticed.aligned (h : Unnoticed plus config r r' n) :
    Aligned plus config r r' n (stateAt plus config r inputs n) (stateAt plus config r' inputs n) ∧
      commandsAt plus config r' inputs n = commandsAt plus config r inputs n := by
  induction n with
  | zero => exact ⟨⟨rfl, 0, Nat.le_refl _, trivial, rfl, rfl⟩, rfl⟩
  | succ n ih =>
    obtain ⟨⟨hrunning, j, hj, hje, hs, hs'⟩, hcommands⟩ := ih h.of_succ
    obtain ⟨heff, htimeout⟩ := h (n + 1) (Nat.le_refl _)
    by_cases he : IsEffective plus config r (n + 1)
    · obtain ⟨hstate, hcommand⟩ := stateAt_of_effective inputs he
      obtain ⟨hstate', hcommand'⟩ := stateAt_of_effective inputs (heff.1 he)
      have htime := htimeout he j (Nat.lt_succ_of_le hj) hje
      rw [hstate, hstate', hcommand, hcommand', hrunning, hcommands, hs, hs']
      simp only [htime]
      refine ⟨⟨rfl, ?_⟩, trivial⟩
      -- The server was last needed now, or when it was before.
      split_ifs
      · exact ⟨n + 1, Nat.le_refl _, he, rfl, rfl⟩
      · exact ⟨j, Nat.le_succ_of_le hj, hje, rfl, rfl⟩
    · obtain ⟨hstate, hcommand⟩ := stateAt_of_not_effective inputs he
      obtain ⟨hstate', hcommand'⟩ := stateAt_of_not_effective inputs (mt heff.2 he)
      rw [hstate, hstate', hcommand, hcommand', hcommands]
      exact ⟨⟨hrunning, j, Nat.le_succ_of_le hj, hje, hs, hs'⟩, rfl⟩

/-! ## Every other difference is noticed -/

/-- The server does not answer, and is wanted: every effective call wakes it. -/
def wanted : Inputs := { Inputs.calm 0 .kHostInactive .kHostInactive with forceOn := true }

/-- The server answers, and is wanted in the `j`-th call only: it is shut down
    once the timeout has passed. -/
def wantedAt (j k : Nat) : Inputs :=
  { Inputs.calm 0 .kHostActive .kHostInactive with forceOn := decide (k = j) }

theorem observation_wantedAt (j k : Nat) : (wantedAt j k).observation config =
    ⟨0, some .kHostActive, decide (k = j), false, false⟩ := by
  have hinactive : PingResult.kHostInactive ≠ .kHostActive := by decide
  rw [Inputs.observation, Inputs.clientAnswers_eq_false fun _ => hinactive]
  simp [wantedAt, Inputs.calm]

theorem commandsAt_wanted : commandsAt plus config r (fun _ => wanted) (n + 1) =
    (if IsEffective plus config r (n + 1) then [.wol config.mac] else []) ::
      commandsAt plus config r (fun _ => wanted) n := by
  split_ifs with he
  · exact (stateAt_of_effective _ he).2
  · exact (stateAt_of_not_effective _ he).2

/-- From the `j`-th call on, the server was last wanted then. -/
theorem lastClient_wantedAt {j : Nat} (hj : IsEffective plus config r j) :
    (stateAt plus config r (wantedAt j) n).lastClient = if j ≤ n then r j else r 0 := by
  induction n with
  | zero =>
    rw [stateAt_zero]
    split_ifs with h
    · rw [Nat.le_zero.1 h]
    · rfl
  | succ n ih =>
    by_cases he : IsEffective plus config r (n + 1)
    · rw [(stateAt_of_effective _ he).1, observation_wantedAt]
      by_cases hjn : n + 1 = j
      · simp [Observation.needed, hjn]
      · simp [Observation.needed, hjn, ih]
        grind
    · rw [(stateAt_of_not_effective _ he).1, ih]
      have : j ≠ n + 1 := by
        rintro rfl
        exact he hj
      grind

theorem commandsAt_wantedAt {j : Nat} (hj : IsEffective plus config r j) (hjn : j < n + 1)
    (he : IsEffective plus config r (n + 1)) : commandsAt plus config r (wantedAt j) (n + 1) =
      (if plus (r j) config.shutdownTimeout ≤ r (n + 1) then
        [.shutdown config.ip config.sshUser] else []) ::
      commandsAt plus config r (wantedAt j) n := by
  rw [(stateAt_of_effective _ he).2, observation_wantedAt, lastClient_wantedAt hj,
    if_pos (Nat.le_of_lt_succ hjn)]
  simp [Observation.needed, recorded, Nat.ne_of_gt hjn]

theorem commandsAt_eq_of_succ
    (h : commandsAt plus config r inputs (n + 1) = commandsAt plus config r' inputs (n + 1)) :
    commandsAt plus config r inputs n = commandsAt plus config r' inputs n := by
  rw [commandsAt_succ, commandsAt_succ] at h
  exact (List.cons_eq_cons.1 h).2

theorem iff_of_ite_eq {p q : Prop} [Decidable p] [Decidable q] {c : Command}
    {tail tail' : List (List Command)}
    (h : (if p then [c] else []) :: tail = (if q then [c] else []) :: tail') : p ↔ q := by
  have := (List.cons_eq_cons.1 h).1
  split_ifs at this with hp hq hq
  · exact iff_of_true hp hq
  · exact iff_of_false hp hq

/-- If the same commands are issued whatever the answers, the differences go
    unnoticed. -/
theorem unnoticed_of_same_commands
    (h : ∀ inputs, commandsAt plus config r inputs n = commandsAt plus config r' inputs n) :
    Unnoticed plus config r r' n := by
  induction n with
  | zero =>
    exact fun k hk => Nat.le_zero.1 hk ▸ ⟨Iff.rfl, fun _ j hj => absurd hj (Nat.not_lt_zero j)⟩
  | succ n ih =>
    have hn := ih fun inputs => commandsAt_eq_of_succ (h inputs)
    intro k hk
    obtain hk | rfl := Nat.le_succ_iff.1 hk
    · exact hn k hk
    have heff : IsEffective plus config r (n + 1) ↔ IsEffective plus config r' (n + 1) := by
      have := h fun _ => wanted
      rw [commandsAt_wanted, commandsAt_wanted] at this
      exact iff_of_ite_eq this
    refine ⟨heff, ?_⟩
    intro he j hj hje
    have hje' := (hn j (Nat.le_of_lt_succ hj)).1.1 hje
    have := h (wantedAt j)
    rw [commandsAt_wantedAt hje hj he, commandsAt_wantedAt hje' hj (heff.1 he)] at this
    exact iff_of_ite_eq this

/-! ## Same commands -/

/-- Adjustments of the clock do not change the commands, whatever the answers, if
    and only if they go unnoticed. -/
theorem same_commands_iff (plus : Int → Int → Int) (config : ServerMachineConfig)
    (elapsed offset offset' : Nat → Int) (n : Nat) :
    (∀ inputs, commandsAt plus config (clock elapsed offset) inputs n =
      commandsAt plus config (clock elapsed offset') inputs n) ↔
    Unnoticed plus config (clock elapsed offset) (clock elapsed offset') n :=
  ⟨unnoticed_of_same_commands, fun h _ => h.aligned.2.symm⟩

/-- The clock is set forward by the timeout right after the construction, and the
    idle server is shut down in the first call, five seconds after the start. Or
    it is set back by an hour after the first call, and the second one does
    nothing, though the server is wanted. -/
theorem clock_steps_noticed :
    let elapsed (k : Nat) : Int := 5000000000 * k
    let steady (_ : Nat) : Int := 3600000000000
    let forward (k : Nat) : Int := if k = 0 then 3600000000000 else 4200000000000
    let back (k : Nat) : Int := if k ≤ 1 then 3600000000000 else 0
    let idle (_ : Nat) : Inputs := .calm 0 .kHostActive .kHostInactive
    (∀ k, exactPlus 0 testConfig.controlInterval ≤ clock elapsed steady k ∧
      exactPlus 0 testConfig.controlInterval ≤ clock elapsed forward k ∧
      exactPlus 0 testConfig.controlInterval ≤ clock elapsed back k) ∧
    commandsAt exactPlus testConfig (clock elapsed steady) idle 1 = [[]] ∧
    commandsAt exactPlus testConfig (clock elapsed forward) idle 1 =
      [[.shutdown "ServerIp" "user"]] ∧
    commandsAt exactPlus testConfig (clock elapsed steady) (fun _ => wanted) 2 =
      [[.wol "MAC"], [.wol "MAC"]] ∧
    commandsAt exactPlus testConfig (clock elapsed back) (fun _ => wanted) 2 =
      [[], [.wol "MAC"]] := by
  intro elapsed steady forward back idle
  refine ⟨?_, ?_⟩
  · intro k
    simp only [exactPlus, testConfig, clock, elapsed, steady, forward, back]
    split_ifs <;> omega
  · decide +zetaReduce

/-! ## A clock that is wrong from the start -/

/-- If the first call is effective at both readings, a clock that is wrong by a
    fixed amount moves all later times by that amount. -/
theorem lastEffective_shift {d : Int} (h : exactPlus 0 config.controlInterval ≤ r 1)
    (h' : exactPlus 0 config.controlInterval ≤ r 1 + d) :
    lastEffective exactPlus config (fun k => r k + d) (n + 1) =
      lastEffective exactPlus config r (n + 1) + d := by
  induction n with
  | zero => rw [lastEffective, lastEffective, lastEffective, lastEffective, if_pos h, if_pos h']
  | succ n ih =>
    rw [lastEffective, ih, lastEffective.eq_2 exactPlus config r (n + 1)]
    simp only [exactPlus]
    split_ifs <;> omega

theorem isEffective_shift {d : Int} (h : exactPlus 0 config.controlInterval ≤ r 1)
    (h' : exactPlus 0 config.controlInterval ≤ r 1 + d) (k : Nat) :
    IsEffective exactPlus config r k ↔ IsEffective exactPlus config (fun k => r k + d) k := by
  match k with
  | 0 => exact Iff.rfl
  | 1 => exact iff_of_true h h'
  | k + 2 =>
    rw [IsEffective, IsEffective, lastEffective_shift h h']
    simp only [exactPlus]
    omega

/-- A clock that is wrong from the start by a fixed amount does not matter. -/
theorem same_commands_of_shift {d : Int} (h : exactPlus 0 config.controlInterval ≤ r 1)
    (h' : exactPlus 0 config.controlInterval ≤ r 1 + d) :
    commandsAt exactPlus config (fun k => r k + d) inputs n =
      commandsAt exactPlus config r inputs n := by
  have hunnoticed : Unnoticed exactPlus config r (fun k => r k + d) n := by
    intro k _
    refine ⟨isEffective_shift h h' k, ?_⟩
    intro _ j _ _
    simp only [exactPlus]
    omega
  exact hunnoticed.aligned.2

end ServerController

end Hostcontrold
