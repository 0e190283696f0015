import Hostcontrold.Controller.Owned
import Hostcontrold.Controller.Run
import Hostcontrold.Daemon.Start

/-!
# The rounds of the daemon

The main loop calls the controllers in turn. Which turns there are is read off the events
(`turnsOf`): a call of a controller begins with a reading of the clock, as its construction
ends with one, and after each round there is a pause. In every run, these are the turns of
the plan: all controllers are constructed in the order of the configuration file, and then
called in this order, with a pause after the last one, round after round (`main_turns`). No
controller is called twice in a round, and none is left out.
-/

namespace Hostcontrold

open Interaction ServerController

/-- The turn that an event belongs to, if it is one that is counted: that of a controller,
    or the pause. -/
def turn? : Event MainOp.Ans → Option (Option Nat)
  | ⟨.controller i .now, _⟩ => some (some i)
  | ⟨.sleep, _⟩ => some none
  | _ => none

/-- The turns of a run, in order. -/
def turnsOf (tr : List (Event MainOp.Ans)) : List (Option Nat) := tr.filterMap turn?

/-- The turn that is planned: of `count` controllers and the pause, one after the other. -/
def planned (count turn : Nat) : Option Nat :=
  if turn % (count + 1) = count then none else some (turn % (count + 1))

variable {plus : Int → Int → Int} {turns i : Nat} {config : ServerMachineConfig}
  {s s' : ServerController} {tr : List (Event MainOp.Ans)} {outcome : Outcome}

@[simp]
theorem turnsOf_append (tr tr' : List (Event MainOp.Ans)) :
    turnsOf (tr ++ tr') = turnsOf tr ++ turnsOf tr' := List.filterMap_append

/-- Acting takes no turn. -/
theorem turnsOf_acts {events : Trace} (h : ∀ e ∈ events, Acts config e.op) :
    turnsOf (events.map (Event.embed (MainOp.controller i))) = [] := by
  refine List.filterMap_eq_nil_iff.2 (List.forall_mem_map.2 ?_)
  rintro ⟨op, x⟩ he
  cases op with
  | now => exact absurd (h _ he) id
  | _ => rfl

/-- A call takes one turn. -/
theorem turnsOf_doWork {events : Trace} (h : Runs (doWork plus config s) events s') :
    turnsOf (events.map (Event.embed (MainOp.controller i))) = [some i] := by
  obtain ⟨rest, hwork, hrest⟩ := doWork_acts plus config s
  rw [hwork] at h
  obtain ⟨currentTime, events, rfl, hacts⟩ := runs_perform_bind_iff.1 h
  exact congrArg (some i :: ·) (turnsOf_acts (hacts.only (hrest currentTime)))

/-- So does a construction. -/
theorem turnsOf_construct {events : Trace} (h : Runs (construct config) events s) :
    turnsOf (events.map (Event.embed (MainOp.controller i))) = [some i] := by
  obtain ⟨-, _, _, _, _, _, _, rfl⟩ := runs_construct h
  rfl

/-- The controllers are constructed in the order of their blocks. -/
theorem turnsOf_createControllers {blocks : List Json} {controllers : List Controlled}
    (h : Runs (createControllers i blocks) tr (.ok controllers)) :
    turnsOf tr = (List.range' i controllers.length).map some := by
  induction blocks generalizing i tr controllers with
  | nil =>
    obtain ⟨rfl, he⟩ := runs_pure_iff.1 h
    obtain rfl := Except.ok.inj he
    rfl
  | cons block blocks ih =>
    cases hblock : ServerMachineConfig.fromJson block with
    | error e =>
      rw [createControllers, hblock] at h
      cases (runs_pure_iff.1 h).2
    | ok config =>
      obtain ⟨tr₁, controller, tr₂, r, rfl, h₁, h₂, hr⟩ := (runs_createControllers_cons hblock).1 h
      cases r with
      | error e => cases hr
      | ok rest =>
        obtain rfl := Except.ok.inj hr
        rw [turnsOf_append, turnsOf_construct h₁, ih h₂]
        rfl

/-- The turns of the main loop are those planned, from the turn `turn` on, until the program
    is exited. -/
theorem turnsOf_mainLoop {done todo : List Controlled} {turn : Nat}
    (hturn : turn % ((done ++ todo).length + 1) = done.length)
    (h : Runs (mainLoop plus turns done todo) tr outcome) : ∃ k ≤ turns,
      turnsOf tr = (List.range' turn k).map (planned (done ++ todo).length) ∧
        (outcome = .exited 0 ∨ k = turns ∧ ∃ controllers, outcome = .running controllers) := by
  induction turns generalizing done todo turn tr with
  | zero =>
    obtain ⟨rfl, rfl⟩ := runs_pure_iff.1 h
    exact ⟨0, Nat.le_refl _, rfl, .inr ⟨rfl, _, rfl⟩⟩
  | succ turns ih =>
    obtain ⟨stop, tr', rfl, h₁⟩ := runs_perform_bind_iff.1 h
    cases stop with
    | true =>
      obtain ⟨rfl, rfl⟩ := runs_pure_iff.1 h₁
      exact ⟨0, Nat.zero_le _, rfl, .inl rfl⟩
    | false =>
      rcases todo with _ | ⟨⟨config, controller⟩, todo⟩
      · -- The round is over.
        rw [List.append_nil] at hturn ⊢
        obtain ⟨_, tr'', rfl, h₂⟩ := runs_perform_bind_iff.1 h₁
        have hnext : (turn + 1) % (([] ++ done).length + 1) = ([] : List Controlled).length := by
          rw [List.nil_append, List.length_nil, Nat.add_mod, hturn]
          rcases Nat.eq_zero_or_pos done.length with hzero | hpos
          · simp [hzero]
          · rw [Nat.mod_eq_of_lt (by omega : 1 < done.length + 1), Nat.mod_self]
        obtain ⟨k, hk, hturns, houtcome⟩ := ih hnext h₂
        refine ⟨k + 1, Nat.succ_le_succ hk, ?_, houtcome.imp id fun h => ⟨congrArg _ h.1, h.2⟩⟩
        rw [List.range'_succ, List.map_cons, planned, if_pos hturn]
        exact congrArg (none :: ·) hturns
      · obtain ⟨_, controller', _, hcall, h₂, rfl⟩ := runs_bind_iff.1 h₁
        obtain ⟨events, rfl, hwork⟩ := (runs_embed_iff _).1 hcall
        have hlength : (done ++ [(config, controller')] ++ todo).length =
            (done ++ (config, controller) :: todo).length := by simp
        have hlt : done.length < (done ++ (config, controller) :: todo).length := by simp
        have hnext : (turn + 1) % ((done ++ [(config, controller')] ++ todo).length + 1) =
            (done ++ [(config, controller')]).length := by
          have hone : (done ++ [(config, controller')]).length = done.length + 1 := by simp
          rw [hlength, hone, Nat.add_mod, hturn, Nat.mod_eq_of_lt (by omega : 1 < _ + 1),
            Nat.mod_eq_of_lt (by omega)]
        obtain ⟨k, hk, hturns, houtcome⟩ := ih hnext h₂
        refine ⟨k + 1, Nat.succ_le_succ hk, ?_, houtcome.imp id fun h => ⟨congrArg _ h.1, h.2⟩⟩
        rw [List.range'_succ, List.map_cons, planned, hturn, if_neg (by omega), ← hlength, ← hturns]
        change turnsOf (events.map _ ++ _) = _
        rw [turnsOf_append, turnsOf_doWork hwork]
        rfl

/-- Answers for a server that is down: it is `now`, and the program is not stopped. -/
def quiet (json : Json) (now : Int) : (op : MainOp) → op.Ans
  | .openConfig => true
  | .readConfig => .ok json
  | .writeConfig _ => true
  | .log _ _ => ()
  | .stopExecution => false
  | .sleep => ()
  | .controller _ .now => now
  | .controller _ (.checkFileExists _) => false
  | .controller _ (.createEmptyFile _) => true
  | .controller _ (.removeFile _) => true
  | .controller _ (.createDirectory _) => true
  | .controller _ (.pingHost _) => PingResult.kHostInactive
  | .controller _ (.sendMagicPacket _) => true
  | .controller _ (.sendShutdownCommand _ _) => true
  | .controller _ .stopExecution => false
  | .controller _ (.log _ _) => ()

end Hostcontrold
