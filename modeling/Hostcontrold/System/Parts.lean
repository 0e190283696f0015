import Hostcontrold.Daemon.Rounds
import Hostcontrold.System.Operations

/-!
# Who does what

The events of the daemon on the system do not tell which controller they belong to. But a
run comes in parts, each done by one controller, or by the program itself (`Attributed`):
the first part of every controller is its construction, and the other ones are its calls.
So every controller performs a run of its own (`IsSystemRun`), whatever the other ones do
in between (`exists_attributed`).
-/

namespace Hostcontrold

open Interaction ServerController

variable {plus : Int → Int → Int} {turns i j : Nat} {config : ServerMachineConfig} {json : Json}
  {outcome : Outcome} {α β : Type}

/-! ## Parts -/

/-- Of things done by the controllers, and by the program itself, those done by the `i`-th
    controller. -/
def partsOf (i : Nat) (parts : List (Option Nat × α)) : List α :=
  (parts.filter fun part => part.1 = some i).map Prod.snd

@[simp]
theorem partsOf_nil : partsOf i ([] : List (Option Nat × α)) = [] := rfl

@[simp]
theorem partsOf_cons (actor : Option Nat) (x : α) (parts : List (Option Nat × α)) :
    partsOf i ((actor, x) :: parts) =
      if actor = some i then x :: partsOf i parts else partsOf i parts := by
  by_cases h : actor = some i <;> simp [partsOf, h]

@[simp]
theorem partsOf_append (parts parts' : List (Option Nat × α)) :
    partsOf i (parts ++ parts') = partsOf i parts ++ partsOf i parts' := by
  simp [partsOf]

theorem partsOf_forall₂ {R : α → β → Prop} {parts : List (Option Nat × α)}
    {parts' : List (Option Nat × β)}
    (h : List.Forall₂ (fun part part' => part.1 = part'.1 ∧ R part.2 part'.2) parts parts') :
    List.Forall₂ R (partsOf i parts) (partsOf i parts') := by
  induction h with
  | nil => exact .nil
  | @cons part part' _ _ hpart _ ih =>
    obtain ⟨actor, x⟩ := part
    obtain ⟨actor', x'⟩ := part'
    obtain ⟨rfl, hx⟩ := hpart
    rw [partsOf_cons, partsOf_cons]
    split_ifs
    · exact .cons hx ih
    · exact ih

/-! ## The parts of the program -/

/-- The calls `trs`, in this order, continue every run of the controller. -/
def Continues (plus : Int → Int → Int) (c : Controlled) (trs : List Trace) : Prop :=
  ∀ tr₀ past, IsRun plus c.1 tr₀ past c.2 → ∃ s', IsRun plus c.1 tr₀ (trs.reverse ++ past) s'

/-- An operation of the program itself. -/
def IsOwn : MainOp → Prop
  | .controller _ _ => False
  | _ => True

/-- The constructions of the controllers are the parts of their creation. -/
theorem parts_createControllers {blocks : List Json} {tr : List (Event MainOp.Ans)}
    {controllers : List Controlled} (h : Runs (createControllers j blocks) tr (.ok controllers)) :
    ∃ parts : List (Option Nat × List (Event MainOp.Ans)), tr = (parts.map Prod.snd).flatten ∧
      (∀ part ∈ parts, part.1 ≠ none) ∧ (∀ i, i < j ∨ j + controllers.length ≤ i →
        partsOf i parts = []) ∧
      ∀ k c, controllers[k]? = some c → ∃ events, Runs (construct c.1) events c.2 ∧
        partsOf (j + k) parts = [events.map (Event.embed (MainOp.controller (j + k)))] := by
  induction blocks generalizing j tr controllers with
  | nil =>
    obtain ⟨rfl, he⟩ := runs_pure_iff.1 h
    obtain rfl := Except.ok.inj he
    exact ⟨[], rfl, fun _ h => absurd h List.not_mem_nil, fun _ _ => rfl, by simp⟩
  | cons block blocks ih =>
    cases hblock : ServerMachineConfig.fromJson block with
    | error e =>
      rw [createControllers, hblock] at h
      cases (runs_pure_iff.1 h).2
    | ok config =>
      obtain ⟨events, controller, tr₂, r, rfl, h₁, h₂, hr⟩ :=
        (runs_createControllers_cons hblock).1 h
      cases r with
      | error e => cases hr
      | ok rest =>
        obtain rfl := Except.ok.inj hr
        obtain ⟨parts, rfl, hactor, hothers, hconstructed⟩ := ih h₂
        refine ⟨(some j, events.map (Event.embed (MainOp.controller j))) :: parts, rfl,
          List.forall_mem_cons.2 ⟨Option.some_ne_none _, hactor⟩, ?_, ?_⟩
        · intro i hi
          rw [List.length_cons] at hi
          rw [partsOf_cons, if_neg (by simp; omega), hothers i (by omega)]
        · intro k c hk
          cases k with
          | zero =>
            obtain rfl := Option.some.inj hk
            refine ⟨events, h₁, ?_⟩
            rw [Nat.add_zero, partsOf_cons, if_pos rfl, hothers j (by omega)]
          | succ k =>
            obtain ⟨events', hrun, hparts⟩ := hconstructed k c hk
            rw [Nat.add_right_comm] at hparts
            refine ⟨events', hrun, ?_⟩
            rw [partsOf_cons, if_neg (by simp)]
            exact hparts

theorem Continues.nil (c : Controlled) : Continues plus c [] :=
  fun _ _ hrun => ⟨_, hrun⟩

theorem Continues.cons {s s' : ServerController} {events : Trace} {trs : List Trace}
    (hwork : Runs (doWork plus config s) events s') (h : Continues plus (config, s') trs) :
    Continues plus (config, s) (events :: trs) := by
  intro tr₀ past hrun
  obtain ⟨s'', hrun'⟩ := h tr₀ _ (hrun.call hwork)
  refine ⟨s'', ?_⟩
  rwa [List.reverse_cons, List.append_assoc]

/-- The calls of the controllers are parts of the main loop. -/
theorem parts_mainLoop {done todo : List Controlled} {tr : List (Event MainOp.Ans)}
    (h : Runs (mainLoop plus turns done todo) tr outcome) :
    ∃ parts : List (Option Nat × List (Event MainOp.Ans)), tr = (parts.map Prod.snd).flatten ∧
      (∀ part ∈ parts, part.1 = none → ∀ e ∈ part.2, IsOwn e.op) ∧
      (∀ i, (done ++ todo).length ≤ i → partsOf i parts = []) ∧
      ∀ i c, (done ++ todo)[i]? = some c → ∃ trs, Continues plus c trs ∧
        partsOf i parts = trs.map (List.map (Event.embed (MainOp.controller i))) := by
  induction turns generalizing done todo tr with
  | zero =>
    obtain ⟨rfl, -⟩ := runs_pure_iff.1 h
    exact ⟨[], rfl, nofun, fun _ _ => rfl, fun _ c _ => ⟨[], .nil c, rfl⟩⟩
  | succ turns ih =>
    obtain ⟨stop, tr', rfl, h₁⟩ := runs_perform_bind_iff.1 h
    cases stop with
    | true =>
      obtain ⟨rfl, -⟩ := runs_pure_iff.1 h₁
      exact ⟨[(none, [⟨.stopExecution, true⟩])], rfl, by simp [IsOwn], fun _ _ => rfl,
        fun _ c _ => ⟨[], .nil c, rfl⟩⟩
    | false =>
      rcases todo with _ | ⟨⟨config, controller⟩, todo⟩
      · -- The round is over.
        obtain ⟨_, tr'', rfl, h₂⟩ := runs_perform_bind_iff.1 h₁
        obtain ⟨parts, rfl, hown, hothers, hcalls⟩ := ih h₂
        rw [List.append_nil]
        exact ⟨(none, [⟨.stopExecution, false⟩, ⟨.sleep, ()⟩]) :: parts, rfl,
          List.forall_mem_cons.2 ⟨by simp [IsOwn], hown⟩, hothers, hcalls⟩
      · obtain ⟨_, controller', _, hcall, h₂, rfl⟩ := runs_bind_iff.1 h₁
        obtain ⟨events, rfl, hwork⟩ := (runs_embed_iff _).1 hcall
        obtain ⟨parts, rfl, hown, hothers, hcalls⟩ := ih h₂
        refine ⟨(none, [⟨.stopExecution, false⟩]) :: (some done.length,
          events.map (Event.embed (MainOp.controller done.length))) :: parts, rfl, ?_, ?_, ?_⟩
        · exact List.forall_mem_cons.2 ⟨by simp [IsOwn], List.forall_mem_cons.2 ⟨nofun, hown⟩⟩
        · intro i hi
          have hparts := hothers i (by simpa using hi)
          rw [List.length_append, List.length_cons] at hi
          rw [partsOf_cons, partsOf_cons, if_neg nofun, if_neg (by simp; omega), hparts]
        · intro i c hi
          rw [partsOf_cons, if_neg nofun, partsOf_cons]
          split_ifs with hactor
          · -- This controller has been called.
            obtain rfl := Option.some.inj hactor
            obtain rfl : (config, controller) = c := by simpa using hi
            obtain ⟨trs, hcontinues, hparts⟩ := hcalls done.length (config, controller') (by simp)
            exact ⟨events :: trs, .cons hwork hcontinues, congrArg (_ :: ·) hparts⟩
          · refine hcalls i c ?_
            have hne : i ≠ done.length := fun he => hactor (congrArg some he.symm)
            rw [← hi]
            rcases Nat.lt_or_gt_of_ne hne with hlt | hgt
            · rw [List.append_assoc, List.getElem?_append_left hlt, List.getElem?_append_left hlt]
            · obtain ⟨k, hk⟩ := Nat.exists_eq_succ_of_ne_zero (Nat.sub_ne_zero_of_lt hgt)
              rw [List.append_assoc, List.getElem?_append_right (Nat.le_of_lt hgt),
                List.getElem?_append_right (Nat.le_of_lt hgt), hk]
              rfl

/-! ## The parts of the daemon -/

/-- An operation of the system by the program itself. -/
def IsOwnSystem : SystemOp → Prop
  | .openConfig | .readConfig | .writeConfig _ | .sleep | .stopExecution | .log _ _ => True
  | _ => False

variable (plus config) in
/-- The runs of a controller on the system: the events of its construction, those of its
    calls (the latest first), and the state reached. -/
inductive IsSystemRun : SystemTrace → List SystemTrace → ServerController → Prop
  | construct {tr : SystemTrace} {s : ServerController} :
      Runs ((construct config).interpret deploy) tr s → IsSystemRun tr [] s
  | call {tr₀ tr : SystemTrace} {trs : List SystemTrace} {s s' : ServerController} :
      IsSystemRun tr₀ trs s → Runs ((doWork plus config s).interpret deploy) tr s' →
      IsSystemRun tr₀ (tr :: trs) s'

variable {tr₀ : SystemTrace} {trs : List SystemTrace} {s : ServerController}

/-- A run on the system implements a run. -/
theorem isSystemRun_iff : IsSystemRun plus config tr₀ trs s ↔ ∃ tr₀' trs',
    IsRun plus config tr₀' trs' s ∧ Implements deploy tr₀' tr₀ ∧
      List.Forall₂ (Implements deploy) trs' trs := by
  constructor
  · intro h
    induction h with
    | construct hrun =>
      obtain ⟨tr₀', hrun', himpl⟩ := runs_interpret_iff.1 hrun
      exact ⟨tr₀', [], .construct hrun', himpl, .nil⟩
    | call _ hrun ih =>
      obtain ⟨tr₀', trs', hisRun, himpl₀, himpls⟩ := ih
      obtain ⟨tr', hrun', himpl⟩ := runs_interpret_iff.1 hrun
      exact ⟨tr₀', tr' :: trs', hisRun.call hrun', himpl₀, .cons himpl himpls⟩
  · rintro ⟨tr₀', trs', h, himpl₀, himpls⟩
    induction h generalizing trs with
    | construct hrun =>
      obtain ⟨⟩ := himpls
      exact .construct (runs_interpret_iff.2 ⟨_, hrun, himpl₀⟩)
    | call _ hrun ih =>
      obtain _ | ⟨himpl, himpls⟩ := himpls
      exact .call (ih himpls) (runs_interpret_iff.2 ⟨_, hrun, himpl⟩)

variable (plus) in
/-- A run of the daemon with the configuration `json`, in parts: those of each controller
    are its construction and its calls, and the other ones are done by the program. -/
structure Attributed (json : Json) (tr : SystemTrace) (parts : List (Option Nat × SystemTrace)) :
    Prop where
  flatten : tr = (parts.map Prod.snd).flatten
  read : ⟨.readConfig, .ok json⟩ ∈ tr
  own : ∀ part ∈ parts, part.1 = none → ∀ e ∈ part.2, IsOwnSystem e.op
  controllers : ∀ i config, (servers json)[i]? = some config → ∃ tr₀ trs s,
    partsOf i parts = tr₀ :: trs.reverse ∧ IsSystemRun plus config tr₀ trs s
  others : ∀ i, (servers json).length ≤ i → partsOf i parts = []

theorem implements_embed_controller {events : Trace} {tr : SystemTrace} :
    Implements deployMain (events.map (Event.embed (MainOp.controller i))) tr ↔
      Implements deploy events tr := by
  induction events generalizing tr with
  | nil => rw [List.map_nil, implements_nil_iff, implements_nil_iff]
  | cons e events ih =>
    obtain ⟨op, x⟩ := e
    rw [implements_cons_iff, List.map_cons]
    refine implements_cons_iff.trans ?_
    simp only [ih]
    rfl

theorem servers_of_created {controllers : List Controlled}
    (h : List.Forall₂ CreatedFor json.elements controllers) :
    servers json = controllers.map Prod.fst := by
  rw [servers]
  generalize json.elements = blocks at h
  induction h with
  | nil => rfl
  | cons hcreated _ ih =>
    rw [List.filterMap_cons, hcreated.1, List.map_cons, ← ih]
    rfl

/-- The program does something itself: on the system, too. -/
theorem isOwnSystem {trs : List (Event MainOp.Ans)} {tr : SystemTrace}
    (h : Implements deployMain trs tr) (hown : ∀ e ∈ trs, IsOwn e.op) :
    ∀ e ∈ tr, IsOwnSystem e.op := by
  refine h.only (P := fun e => IsOwn e.op) hown ?_
  rintro ⟨op, x⟩ hop
  cases op with
  | controller => cases hop
  | _ => exact (only_perform_iff _).2 trivial

/-- The parts of a run are implemented one by one, and those of the program by itself. -/
theorem implements_parts {parts : List (Option Nat × List (Event MainOp.Ans))} {tr : SystemTrace}
    (h : Implements deployMain (parts.map Prod.snd).flatten tr)
    (hown : ∀ part ∈ parts, part.1 = none → ∀ e ∈ part.2, IsOwn e.op) :
    ∃ parts' : List (Option Nat × SystemTrace), tr = (parts'.map Prod.snd).flatten ∧
      (∀ part ∈ parts', part.1 = none → ∀ e ∈ part.2, IsOwnSystem e.op) ∧
      List.Forall₂ (fun part part' => part.1 = part'.1 ∧ Implements deployMain part.2 part'.2)
        parts parts' := by
  induction parts generalizing tr with
  | nil =>
    obtain rfl := implements_nil_iff.1 h
    exact ⟨[], rfl, nofun, .nil⟩
  | cons part parts ih =>
    obtain ⟨tr₁, _, rfl, h₁, h₂⟩ := implements_append_iff.1 h
    obtain ⟨hpart, hrest⟩ := List.forall_mem_cons.1 hown
    obtain ⟨parts', rfl, hown', hparts⟩ := ih h₂ hrest
    exact ⟨(part.1, tr₁) :: parts', rfl,
      List.forall_mem_cons.2 ⟨fun hnone => isOwnSystem h₁ (hpart hnone), hown'⟩,
      .cons ⟨rfl, h₁⟩ hparts⟩

/-- Every run of the daemon that enters its loop can be taken apart. -/
theorem exists_attributed {tr : SystemTrace} (h : Runs (daemon plus turns) tr outcome)
    (hloop : outcome = .exited 0 ∨ ∃ controllers, outcome = .running controllers) :
    ∃ json parts, Attributed plus json tr parts := by
  obtain ⟨trs, hmain, himpl⟩ := runs_interpret_iff.1 h
  rcases runs_main_cases hmain with ⟨_, rfl, rfl⟩ | ⟨read, trs, rfl, hafter⟩
  · simp at hloop
  cases hafter with
  | parseError | otherError | notDecoded => simp at hloop
  | @loop json tr₁ tr₂ controllers _ hcreate hrun =>
    obtain ⟨created, rfl, hcreated, hothers, hconstructed⟩ := parts_createControllers hcreate
    obtain ⟨called, rfl, hown, hothers', hcalled⟩ := parts_mainLoop hrun
    rw [List.nil_append] at hothers' hcalled
    have hservers : servers json = controllers.map Prod.fst := by
      rcases runs_createControllers hcreate with ⟨_, hr, hcreated⟩ | ⟨_, _, _, _, _, hr, -⟩
      · obtain rfl := Except.ok.inj hr
        exact servers_of_created hcreated
      · cases hr
    have hconcat : readEvents (.ok json) ++
        ((created.map Prod.snd).flatten ++ (called.map Prod.snd).flatten) =
        (((none, readEvents (.ok json)) :: (created ++ called)).map Prod.snd).flatten := by
      simp
    have howns : ∀ part ∈ (none, readEvents (.ok json)) :: (created ++ called),
        part.1 = none → ∀ e ∈ part.2, IsOwn e.op := by
      refine List.forall_mem_cons.2 ⟨by simp [readEvents, IsOwn], ?_⟩
      exact List.forall_mem_append.2 ⟨fun part hpart h => absurd h (hcreated part hpart), hown⟩
    obtain ⟨parts, rfl, hown', hparts⟩ := implements_parts (hconcat ▸ himpl) howns
    have hpartsOf (i : Nat) := partsOf_forall₂ (i := i) hparts
    simp only [partsOf_cons, partsOf_append, reduceCtorEq, if_false] at hpartsOf
    refine ⟨json, parts, rfl, ?_, hown', ?_, ?_⟩
    · obtain _ | ⟨⟨-, hread⟩, -⟩ := hparts
      simp [implements_readEvents hread]
    · intro i config hi
      rw [hservers, List.getElem?_map] at hi
      obtain ⟨c, hc, rfl⟩ := Option.map_eq_some_iff.1 hi
      obtain ⟨events, hconstruct, hparts₁⟩ := hconstructed i c hc
      obtain ⟨trs, hcontinues, hparts₂⟩ := hcalled i c hc
      have hi := hpartsOf i
      rw [Nat.zero_add] at hparts₁
      rw [hparts₁, hparts₂] at hi
      obtain ⟨tr₀, rest, hfirst, hrest, hpartsOf⟩ := List.forall₂_cons_left_iff.1 hi
      obtain ⟨s', hisRun⟩ := hcontinues events [] (.construct hconstruct)
      rw [List.append_nil] at hisRun
      have hcalls : List.Forall₂ (Implements deploy) trs rest :=
        (List.forall₂_map_left_iff.1 hrest).imp fun _ _ => implements_embed_controller.1
      refine ⟨tr₀, rest.reverse, s', ?_, isSystemRun_iff.2 ⟨events, trs.reverse, hisRun, ?_, ?_⟩⟩
      · rw [List.reverse_reverse, hpartsOf]
      · exact implements_embed_controller.1 hfirst
      · exact List.forall₂_reverse_iff.2 hcalls
    · intro i hi
      rw [hservers, List.length_map] at hi
      have hnone := hpartsOf i
      rw [hothers i (by omega), hothers' i hi] at hnone
      exact List.forall₂_nil_left_iff.1 hnone

end Hostcontrold
