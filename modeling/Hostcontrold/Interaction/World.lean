import Hostcontrold.Interaction.Program

/-!
# Worlds and crash triples

A *world* says which answers the environment may give, and how it changes with
the events: a labelled transition relation on its states. A list of events
evolves the world from one state to another (`Evolves`). A handler is a world, too
(`World.ofHandler`): an execution goes through its states (`evolves_after`).

A *crash triple* (`Triple M P p Q C`) is a Hoare triple with a third assertion:
started in a state satisfying `P`, the program `p` ends in one satisfying `Q`,
and at every point on the way, where it may be killed, the state satisfies `C`.
The rules follow the structure of programs: `Triple.pure`, `Triple.bind`, and
`Triple.perform` for a single operation.
-/

namespace Interaction

universe u v

variable {Op : Type u} {Ans : Op → Type v} {α β : Type v} {W : Type*}

/-- How the state of the environment may change with an event. -/
abbrev World (Ans : Op → Type v) (W : Type*) := W → Event Ans → W → Prop

/-- The events `tr` may take the world from `w` to `w'`. -/
inductive Evolves (M : World Ans W) : W → List (Event Ans) → W → Prop
  | nil (w : W) : Evolves M w [] w
  | cons {w w' w'' : W} {e : Event Ans} {tr : List (Event Ans)} :
      M w e w' → Evolves M w' tr w'' → Evolves M w (e :: tr) w''

variable {M : World Ans W} {w w' w'' : W} {e : Event Ans} {tr tr' : List (Event Ans)}

@[simp]
theorem evolves_nil_iff : Evolves M w [] w' ↔ w' = w := by
  constructor
  · rintro ⟨⟩
    rfl
  · rintro rfl
    exact .nil _

@[simp]
theorem evolves_cons_iff : Evolves M w (e :: tr) w'' ↔ ∃ w', M w e w' ∧ Evolves M w' tr w'' := by
  constructor
  · rintro ⟨⟩
    exact ⟨_, ‹_›, ‹_›⟩
  · rintro ⟨_, h, h'⟩
    exact .cons h h'

theorem evolves_append_iff :
    Evolves M w (tr ++ tr') w'' ↔ ∃ w', Evolves M w tr w' ∧ Evolves M w' tr' w'' := by
  induction tr generalizing w with
  | nil => simp
  | cons e tr ih =>
    simp only [List.cons_append, evolves_cons_iff, ih]
    constructor
    · rintro ⟨w₁, he, w₂, h, h'⟩
      exact ⟨w₂, ⟨w₁, he, h⟩, h'⟩
    · rintro ⟨w₂, ⟨w₁, he, h⟩, h'⟩
      exact ⟨w₁, he, w₂, h, h'⟩

/-- Every part of some events goes through some of the states. -/
theorem Evolves.of_mem_flatten {trs : List (List (Event Ans))} (h : Evolves M w trs.flatten w')
    (htr : tr ∈ trs) : ∃ w₁ w₂, Evolves M w₁ tr w₂ := by
  obtain ⟨before, after, rfl⟩ := List.append_of_mem htr
  rw [List.flatten_append, List.flatten_cons] at h
  obtain ⟨_, -, h⟩ := evolves_append_iff.1 h
  obtain ⟨_, h, -⟩ := evolves_append_iff.1 h
  exact ⟨_, _, h⟩

theorem Evolves.mono {M' : World Ans W} (h : Evolves M w tr w')
    (hM : ∀ w e w', M w e w' → M' w e w') : Evolves M' w tr w' := by
  induction h with
  | nil w => exact .nil w
  | cons he _ ih => exact .cons (hM _ _ _ he) ih

/-- A property no event destroys lasts. -/
theorem Evolves.preserves (h : Evolves M w tr w') {I : W → Prop}
    (hI : ∀ e ∈ tr, ∀ w w', I w → M w e w' → I w') (hw : I w) : I w' := by
  induction h with
  | nil w => exact hw
  | cons he _ ih =>
    exact ih (fun e h => hI e (List.mem_cons_of_mem _ h)) (hI _ List.mem_cons_self _ _ hw he)

/-- The world of a handler: it answers and changes as the handler does. -/
def World.ofHandler (h : Handler Ans W) : World Ans W := fun w e w' => h e.op w = (e.ans, w')

/-- An execution takes the world of the handler to its final state. -/
theorem evolves_exec (h : Handler Ans W) (p : Program Ans α) (w : W) :
    Evolves (World.ofHandler h) w (exec h p w).trace (exec h p w).state := by
  induction p generalizing w with
  | pure a => exact .nil w
  | call op k ih => exact .cons rfl (ih _ _)

/-- A run that gets the answers of a handler is the execution against it. -/
theorem exec_of_evolves {h : Handler Ans W} {p : Program Ans α} {a : α} (hp : Runs p tr a)
    (hM : Evolves (World.ofHandler h) w tr w') : exec h p w = ⟨tr, a, w'⟩ := by
  induction hp generalizing w with
  | pure a =>
    obtain rfl := evolves_nil_iff.1 hM
    rfl
  | @call op k x tr a _ ih =>
    obtain ⟨w₁, he, hrest⟩ := evolves_cons_iff.1 hM
    have he : h op w = (x, w₁) := he
    rw [exec, he]
    dsimp only
    rw [ih hrest]

/-- The state of a handler after some events. -/
def Handler.after (h : Handler Ans W) (w : W) (tr : List (Event Ans)) : W :=
  tr.foldl (fun w e => (h e.op w).2) w

theorem Evolves.eq_after {h : Handler Ans W} (hM : Evolves (World.ofHandler h) w tr w') :
    w' = Handler.after h w tr := by
  induction hM with
  | nil w => rfl
  | @cons w w' w'' e tr he _ ih =>
    have he : h e.op w = (e.ans, w') := he
    rw [ih, Handler.after, Handler.after, List.foldl_cons, he]

/-- An execution takes the handler through its states after the first events. -/
theorem evolves_after {h : Handler Ans W} {p : Program Ans α}
    (htr : (exec h p w).trace = tr ++ tr') :
    Evolves (World.ofHandler h) w tr (Handler.after h w tr) := by
  obtain ⟨w', hM, -⟩ := evolves_append_iff.1 (htr ▸ evolves_exec h p w)
  exact hM.eq_after ▸ hM

/-! ## Crash triples -/

/-- Started in `P`, the program `p` ends in `Q`, and is in `C` wherever it may
    be killed: after some of the events of a run. -/
structure Triple (M : World Ans W) (P : W → Prop) (p : Program Ans α) (Q : α → W → Prop)
    (C : W → Prop) : Prop where
  post {w w' : W} {tr : List (Event Ans)} {a : α} :
    P w → Runs p tr a → Evolves M w tr w' → Q a w'
  crash {w w' : W} {tr tr' : List (Event Ans)} {a : α} :
    P w → Runs p (tr ++ tr') a → Evolves M w tr w' → C w'

variable {P P' : W → Prop} {C : W → Prop} {p : Program Ans α} {f : α → Program Ans β}
  {Q Q' : α → W → Prop} {R : β → W → Prop}

theorem Triple.conseq (h : Triple M P' p Q' C) (hP : ∀ w, P w → P' w)
    (hQ : ∀ a w, Q' a w → Q a w) : Triple M P p Q C where
  post hw hp hM := hQ _ _ (h.post (hP _ hw) hp hM)
  crash hw hp hM := h.crash (hP _ hw) hp hM

theorem Triple.pure {a : α} (hQ : ∀ w, P w → Q a w) (hC : ∀ w, P w → C w) :
    Triple M P (pure a) Q C where
  post hw hp hM := by
    obtain ⟨rfl, rfl⟩ := runs_pure_iff.1 hp
    exact evolves_nil_iff.1 hM ▸ hQ _ hw
  crash hw hp hM := by
    obtain ⟨rfl, -⟩ := List.append_eq_nil_iff.1 (runs_pure_iff.1 hp).1
    exact evolves_nil_iff.1 hM ▸ hC _ hw

/-- A single operation: it may be killed before it, or after it. -/
theorem Triple.perform {op : Op} {Q : Ans op → W → Prop}
    (hQ : ∀ w x w', P w → M w ⟨op, x⟩ w' → Q x w') (hC : ∀ w, P w → C w)
    (hC' : ∀ x w, Q x w → C w) : Triple M P (Program.perform op) Q C where
  post hw hp hM := by
    obtain rfl := runs_perform_iff.1 hp
    obtain ⟨w', he, hM⟩ := evolves_cons_iff.1 hM
    exact evolves_nil_iff.1 hM ▸ hQ _ _ _ hw he
  crash {w w' tr tr' a} hw hp hM := by
    cases tr with
    | nil => exact evolves_nil_iff.1 hM ▸ hC _ hw
    | cons e tr =>
      obtain ⟨rfl, h⟩ := List.cons_eq_cons.1 (runs_perform_iff.1 hp)
      obtain ⟨rfl, -⟩ := List.append_eq_nil_iff.1 h
      obtain ⟨w', he, hM⟩ := evolves_cons_iff.1 hM
      exact evolves_nil_iff.1 hM ▸ hC' _ _ (hQ _ _ _ hw he)

/-- A single operation, answered by a handler. -/
theorem Triple.perform_ofHandler {h : Handler Ans W} {op : Op} {Q : Ans op → W → Prop}
    (hQ : ∀ w, P w → Q (h op w).1 (h op w).2) (hC : ∀ w, P w → C w) (hC' : ∀ x w, Q x w → C w) :
    Triple (World.ofHandler h) P (Program.perform op) Q C := by
  refine Triple.perform (fun w x w' hw he => ?_) hC hC'
  have he : h op w = (x, w') := he
  exact (he ▸ hQ w hw : Q (x, w').1 (x, w').2)

/-- An execution of a program against a handler, which may be killed after any event. -/
theorem Triple.crash_after {h : Handler Ans W} (hp : Triple (World.ofHandler h) P p Q C) (hw : P w)
    (htr : (exec h p w).trace = tr ++ tr') : C (Handler.after h w tr) :=
  hp.crash hw (htr ▸ exec_runs h p w) (evolves_after htr)

/-- What holds when an execution of a program against a handler is over. -/
theorem Triple.post_exec {h : Handler Ans W} (hp : Triple (World.ofHandler h) P p Q C) (hw : P w) :
    Q (exec h p w).result (exec h p w).state :=
  hp.post hw (exec_runs h p w) (evolves_exec h p w)

theorem Triple.bind (hp : Triple M P p Q C) (hf : ∀ a, Triple M (Q a) (f a) R C) :
    Triple M P (p >>= f) R C where
  post hw h hM := by
    obtain ⟨_, _, _, h₁, h₂, rfl⟩ := runs_bind_iff.1 h
    obtain ⟨_, hM₁, hM₂⟩ := evolves_append_iff.1 hM
    exact (hf _).post (hp.post hw h₁ hM₁) h₂ hM₂
  crash hw h hM := by
    obtain ⟨tr₁, _, tr₂, h₁, h₂, he⟩ := runs_bind_iff.1 h
    -- The program is killed while running `p`, or after it, in `f`.
    rcases List.append_eq_append_iff.1 he with ⟨t, rfl, -⟩ | ⟨t, rfl, rfl⟩
    · exact hp.crash hw h₁ hM
    · obtain ⟨_, hM₁, hM₂⟩ := evolves_append_iff.1 hM
      exact (hf _).crash (hp.post hw h₁ hM₁) h₂ hM₂

/-- A program whose operations cannot destroy `P`. -/
theorem Triple.of_only {O : Op → Prop} (hp : p.Only O)
    (hO : ∀ e w w', O e.op → P w → M w e w' → P w') (hC : ∀ w, P w → C w) :
    Triple M P p (fun _ => P) C where
  post hw h hM := hM.preserves (fun e he w w' => hO e w w' (h.only hp e he)) hw
  crash hw h hM := hC _ (hM.preserves
    (fun e he w w' => hO e w w' (h.only hp e (List.mem_append_left _ he))) hw)

/-- A program whose operations cannot destroy `P`, and whose results satisfy `R`. -/
theorem Triple.of_each {O : Op → Prop} {R : α → Prop} (hp : p.Each O R)
    (hO : ∀ e w w', O e.op → P w → M w e w' → P w') (hQ : ∀ a w, R a → P w → Q a w)
    (hC : ∀ w, P w → C w) : Triple M P p Q C := by
  have honly : Triple M P p (fun _ => P) C := Triple.of_only (hp.only fun _ => id) hO hC
  exact ⟨fun hw h hM => hQ _ _ (h.each hp) (honly.post hw h hM), honly.crash⟩

end Interaction
