import Hostcontrold.Interaction.Embedding
import Hostcontrold.Interaction.Interpretation

/-!
# Guarded programs

A resource of the environment is used by a protocol: a descriptor is opened before it is
used, and closed afterwards. Which state of the world each event needs is a *guard*
`G e w`. `Guarded M G P p Q` is a triple for guards: started in a state satisfying `P`,
all events of the program `p` happen in states that satisfy their guards, and `p` ends in
a state satisfying `Q`.

Of a program whose operations are implemented by programs, it is enough to know that the
implementations are guarded and give back what they took (`Guarded.interpret`).
-/

namespace Interaction

universe u u' v

variable {Op : Type u} {Op' : Type u'} {Ans : Op → Type v} {Ans' : Op' → Type v} {α β : Type v}
  {W : Type*}

/-- The events of an embedded program change the world as events of the larger one. -/
theorem evolves_map_embed_iff {inj : Op → Op'} {M : World Ans' W} {w w' : W}
    {tr : List (Event fun op => Ans' (inj op))} :
    Evolves M w (tr.map (Event.embed inj)) w' ↔
      Evolves (fun w e w' => M w (e.embed inj) w') w tr w' := by
  induction tr generalizing w with
  | nil => simp
  | cons e tr ih => simp only [List.map_cons, evolves_cons_iff, ih]

/-- Started in `P`, the events of `p` happen when they are allowed, and `p` ends in `Q`. -/
structure Guarded (M : World Ans W) (G : Event Ans → W → Prop) (P : W → Prop) (p : Program Ans α)
    (Q : α → W → Prop) : Prop where
  post {w w' : W} {tr : List (Event Ans)} {a : α} :
    P w → Runs p tr a → Evolves M w tr w' → Q a w'
  guard {w w' : W} {tr tr' : List (Event Ans)} {e : Event Ans} {a : α} :
    P w → Runs p (tr ++ e :: tr') a → Evolves M w tr w' → G e w'

variable {M : World Ans W} {G : Event Ans → W → Prop} {P : W → Prop} {p : Program Ans α}
  {f : α → Program Ans β} {Q : α → W → Prop} {R : β → W → Prop}

theorem Guarded.pure {a : α} (hQ : ∀ w, P w → Q a w) : Guarded M G P (pure a) Q where
  post hw hp hM := by
    obtain ⟨rfl, rfl⟩ := runs_pure_iff.1 hp
    exact evolves_nil_iff.1 hM ▸ hQ _ hw
  guard _ hp _ := by
    obtain ⟨h, -⟩ := runs_pure_iff.1 hp
    exact absurd h (List.append_ne_nil_of_right_ne_nil _ (List.cons_ne_nil _ _))

/-- A single operation. -/
theorem Guarded.perform {op : Op} {Q : Ans op → W → Prop} (hG : ∀ x w, P w → G ⟨op, x⟩ w)
    (hQ : ∀ w x w', P w → M w ⟨op, x⟩ w' → Q x w') : Guarded M G P (Program.perform op) Q where
  post hw hp hM := by
    obtain rfl := runs_perform_iff.1 hp
    obtain ⟨w', he, hM⟩ := evolves_cons_iff.1 hM
    exact evolves_nil_iff.1 hM ▸ hQ _ _ _ hw he
  guard {w w' tr tr' e a} hw hp hM := by
    have he := runs_perform_iff.1 hp
    cases tr with
    | nil =>
      obtain ⟨rfl, -⟩ := List.cons_eq_cons.1 he
      exact evolves_nil_iff.1 hM ▸ hG _ _ hw
    | cons e' tr =>
      obtain ⟨-, h⟩ := List.cons_eq_cons.1 he
      exact absurd h (List.append_ne_nil_of_right_ne_nil _ (List.cons_ne_nil _ _))

theorem Guarded.bind (hp : Guarded M G P p Q) (hf : ∀ a, Guarded M G (Q a) (f a) R) :
    Guarded M G P (p >>= f) R where
  post hw h hM := by
    obtain ⟨_, _, _, h₁, h₂, rfl⟩ := runs_bind_iff.1 h
    obtain ⟨_, hM₁, hM₂⟩ := evolves_append_iff.1 hM
    exact (hf _).post (hp.post hw h₁ hM₁) h₂ hM₂
  guard hw h hM := by
    obtain ⟨tr₁, _, tr₂, h₁, h₂, he⟩ := runs_bind_iff.1 h
    -- The event is one of `p`, or of what comes after it.
    rcases List.append_eq_append_iff.1 he with ⟨t, rfl, ht⟩ | ⟨t, rfl, rfl⟩
    · cases t with
      | nil =>
        obtain rfl : _ :: _ = tr₂ := ht
        rw [List.append_nil] at h₁
        exact (hf _).guard (hp.post hw h₁ hM) h₂ (.nil _)
      | cons e' t =>
        obtain ⟨rfl, -⟩ := List.cons_eq_cons.1 ht
        exact hp.guard hw h₁ hM
    · obtain ⟨_, hM₁, hM₂⟩ := evolves_append_iff.1 hM
      exact (hf _).guard (hp.post hw h₁ hM₁) h₂ hM₂

theorem Guarded.conseq {P' : W → Prop} {Q' : α → W → Prop} (h : Guarded M G P' p Q')
    (hP : ∀ w, P w → P' w) (hQ : ∀ a w, Q' a w → Q a w) : Guarded M G P p Q where
  post hw hp hM := hQ _ _ (h.post (hP _ hw) hp hM)
  guard hw hp hM := h.guard (hP _ hw) hp hM

/-- A program whose operations are allowed in `P`, and do not destroy it. -/
theorem Guarded.of_only {O : Op → Prop} (hp : p.Only O) (hG : ∀ e w, O e.op → P w → G e w)
    (hO : ∀ e w w', O e.op → P w → M w e w' → P w') : Guarded M G P p fun _ => P where
  post hw h hM := hM.preserves (fun e he w w' => hO e w w' (h.only hp e he)) hw
  guard hw h hM := by
    have honly := List.forall_mem_append.1 (h.only hp)
    refine hG _ _ (honly.2 _ List.mem_cons_self) ?_
    exact hM.preserves (fun e he w w' => hO e w w' (honly.1 e he)) hw

/-- A program as a part of a larger one: only its own events happen. -/
theorem Guarded.embed {inj : Op → Op'} {Ans' : Op' → Type v} {M : World Ans' W}
    {G : Event Ans' → W → Prop} {p : Program (fun op => Ans' (inj op)) α} {Q : α → W → Prop}
    (h : Guarded (fun w e w' => M w (e.embed inj) w') (fun e w => G (e.embed inj) w) P p Q) :
    Guarded M G P (p.embed inj) Q where
  post hw hp hM := by
    obtain ⟨tr, rfl, hp'⟩ := (runs_embed_iff inj).1 hp
    exact h.post hw hp' (evolves_map_embed_iff.1 hM)
  guard hw hp hM := by
    obtain ⟨_, he, hp'⟩ := (runs_embed_iff inj).1 hp
    obtain ⟨tr, rest, rfl, rfl, hrest⟩ := List.append_eq_map_iff.1 he
    obtain ⟨e, rest, rfl, rfl, -⟩ := List.map_eq_cons_iff.1 hrest
    exact h.guard hw hp' (evolves_map_embed_iff.1 hM)

/-- If the implementations of its operations are guarded, and keep `P`, so is a program. -/
theorem Guarded.interpret {M : World Ans' W} {G : Event Ans' → W → Prop} {O : Op → Prop}
    {impl : (op : Op) → Program Ans' (Ans op)} (hp : p.Only O)
    (himpl : ∀ op, O op → Guarded M G P (impl op) fun _ => P) :
    Guarded M G P (p.interpret impl) fun _ => P := by
  induction p with
  | pure a => exact Guarded.pure fun _ hw => hw
  | call op k ih => exact (himpl op hp.1).bind fun x => ih x (hp.2 x)

end Interaction
