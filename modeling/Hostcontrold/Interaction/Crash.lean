import Hostcontrold.Interaction.Interpretation

/-!
# Programs that are killed on the lower level

When operations are implemented by programs, a program may be killed in the midst of one
of its operations. This is no worse than being killed between two of them if the
implementations are *atomic*: at every point of it, an operation has not begun to have
an effect, or it has had all of it (`Refinement.interrupted`).

The lower level has a world of its own, of which the upper level sees a `view`. What the
upper level does not see may change at any time: `Same` is what is left unchanged.

* `Refinement.run`: a run on the lower level is one on the upper level.
* `Refinement.killed`: a run killed on the lower level is one killed on the upper level.
* `Triple.interpret`: so crash triples hold on the lower level, too.
-/

namespace Interaction

universe u u' v

variable {Op : Type u} {Op' : Type u'} {Ans : Op → Type v} {Ans' : Op' → Type v} {α : Type v}
  {W W' : Type*}

/-- The operations satisfying `O` are implemented atomically: what happens on the lower
    level is what should happen on the upper level. -/
structure Refinement (impl : (op : Op) → Program Ans' (Ans op)) (O : Op → Prop) (M : World Ans W)
    (M' : World Ans' W') (view : W' → W) (Same : W → W → Prop) : Prop where
  same_refl (w : W) : Same w w
  complete {op : Op} {x : Ans op} {tr : List (Event Ans')} {w w' : W'} : O op →
    Runs (impl op) tr x → Evolves M' w tr w' → M (view w) ⟨op, x⟩ (view w')
  interrupted {op : Op} {x : Ans op} {tr tr' : List (Event Ans')} {w w' : W'} : O op →
    Runs (impl op) (tr ++ tr') x → Evolves M' w tr w' →
    Same (view w) (view w') ∨ M (view w) ⟨op, x⟩ (view w')

namespace Refinement

variable {impl : (op : Op) → Program Ans' (Ans op)} {O : Op → Prop} {M : World Ans W}
  {M' : World Ans' W'} {view : W' → W} {Same : W → W → Prop} {p : Program Ans α}
  {tr tr' : List (Event Ans')} {w w' : W'} {a : α}

/-- A run on the lower level is one on the upper level. -/
theorem run (href : Refinement impl O M M' view Same) (hp : p.Only O)
    (h : Runs (p.interpret impl) tr a) (hM : Evolves M' w tr w') :
    ∃ tr', Runs p tr' a ∧ Implements impl tr' tr ∧ Evolves M (view w) tr' (view w') := by
  induction p generalizing tr w with
  | pure b =>
    obtain ⟨rfl, rfl⟩ := runs_pure_iff.1 h
    obtain rfl := evolves_nil_iff.1 hM
    exact ⟨[], .pure a, .nil, .nil _⟩
  | call op k ih =>
    obtain ⟨tr₁, x, tr₂, hop, hrest, rfl⟩ := runs_bind_iff.1 h
    obtain ⟨w₁, hfirst, hM⟩ := evolves_append_iff.1 hM
    obtain ⟨tr', hk, himpl, hevolves⟩ := ih x (hp.2 x) hrest hM
    exact ⟨⟨op, x⟩ :: tr', .call hk, .cons hop himpl,
      .cons (href.complete hp.1 hop hfirst) hevolves⟩

/-- A run killed on the lower level is one killed on the upper level. -/
theorem killed (href : Refinement impl O M M' view Same) (hp : p.Only O)
    (h : Runs (p.interpret impl) (tr ++ tr') a) (hM : Evolves M' w tr w') :
    ∃ done rest w₁, Runs p (done ++ rest) a ∧ Evolves M (view w) done w₁ ∧ Same w₁ (view w') := by
  induction p generalizing tr w with
  | pure b =>
    obtain ⟨hnil, rfl⟩ := runs_pure_iff.1 h
    obtain ⟨rfl, -⟩ := List.append_eq_nil_iff.1 hnil
    obtain rfl := evolves_nil_iff.1 hM
    exact ⟨[], [], _, .pure a, .nil _, href.same_refl _⟩
  | call op k ih =>
    obtain ⟨tr₁, x, tr₂, hop, hrest, he⟩ := runs_bind_iff.1 h
    -- The program is killed while performing its first operation, or after it.
    rcases List.append_eq_append_iff.1 he with ⟨t, rfl, -⟩ | ⟨t, rfl, rfl⟩
    · obtain ⟨tr₃, hk, -⟩ := runs_interpret_iff.1 hrest
      rcases href.interrupted hp.1 hop hM with hsame | hdone
      · exact ⟨[], ⟨op, x⟩ :: tr₃, _, .call hk, .nil _, hsame⟩
      · exact ⟨[⟨op, x⟩], tr₃, _, .call hk, .cons hdone (.nil _), href.same_refl _⟩
    · obtain ⟨w₁, hfirst, hM⟩ := evolves_append_iff.1 hM
      obtain ⟨done, rest, w₂, hk, hevolves, hsame⟩ := ih x (hp.2 x) hrest hM
      exact ⟨⟨op, x⟩ :: done, rest, w₂, .call hk,
        .cons (href.complete hp.1 hop hfirst) hevolves, hsame⟩

end Refinement

variable {impl : (op : Op) → Program Ans' (Ans op)} {O : Op → Prop} {M : World Ans W}
  {M' : World Ans' W'} {view : W' → W} {Same : W → W → Prop} {p : Program Ans α} {P C : W → Prop}
  {Q : α → W → Prop}

/-- A crash triple holds on the lower level. -/
theorem Triple.interpret (h : Triple M P p Q C) (href : Refinement impl O M M' view Same)
    (hp : p.Only O) (hC : ∀ w w', Same w w' → C w → C w') :
    Triple M' (fun w => P (view w)) (p.interpret impl) (fun a w => Q a (view w))
      (fun w => C (view w)) where
  post hw hrun hM := by
    obtain ⟨_, hrun', -, hM'⟩ := href.run hp hrun hM
    exact h.post hw hrun' hM'
  crash hw hrun hM := by
    obtain ⟨_, _, _, hrun', hM', hsame⟩ := href.killed hp hrun hM
    exact hC _ _ hsame (h.crash hw hrun' hM')

end Interaction
