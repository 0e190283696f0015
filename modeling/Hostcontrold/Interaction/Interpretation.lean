import Hostcontrold.Interaction.World

/-!
# Implementing operations by programs

The operations of a program may be programs themselves, over the operations of a
lower level. An implementation `impl` gives one for each operation, and
`Program.interpret impl p` is `p` with its operations replaced.

What happens on the lower level *implements* what the program sees: the events of
the lower level are those of one operation after the other (`Implements`).

* `runs_interpret_iff`: the runs on the lower level are the implementations of the
  runs of the program.
* `Implements.lift`: what relates every operation to what it is implemented by relates the
  runs, if it is kept by doing one thing after the other.
* `Implements.evolves`: if every operation, as it is implemented, changes the world
  like the operation should, so do the runs. What is known about all runs of the
  program in such a world then also holds on the lower level.
-/

namespace Interaction

universe u u' v

variable {Op : Type u} {Op' : Type u'} {Ans : Op → Type v} {Ans' : Op' → Type v} {α : Type v}
  {W : Type*}

section Interpret

variable (impl : (op : Op) → Program Ans' (Ans op))

/-- A program with its operations replaced by programs. -/
def Program.interpret : Program Ans α → Program Ans' α
  | .pure a => .pure a
  | .call op k => impl op >>= fun x => (k x).interpret

/-- The events `tr'` of the lower level implement the events `tr`. -/
inductive Implements : List (Event Ans) → List (Event Ans') → Prop
  | nil : Implements [] []
  | cons {op : Op} {x : Ans op} {tr : List (Event Ans)} {tr₁ tr' : List (Event Ans')} :
      Runs (impl op) tr₁ x → Implements tr tr' → Implements (⟨op, x⟩ :: tr) (tr₁ ++ tr')

end Interpret

variable {impl : (op : Op) → Program Ans' (Ans op)} {p : Program Ans α} {tr : List (Event Ans)}
  {tr' : List (Event Ans')} {a : α}

@[simp]
theorem implements_nil_iff : Implements impl [] tr' ↔ tr' = [] := by
  constructor
  · rintro ⟨⟩
    rfl
  · rintro rfl
    exact .nil

theorem implements_cons_iff {op : Op} {x : Ans op} :
    Implements impl (⟨op, x⟩ :: tr) tr' ↔
      ∃ tr₁ tr₂, tr' = tr₁ ++ tr₂ ∧ Runs (impl op) tr₁ x ∧ Implements impl tr tr₂ := by
  constructor
  · rintro ⟨⟩
    exact ⟨_, _, rfl, ‹_›, ‹_›⟩
  · rintro ⟨tr₁, tr₂, rfl, h, h'⟩
    exact .cons h h'

/-- On the lower level, the runs of a program are implemented. -/
theorem runs_interpret_iff :
    Runs (p.interpret impl) tr' a ↔ ∃ tr, Runs p tr a ∧ Implements impl tr tr' := by
  induction p generalizing tr' with
  | pure b =>
    constructor
    · intro h
      obtain ⟨rfl, rfl⟩ := runs_pure_iff.1 h
      exact ⟨[], .pure a, .nil⟩
    · rintro ⟨tr, h, himpl⟩
      obtain ⟨rfl, rfl⟩ := runs_pure_iff.1 h
      obtain rfl := implements_nil_iff.1 himpl
      exact .pure a
  | call op k ih =>
    constructor
    · intro h
      obtain ⟨tr₁, x, tr₂, hop, hrest, rfl⟩ := runs_bind_iff.1 h
      obtain ⟨tr, hk, himpl⟩ := (ih x).1 hrest
      exact ⟨⟨op, x⟩ :: tr, .call hk, .cons hop himpl⟩
    · rintro ⟨tr, h, himpl⟩
      obtain ⟨x, tr, rfl, hk⟩ := runs_call_iff.1 h
      obtain ⟨tr₁, tr₂, rfl, hop, himpl⟩ := implements_cons_iff.1 himpl
      exact runs_bind_iff.2 ⟨tr₁, x, tr₂, hop, (ih x).2 ⟨tr, hk, himpl⟩, rfl⟩

/-- What is known about the operations of the implementations. -/
theorem Program.Only.interpret {P : Op → Prop} {P' : Op' → Prop} (hp : p.Only P)
    (himpl : ∀ op, P op → (impl op).Only P') : (p.interpret impl).Only P' := by
  induction p with
  | pure a => trivial
  | call op k ih => exact (himpl op hp.1).bind fun x => ih x (hp.2 x)

/-- The events that implement operations with a property. -/
theorem Implements.only {P : Event Ans → Prop} {P' : Op' → Prop} (h : Implements impl tr tr')
    (hP : ∀ e ∈ tr, P e) (himpl : ∀ e, P e → (impl e.op).Only P') : ∀ e ∈ tr', P' e.op := by
  induction h with
  | nil => exact fun _ he => absurd he List.not_mem_nil
  | cons hop _ ih =>
    obtain ⟨hfirst, hrest⟩ := List.forall_mem_cons.1 hP
    exact List.forall_mem_append.2 ⟨hop.only (himpl _ hfirst), ih hrest⟩

theorem implements_append_iff {tr₁ tr₂ : List (Event Ans)} : Implements impl (tr₁ ++ tr₂) tr' ↔
    ∃ tr₁' tr₂', tr' = tr₁' ++ tr₂' ∧ Implements impl tr₁ tr₁' ∧ Implements impl tr₂ tr₂' := by
  induction tr₁ generalizing tr' with
  | nil => simp
  | cons e tr₁ ih =>
    rw [List.cons_append, implements_cons_iff]
    constructor
    · rintro ⟨tr₀, _, rfl, hop, hrest⟩
      obtain ⟨tr₁', tr₂', rfl, h₁, h₂⟩ := ih.1 hrest
      exact ⟨tr₀ ++ tr₁', tr₂', (List.append_assoc _ _ _).symm, .cons hop h₁, h₂⟩
    · rintro ⟨_, tr₂', rfl, h₁, h₂⟩
      obtain ⟨tr₀, tr₁', rfl, hop, hrest⟩ := implements_cons_iff.1 h₁
      exact ⟨tr₀, tr₁' ++ tr₂', List.append_assoc _ _ _, hop, ih.2 ⟨tr₁', tr₂', rfl, hrest, h₂⟩⟩

/-- A relation between the events of the two levels that holds for every operation, and for
    what is done one after the other. -/
theorem Implements.lift {R : List (Event Ans) → List (Event Ans') → Prop} (hnil : R [] [])
    (happend : ∀ tr₁ tr₁' tr₂ tr₂', R tr₁ tr₁' → R tr₂ tr₂' → R (tr₁ ++ tr₂) (tr₁' ++ tr₂'))
    (h : Implements impl tr tr')
    (himpl : ∀ e ∈ tr, ∀ tr₁, Runs (impl e.op) tr₁ e.ans → R [e] tr₁) : R tr tr' := by
  induction h with
  | nil => exact hnil
  | cons hop _ ih =>
    obtain ⟨hfirst, hrest⟩ := List.forall_mem_cons.1 himpl
    exact happend [_] _ _ _ (hfirst _ hop) (ih hrest)

/-- An operation implemented as it is, on the lower level. -/
theorem Implements.evolves {M : World Ans W} {M' : World Ans' W}
    (himpl : ∀ op x tr₁ w w', Runs (impl op) tr₁ x → Evolves M' w tr₁ w' → M w ⟨op, x⟩ w')
    (h : Implements impl tr tr') {w w' : W} (hM : Evolves M' w tr' w') : Evolves M w tr w' := by
  induction h generalizing w with
  | nil => exact evolves_nil_iff.2 (evolves_nil_iff.1 hM)
  | cons hop _ ih =>
    obtain ⟨w₁, hfirst, hrest⟩ := evolves_append_iff.1 hM
    exact .cons (himpl _ _ _ _ _ hop hfirst) (ih hrest)

end Interaction
