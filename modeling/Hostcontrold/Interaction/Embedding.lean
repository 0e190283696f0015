import Hostcontrold.Interaction.Program

/-!
# Programs that run programs

A program may run others as parts of it, each with operations of its own.
`Program.embed inj p` is `p` as a part of a larger program: it performs the
operation `inj op` where `p` performs `op`.

Executions are compared by what they have in common:

* `exec_embed`: an embedded program is executed like the program itself, against
  the answers to its own operations.
* `exec_invariant`: what none of its operations destroys holds after the
  execution of a program.
* `exec_simulates`: against two handlers that answer alike, a program performs
  the same events.
-/

namespace Interaction

universe u u' v

variable {Op : Type u} {Op' : Type u'} {Ans : Op → Type v} {Ans' : Op' → Type v} {α : Type v}
  {σ τ : Type*}

section Embed

variable (inj : Op → Op')

/-- A program as a part of one with more operations. -/
def Program.embed : Program (fun op => Ans' (inj op)) α → Program Ans' α
  | .pure a => .pure a
  | .call op k => .call (inj op) fun x => (k x).embed

/-- An event of an embedded program. -/
def Event.embed (e : Event fun op => Ans' (inj op)) : Event Ans' := ⟨inj e.op, e.ans⟩

/-- The runs of an embedded program are its runs. -/
theorem runs_embed_iff {p : Program (fun op => Ans' (inj op)) α} {tr : List (Event Ans')} {a : α} :
    Runs (p.embed inj) tr a ↔ ∃ tr', tr = tr'.map (Event.embed inj) ∧ Runs p tr' a := by
  induction p generalizing tr with
  | pure b =>
    constructor
    · intro h
      obtain ⟨rfl, rfl⟩ := runs_pure_iff.1 h
      exact ⟨[], rfl, .pure a⟩
    · rintro ⟨tr', rfl, h⟩
      obtain ⟨rfl, rfl⟩ := runs_pure_iff.1 h
      exact .pure a
  | call op k ih =>
    constructor
    · intro h
      obtain ⟨x, _, rfl, hk⟩ := runs_call_iff.1 h
      obtain ⟨tr', rfl, hk'⟩ := (ih x).1 hk
      exact ⟨⟨op, x⟩ :: tr', rfl, .call hk'⟩
    · rintro ⟨_, rfl, h⟩
      obtain ⟨x, tr', rfl, hk⟩ := runs_call_iff.1 h
      exact .call ((ih x).2 ⟨tr', rfl, hk⟩)

theorem Program.Only.embed {P : Op' → Prop} {p : Program (fun op => Ans' (inj op)) α}
    (hp : p.Only fun op => P (inj op)) : (p.embed inj).Only P := by
  induction p with
  | pure a => trivial
  | call op k ih => exact ⟨hp.1, fun x => ih x (hp.2 x)⟩

theorem exec_embed (h : Handler Ans' σ) (p : Program (fun op => Ans' (inj op)) α) (s : σ) :
    exec h (p.embed inj) s =
      ⟨(exec (fun op => h (inj op)) p s).trace.map (Event.embed inj),
        (exec (fun op => h (inj op)) p s).result, (exec (fun op => h (inj op)) p s).state⟩ := by
  induction p generalizing s with
  | pure a => rfl
  | call op k ih =>
    rw [Program.embed, exec, exec]
    simp only [ih]
    rfl

end Embed

variable {p : Program Ans α} {P : Op → Prop}

/-- What none of the operations of a program destroys lasts. -/
theorem exec_invariant {h : Handler Ans σ} {I : σ → Prop} (hp : p.Only P)
    (hI : ∀ op s, P op → I s → I (h op s).2) {s : σ} (hs : I s) : I (exec h p s).state := by
  induction p generalizing s with
  | pure a => exact hs
  | call op k ih => exact ih _ (hp.2 _) (hI op s hp.1 hs)

/-- Against two handlers that answer its operations alike, a program performs the
    same events. -/
theorem exec_simulates {h : Handler Ans σ} {h' : Handler Ans τ} {R : σ → τ → Prop}
    (hp : p.Only P)
    (hR : ∀ op s t, P op → R s t → (h op s).1 = (h' op t).1 ∧ R (h op s).2 (h' op t).2)
    {s : σ} {t : τ} (hst : R s t) :
    (exec h p s).trace = (exec h' p t).trace ∧ (exec h p s).result = (exec h' p t).result ∧
      R (exec h p s).state (exec h' p t).state := by
  induction p generalizing s t with
  | pure a => exact ⟨rfl, rfl, hst⟩
  | call op k ih =>
    obtain ⟨hans, hst'⟩ := hR op s t hp.1 hst
    obtain ⟨htrace, hresult, hstate⟩ := ih _ (hp.2 _) hst'
    rw [exec, exec]
    simp only [← hans]
    exact ⟨by rw [htrace], hresult, hstate⟩

end Interaction
