import Mathlib.Data.List.Basic

/-!
# Interaction programs

A program that talks to the outside world does two things: it computes, and it
performs operations whose answers it does not choose. `Program Ans α` is such a
program, a tree with one node per operation and one branch per answer the
operation may get; `Ans op` is the type of the answers to `op`. Programs form a
monad, so that code with side effects is written in its own order.

What a program does is a set of *runs*: a run (`Runs`) is a list of events, the
operations performed with the answers they got, together with the result. All
answers are possible; what an environment excludes is said about the events
(`Interaction.World`).

* `runs_bind_iff`: the runs of a sequence are the runs of its parts, one after
  the other. This is the handle for every proof about a concrete program.
* `Runs.unique`: the answers determine the run.
* `Program.Only`, `Program.Each` and `Program.AtMost`: what all runs have in common, said
  about the program.
* `exec`: the run against a *handler*, an environment that answers from a state
  of its own; a program has a run whatever the environment (`exec_runs`).
-/

namespace Interaction

universe u v

/-- A program over the operations `Op`, with the answers `Ans`. -/
inductive Program {Op : Type u} (Ans : Op → Type v) (α : Type v) : Type (max u v)
  | pure (a : α)
  | call (op : Op) (k : Ans op → Program Ans α)

/-- An operation together with the answer it got. -/
structure Event {Op : Type u} (Ans : Op → Type v) where
  op : Op
  ans : Ans op

variable {Op : Type u} {Ans : Op → Type v} {α β γ : Type v}

namespace Program

/-- Performing a single operation. -/
def perform (op : Op) : Program Ans (Ans op) := .call op .pure

/-- Running `p`, then `f` on its result. -/
def bind : Program Ans α → (α → Program Ans β) → Program Ans β
  | .pure a, f => f a
  | .call op k, f => .call op fun x => (k x).bind f

instance : Monad (Program Ans) where
  pure := .pure
  bind := .bind

theorem bind_pure_right (p : Program Ans α) : p.bind .pure = p := by
  induction p with
  | pure a => rfl
  | call op k ih => exact congrArg (Program.call op) (funext ih)

theorem bind_assoc (p : Program Ans α) (f : α → Program Ans β) (g : β → Program Ans γ) :
    (p.bind f).bind g = p.bind fun a => (f a).bind g := by
  induction p with
  | pure a => rfl
  | call op k ih => exact congrArg (Program.call op) (funext ih)

instance : LawfulMonad (Program Ans) :=
  LawfulMonad.mk' _ bind_pure_right (fun _ _ => rfl) bind_assoc

end Program

/-! ## Runs -/

/-- `Runs p tr a`: the program `p` can perform the events `tr` and return `a`. -/
inductive Runs : Program Ans α → List (Event Ans) → α → Prop
  | pure (a : α) : Runs (.pure a) [] a
  | call {op : Op} {k : Ans op → Program Ans α} {x : Ans op} {tr : List (Event Ans)} {a : α} :
      Runs (k x) tr a → Runs (.call op k) (⟨op, x⟩ :: tr) a

variable {p : Program Ans α} {f : α → Program Ans β} {tr tr' : List (Event Ans)} {a a' : α} {b : β}

@[simp]
theorem runs_pure_iff : Runs (pure a : Program Ans α) tr a' ↔ tr = [] ∧ a' = a := by
  constructor
  · rintro ⟨⟩
    exact ⟨rfl, rfl⟩
  · rintro ⟨rfl, rfl⟩
    exact .pure _

theorem runs_call_iff {op : Op} {k : Ans op → Program Ans α} :
    Runs (.call op k) tr a ↔ ∃ x tr', tr = ⟨op, x⟩ :: tr' ∧ Runs (k x) tr' a := by
  constructor
  · rintro ⟨⟩
    exact ⟨_, _, rfl, ‹_›⟩
  · rintro ⟨x, tr', rfl, h⟩
    exact .call h

@[simp]
theorem runs_perform_iff {op : Op} {x : Ans op} :
    Runs (Program.perform op) tr x ↔ tr = [⟨op, x⟩] := by
  constructor
  · intro h
    obtain ⟨_, _, rfl, hp⟩ := runs_call_iff.1 h
    obtain ⟨rfl, rfl⟩ := runs_pure_iff.1 hp
    rfl
  · rintro rfl
    exact .call (.pure x)

theorem Runs.bind (hp : Runs p tr a) (hf : Runs (f a) tr' b) : Runs (p >>= f) (tr ++ tr') b := by
  induction hp with
  | pure a => exact hf
  | call _ ih => exact .call (ih hf)

/-- The runs of a sequence are the runs of its parts, one after the other. -/
theorem runs_bind_iff : Runs (p >>= f) tr b ↔
    ∃ tr₁ a tr₂, Runs p tr₁ a ∧ Runs (f a) tr₂ b ∧ tr = tr₁ ++ tr₂ := by
  constructor
  · intro h
    induction p generalizing tr with
    | pure a => exact ⟨[], a, tr, .pure a, h, rfl⟩
    | call op k ih =>
      obtain ⟨x, tr', rfl, h'⟩ := runs_call_iff.1 h
      obtain ⟨tr₁, a, tr₂, h₁, h₂, rfl⟩ := ih x h'
      exact ⟨_, a, tr₂, .call h₁, h₂, rfl⟩
  · rintro ⟨tr₁, a, tr₂, h₁, h₂, rfl⟩
    exact h₁.bind h₂

/-- A sequence starting with a single operation. -/
theorem runs_perform_bind_iff {op : Op} {k : Ans op → Program Ans β} :
    Runs (Program.perform op >>= k) tr b ↔ ∃ x tr', tr = ⟨op, x⟩ :: tr' ∧ Runs (k x) tr' b :=
  runs_call_iff

theorem runs_perform_bind_cons_iff {op : Op} {k : Ans op → Program Ans β} {x : Ans op} :
    Runs (Program.perform op >>= k) (⟨op, x⟩ :: tr) b ↔ Runs (k x) tr b := by
  constructor
  · intro h
    obtain ⟨_, _, he, hk⟩ := runs_perform_bind_iff.1 h
    obtain ⟨he, rfl⟩ := List.cons_eq_cons.1 he
    cases he
    exact hk
  · exact .call

/-- The answers determine the run: two runs with the same events, the one
    perhaps going on, are equal. -/
theorem Runs.unique (h : Runs p tr a) (h' : Runs p (tr ++ tr') a') : tr' = [] ∧ a' = a := by
  induction h with
  | pure a => exact runs_pure_iff.1 h'
  | call _ ih =>
    obtain ⟨_, _, he, h'⟩ := runs_call_iff.1 h'
    obtain ⟨he, rfl⟩ := List.cons_eq_cons.1 he
    cases he
    exact ih h'

/-- If every operation has an answer, every program has a run. -/
theorem exists_runs (hans : ∀ op, Nonempty (Ans op)) (p : Program Ans α) :
    ∃ tr a, Runs p tr a := by
  induction p with
  | pure a => exact ⟨[], a, .pure a⟩
  | call op k ih =>
    obtain ⟨x⟩ := hans op
    obtain ⟨tr, a, h⟩ := ih x
    exact ⟨_, a, .call h⟩

/-! ## The operations of a program -/

/-- All operations of a program, whatever the answers, satisfy `P`. -/
def Program.Only (P : Op → Prop) : Program Ans α → Prop
  | .pure _ => True
  | .call op k => P op ∧ ∀ x, (k x).Only P

section Only

variable {P P' : Op → Prop}

@[simp]
theorem only_perform_iff (op : Op) : (Program.perform op : Program Ans _).Only P ↔ P op :=
  ⟨And.left, fun h => ⟨h, fun _ => trivial⟩⟩

theorem only_true (p : Program Ans α) : p.Only fun _ => True := by
  induction p with
  | pure a => trivial
  | call op k ih => exact ⟨trivial, ih⟩

theorem Program.Only.bind (hp : p.Only P) (hf : ∀ a, (f a).Only P) : (p >>= f).Only P := by
  induction p with
  | pure a => exact hf a
  | call op k ih => exact ⟨hp.1, fun x => ih x (hp.2 x)⟩

/-- A sequence starting with a single operation. -/
@[simp]
theorem only_perform_bind_iff {op : Op} {k : Ans op → Program Ans β} :
    (Program.perform op >>= k).Only P ↔ P op ∧ ∀ x, (k x).Only P := Iff.rfl

theorem Program.Only.mono (hp : p.Only P) (h : ∀ op, P op → P' op) : p.Only P' := by
  induction p with
  | pure a => trivial
  | call op k ih => exact ⟨h op hp.1, fun x => ih x (hp.2 x)⟩

/-- The events of a run are among the operations of the program. -/
theorem Runs.only (h : Runs p tr a) (hp : p.Only P) : ∀ e ∈ tr, P e.op := by
  induction h with
  | pure a => exact fun _ he => absurd he List.not_mem_nil
  | call _ ih => exact List.forall_mem_cons.2 ⟨hp.1, ih (hp.2 _)⟩

end Only

/-- All operations of a program satisfy `P`, and all its results `Q`, whatever the answers. -/
def Program.Each (P : Op → Prop) (Q : α → Prop) : Program Ans α → Prop
  | .pure a => Q a
  | .call op k => P op ∧ ∀ x, (k x).Each P Q

section Each

variable {P P' : Op → Prop} {Q : α → Prop} {R : β → Prop}

theorem Program.Only.bind_each (hp : p.Only P) (hf : ∀ a, (f a).Each P R) :
    (p >>= f).Each P R := by
  induction p with
  | pure a => exact hf a
  | call op k ih => exact ⟨hp.1, fun x => ih x (hp.2 x)⟩

theorem Program.Each.bind (hp : p.Each P Q) (hf : ∀ a, Q a → (f a).Each P R) :
    (p >>= f).Each P R := by
  induction p with
  | pure a => exact hf a hp
  | call op k ih => exact ⟨hp.1, fun x => ih x (hp.2 x)⟩

theorem Program.Each.only (hp : p.Each P Q) (h : ∀ op, P op → P' op) : p.Only P' := by
  induction p with
  | pure a => trivial
  | call op k ih => exact ⟨h op hp.1, fun x => ih x (hp.2 x)⟩

/-- The result of a run is among those of the program. -/
theorem Runs.each (h : Runs p tr a) (hp : p.Each P Q) : Q a := by
  induction h with
  | pure a => exact hp
  | call _ ih => exact ih (hp.2 _)

end Each

/-! ## The length of runs -/

/-- A program performs at most `n` operations, whatever the answers. -/
def Program.AtMost : Nat → Program Ans α → Prop
  | _, .pure _ => True
  | 0, .call _ _ => False
  | n + 1, .call _ k => ∀ x, (k x).AtMost n

section AtMost

variable {m n : Nat}

theorem atMost_pure (a : α) : (pure a : Program Ans α).AtMost n := by
  cases n <;> trivial

theorem atMost_perform (op : Op) : (Program.perform op : Program Ans _).AtMost 1 :=
  fun x => atMost_pure x

theorem Program.AtMost.mono (hp : p.AtMost m) (h : m ≤ n) : p.AtMost n := by
  induction p generalizing m n with
  | pure a => exact atMost_pure a
  | call op k ih =>
    cases m with
    | zero => cases hp
    | succ m =>
      obtain ⟨n, rfl⟩ := Nat.exists_eq_add_of_lt (Nat.lt_of_succ_le h)
      exact fun x => ih x (hp x) (Nat.le_add_right m n)

theorem Program.AtMost.bind (hp : p.AtMost m) (hf : ∀ a, (f a).AtMost n) :
    (p >>= f).AtMost (n + m) := by
  induction p generalizing m with
  | pure a => exact (hf a).mono (Nat.le_add_right n m)
  | call op k ih =>
    cases m with
    | zero => cases hp
    | succ m => exact fun x => ih x (hp x)

theorem Runs.length_le (h : Runs p tr a) (hp : p.AtMost n) : tr.length ≤ n := by
  induction h generalizing n with
  | pure a => exact Nat.zero_le n
  | call _ ih =>
    cases n with
    | zero => cases hp
    | succ n => exact Nat.succ_le_succ (ih (hp _))

end AtMost

/-! ## Execution against a handler -/

/-- An environment answering every operation from a state of its own. -/
abbrev Handler (Ans : Op → Type v) (σ : Type*) := (op : Op) → σ → Ans op × σ

/-- The outcome of an execution: the events, the result and the final state of
    the handler. -/
structure Execution {Op : Type u} (Ans : Op → Type v) (α σ : Type*) where
  trace : List (Event Ans)
  result : α
  state : σ

variable {σ : Type*} (h : Handler Ans σ)

/-- The execution of a program against a handler. -/
def exec : Program Ans α → σ → Execution Ans α σ
  | .pure a, s => ⟨[], a, s⟩
  | .call op k, s =>
    let r := exec (k (h op s).1) (h op s).2
    { r with trace := ⟨op, (h op s).1⟩ :: r.trace }

/-- Every program has a run, whatever the environment. -/
theorem exec_runs (p : Program Ans α) (s : σ) : Runs p (exec h p s).trace (exec h p s).result := by
  induction p generalizing s with
  | pure a => exact .pure a
  | call op k ih => exact .call (ih _ _)

/-- All answers of an execution are given by the handler. -/
theorem exists_of_mem_exec {p : Program Ans α} {s : σ} {e : Event Ans}
    (he : e ∈ (exec h p s).trace) : ∃ s', e.ans = (h e.op s').1 := by
  induction p generalizing s with
  | pure a => exact absurd he List.not_mem_nil
  | call op k ih =>
    rcases List.mem_cons.1 he with rfl | he
    · exact ⟨s, rfl⟩
    · exact ih _ he

@[simp]
theorem exec_pure (a : α) (s : σ) : exec h (pure a : Program Ans α) s = ⟨[], a, s⟩ := rfl

@[simp]
theorem exec_perform (op : Op) (s : σ) :
    exec h (Program.perform op) s = ⟨[⟨op, (h op s).1⟩], (h op s).1, (h op s).2⟩ := rfl

@[simp]
theorem exec_bind (p : Program Ans α) (f : α → Program Ans β) (s : σ) :
    exec h (p >>= f) s =
      { exec h (f (exec h p s).result) (exec h p s).state with
        trace := (exec h p s).trace ++
          (exec h (f (exec h p s).result) (exec h p s).state).trace } := by
  induction p generalizing s with
  | pure a => rfl
  | call op k ih =>
    have := ih (h op s).1 (h op s).2
    change exec h (.call op fun x => k x >>= f) s = _
    simp only [exec, this, List.cons_append]

end Interaction
