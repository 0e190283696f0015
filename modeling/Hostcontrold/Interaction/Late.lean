import Hostcontrold.Interaction.Embedding

/-!
# Late events

A program polls a flag, that is set at some point of a run. From this point on, what it reads
is the flag set: the events are `R`. How many events of a kind may happen then?
`Late R c p m n` says that there are at most `n` operations with `c`, wherever in a run of the
program `p` the flag is set, and at most `m` of them if it is set from the start.

A program that reads the flag again has a small `m`, and this is what counts for the program
before it (`Late.bind`).
-/

namespace Interaction

universe u u' v

variable {Op : Type u} {Op' : Type u'} {Ans : Op → Type v} {Ans' : Op' → Type v} {α β : Type v}

/-- How many of the events are operations with `c`. -/
def count (c : Op → Bool) (tr : List (Event Ans)) : Nat := tr.countP fun e => c e.op

section Count

variable {c : Op → Bool} {tr tr' : List (Event Ans)} {e : Event Ans}

@[simp]
theorem count_nil : count c ([] : List (Event Ans)) = 0 := rfl

@[simp]
theorem count_cons : count c (e :: tr) = count c tr + (c e.op).toNat := by
  rw [count, List.countP_cons]
  cases c e.op <;> rfl

@[simp]
theorem count_append : count c (tr ++ tr') = count c tr + count c tr' := List.countP_append

theorem count_eq_zero (h : ∀ e ∈ tr, c e.op = false) : count c tr = 0 :=
  List.countP_eq_zero.2 fun e he => by simp [h e he]

theorem count_embed {inj : Op → Op'} {c : Op' → Bool} {tr : List (Event fun op => Ans' (inj op))} :
    count c (tr.map (Event.embed inj)) = count (fun op => c (inj op)) tr := List.countP_map

end Count

/-- Of the operations with `c`, at most `n` happen in events that are `R` to the end of a run,
    and at most `m` if these are all events. -/
structure Late (R : Event Ans → Prop) (c : Op → Bool) (p : Program Ans α) (m n : Nat) : Prop where
  whole {tr : List (Event Ans)} {a : α} : Runs p tr a → (∀ e ∈ tr, R e) → count c tr ≤ m
  tail {tr tr' : List (Event Ans)} {a : α} :
    Runs p (tr ++ tr') a → (∀ e ∈ tr', R e) → count c tr' ≤ n

variable {R : Event Ans → Prop} {c : Op → Bool} {p : Program Ans α} {f : α → Program Ans β}
  {m n m' n' k l : Nat}

namespace Late

theorem mono (h : Late R c p m n) (hm : m ≤ m') (hn : n ≤ n') : Late R c p m' n' where
  whole hp hR := Nat.le_trans (h.whole hp hR) hm
  tail hp hR := Nat.le_trans (h.tail hp hR) hn

/-- A program that does not perform the operations. -/
theorem of_only (h : p.Only fun op => c op = false) : Late R c p m n where
  whole hp _ := by
    rw [count_eq_zero (hp.only h)]
    exact Nat.zero_le m
  tail hp _ := by
    rw [count_eq_zero (List.forall_mem_append.1 (hp.only h)).2]
    exact Nat.zero_le n

theorem pure (a : α) : Late R c (pure a : Program Ans α) m n := .of_only trivial

/-- Of an operation, only the answers that are `R` count if it is late itself. -/
theorem perform_bind {op : Op} {f : Ans op → Program Ans β}
    (hwhole : ∀ x, R ⟨op, x⟩ → Late R c (f x) m n) (htail : ∀ x, Late R c (f x) k n)
    (hm : m + (c op).toNat ≤ m') (hn : m' ≤ n) : Late R c (Program.perform op >>= f) m' n := by
  have whole {tr : List (Event Ans)} {b : β} (hp : Runs (Program.perform op >>= f) tr b)
      (hR : ∀ e ∈ tr, R e) : count c tr ≤ m' := by
    obtain ⟨x, tr, rfl, hx⟩ := runs_perform_bind_iff.1 hp
    obtain ⟨he, hR⟩ := List.forall_mem_cons.1 hR
    rw [count_cons]
    exact Nat.le_trans (Nat.add_le_add_right ((hwhole x he).whole hx hR) _) hm
  refine ⟨whole, fun {tr tr' b} hp hR => ?_⟩
  cases tr with
  | nil => exact Nat.le_trans (whole hp hR) hn
  | cons e tr =>
    obtain ⟨x, _, he, hx⟩ := runs_perform_bind_iff.1 hp
    obtain ⟨-, rfl⟩ := List.cons_eq_cons.1 he
    exact (htail x).tail hx hR

/-- What is late in the first program is late in the second one from the start. If it is late
    from the start of the first program, the result of this is `Q`. -/
theorem bind_of {Q : α → Prop} (hp : Late R c p m n) (hf : ∀ a, Late R c (f a) m' n')
    (hQ : ∀ tr a, Runs p tr a → (∀ e ∈ tr, R e) → Q a)
    (hfQ : ∀ a, Q a → Late R c (f a) l n') (hm : m + l ≤ k) (hn : n + m' ≤ n') :
    Late R c (p >>= f) k n' where
  whole h hR := by
    obtain ⟨_, a, _, h₁, h₂, rfl⟩ := runs_bind_iff.1 h
    obtain ⟨hR₁, hR₂⟩ := List.forall_mem_append.1 hR
    rw [count_append]
    exact Nat.le_trans (Nat.add_le_add (hp.whole h₁ hR₁) ((hfQ a (hQ _ a h₁ hR₁)).whole h₂ hR₂)) hm
  tail h hR := by
    obtain ⟨_, a, _, h₁, h₂, he⟩ := runs_bind_iff.1 h
    rcases List.append_eq_append_iff.1 he with ⟨t, rfl, rfl⟩ | ⟨t, rfl, rfl⟩
    · obtain ⟨hR₁, hR₂⟩ := List.forall_mem_append.1 hR
      rw [count_append]
      exact Nat.le_trans (Nat.add_le_add (hp.tail h₁ hR₁) ((hf a).whole h₂ hR₂)) hn
    · exact (hf a).tail h₂ hR

theorem bind (hp : Late R c p m n) (hf : ∀ a, Late R c (f a) m' n') (hm : m + m' ≤ k)
    (hn : n + m' ≤ n') : Late R c (p >>= f) k n' :=
  hp.bind_of hf (fun _ _ _ _ => trivial) (fun a _ => hf a) hm hn

theorem embed {inj : Op → Op'} {R : Event Ans' → Prop} {c : Op' → Bool}
    {p : Program (fun op => Ans' (inj op)) α}
    (h : Late (fun e => R (e.embed inj)) (fun op => c (inj op)) p m n) :
    Late R c (p.embed inj) m n where
  whole hp hR := by
    obtain ⟨tr, rfl, hp'⟩ := (runs_embed_iff inj).1 hp
    rw [count_embed]
    exact h.whole hp' (List.forall_mem_map.1 hR)
  tail hp hR := by
    obtain ⟨_, he, hp'⟩ := (runs_embed_iff inj).1 hp
    obtain ⟨tr, tr', rfl, rfl, rfl⟩ := List.append_eq_map_iff.1 he
    rw [count_embed]
    exact h.tail hp' (List.forall_mem_map.1 hR)

end Late

end Interaction
