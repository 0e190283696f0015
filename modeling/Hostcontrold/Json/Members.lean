import Hostcontrold.Json.Grammar
import Hostcontrold.Json.Parser

/-!
# The members of objects

The parser inserts the members of an object one by one. What is kept in the end is what the
grammar says (`kept_emplaceAll`): the members are ordered by their keys, and of several ones
with the same key, the first one is there. There is only one such list (`Kept.unique`).
-/

namespace Hostcontrold.Json

variable {key key' : String} {value : Json} {members kept kept' : List (String × Json)}

/-- The order of the members. -/
abbrev Precedes (a b : String × Json) : Prop := Utf8.ofString a.1 < Utf8.ofString b.1

theorem ofString_inj (h : Utf8.ofString key = Utf8.ofString key') : key = key' := by
  rw [← Utf8.toString_ofString key, h, Utf8.toString_ofString]

theorem lookup_cons_eq : ((key, value) :: members).lookup key' =
    if key' = key then some value else members.lookup key' := by
  rw [List.lookup_cons]
  split_ifs with h
  · simp [h]
  · simp [beq_false_of_ne h]

/-- Insert a member at its place. -/
abbrev insertMember (m : String × Json) (members : List (String × Json)) :
    List (String × Json) :=
  members.orderedInsert (fun a b => Utf8.ofString a.1 ≤ Utf8.ofString b.1) m

theorem lookup_insertMember (h : members.lookup key = none) :
    (insertMember (key, value) members).lookup key' =
      if key' = key then some value else members.lookup key' := by
  induction members with
  | nil => exact lookup_cons_eq
  | cons m members ih =>
    obtain ⟨k, v⟩ := m
    rw [lookup_cons_eq] at h
    split_ifs at h with hk
    rw [insertMember, List.orderedInsert_cons]
    split_ifs with hle hkey hkey
    · subst hkey
      exact lookup_cons_eq.trans (if_pos rfl)
    · exact lookup_cons_eq.trans (if_neg hkey)
    · subst hkey
      rw [lookup_cons_eq, if_neg hk]
      exact (ih h).trans (if_pos rfl)
    · have htail := (ih h).trans (if_neg hkey)
      rw [lookup_cons_eq, lookup_cons_eq]
      exact congrArg (ite _ _) htail

theorem sorted_insertMember (h : members.lookup key = none) (hsorted : members.Pairwise Precedes) :
    (insertMember (key, value) members).Pairwise Precedes := by
  induction members with
  | nil => exact .cons (fun _ hm => absurd hm List.not_mem_nil) .nil
  | cons m members ih =>
    obtain ⟨k, v⟩ := m
    obtain ⟨hfirst, hsorted⟩ := List.pairwise_cons.1 hsorted
    rw [lookup_cons_eq] at h
    split_ifs at h with hk
    rw [insertMember, List.orderedInsert_cons]
    split_ifs with hle
    · have hlt : Utf8.ofString key < Utf8.ofString k :=
        Std.lt_of_le_of_ne hle fun he => hk (ofString_inj he)
      refine .cons (List.forall_mem_cons.2 ⟨hlt, fun m hm => ?_⟩) (.cons hfirst hsorted)
      exact List.lt_trans hlt (hfirst m hm)
    · refine .cons (fun m hm => ?_) (ih h hsorted)
      rcases (List.mem_orderedInsert _).1 hm with rfl | hm
      · exact List.not_le.1 hle
      · exact hfirst m hm

/-- The first member with a key stays. -/
theorem lookup_emplace : (emplace key value members).lookup key' =
    (members.lookup key').or (if key' = key then some value else none) := by
  rw [emplace]
  split_ifs with hsome hkey hkey
  · subst hkey
    obtain ⟨v, hv⟩ := Option.isSome_iff_exists.1 hsome
    rw [hv, Option.some_or]
  · rw [Option.or_none]
  all_goals
    have hnone := Option.not_isSome_iff_eq_none.1 hsome
    refine (lookup_insertMember hnone).trans ?_
  · rw [if_pos hkey, hkey, hnone, Option.none_or]
  · rw [if_neg hkey, Option.or_none]

theorem sorted_emplace (h : members.Pairwise Precedes) :
    (emplace key value members).Pairwise Precedes := by
  rw [emplace]
  split_ifs with hsome
  · exact h
  · exact sorted_insertMember (Option.not_isSome_iff_eq_none.1 hsome) h

/-- Insert members one by one. -/
def emplaceAll (kept members : List (String × Json)) : List (String × Json) :=
  members.foldl (fun kept m => emplace m.1 m.2 kept) kept

theorem emplaceAll_cons :
    emplaceAll kept ((key, value) :: members) = emplaceAll (emplace key value kept) members := rfl

theorem lookup_emplaceAll :
    (emplaceAll kept members).lookup key = (kept.lookup key).or (members.lookup key) := by
  induction members generalizing kept with
  | nil => exact (Option.or_none ..).symm
  | cons m members ih =>
    obtain ⟨k, v⟩ := m
    rw [emplaceAll_cons, ih, lookup_emplace, Option.or_assoc, lookup_cons_eq]
    split_ifs <;> rfl

theorem sorted_emplaceAll (h : kept.Pairwise Precedes) :
    (emplaceAll kept members).Pairwise Precedes := by
  induction members generalizing kept with
  | nil => exact h
  | cons m members ih => exact ih (sorted_emplace h)

theorem kept_emplaceAll (members : List (String × Json)) : Kept members (emplaceAll [] members) :=
  ⟨sorted_emplaceAll .nil, fun _ => lookup_emplaceAll⟩

/-! ## Uniqueness -/

/-- In a sorted list, the keys before the first one are missing. -/
theorem lookup_eq_none_of_precedes (h : ∀ m ∈ members, Precedes (key, value) m) :
    members.lookup key = none := by
  rw [List.lookup_eq_none_iff]
  intro m hm
  have hne : key ≠ m.1 := fun he => List.lt_irrefl _ (he ▸ h m hm)
  simpa using hne

/-- Two sorted lists with the same members have the same first key. -/
theorem not_precedes_of_lookup {k k' : String} {v v' : Json}
    (hsorted : ((k', v') :: kept').Pairwise Precedes)
    (h : ((k, v) :: kept).lookup k = ((k', v') :: kept').lookup k) :
    ¬Utf8.ofString k < Utf8.ofString k' := by
  intro hlt
  have hnone : ((k', v') :: kept').lookup k = none := by
    refine @lookup_eq_none_of_precedes k v _ (List.forall_mem_cons.2 ⟨hlt, fun m hm => ?_⟩)
    exact List.lt_trans hlt (List.rel_of_pairwise_cons hsorted hm)
  rw [hnone, List.lookup_cons_self] at h
  cases h

theorem eq_of_lookup (hsorted : kept.Pairwise Precedes) (hsorted' : kept'.Pairwise Precedes)
    (h : ∀ key, kept.lookup key = kept'.lookup key) : kept = kept' := by
  induction kept generalizing kept' with
  | nil =>
    rcases kept' with _ | ⟨⟨k', v'⟩, kept'⟩
    · rfl
    · have hnone := h k'
      rw [List.lookup_cons_self] at hnone
      cases hnone
  | cons m kept ih =>
    obtain ⟨k, v⟩ := m
    rcases kept' with _ | ⟨⟨k', v'⟩, kept'⟩
    · have hnone := h k
      rw [List.lookup_cons_self] at hnone
      cases hnone
    · obtain rfl : k = k' := by
        have hle := List.not_lt.1 (not_precedes_of_lookup hsorted' (h k))
        have hge := List.not_lt.1 (not_precedes_of_lookup hsorted (h k').symm)
        exact ofString_inj (List.le_antisymm hge hle)
      obtain ⟨hfirst, htail⟩ := List.pairwise_cons.1 hsorted
      obtain ⟨hfirst', htail'⟩ := List.pairwise_cons.1 hsorted'
      have hvalue := h k
      rw [List.lookup_cons_self, List.lookup_cons_self] at hvalue
      obtain rfl := Option.some.inj hvalue
      refine congrArg _ (ih htail htail' fun key => ?_)
      by_cases hkey : key = k
      · rw [hkey, lookup_eq_none_of_precedes hfirst, lookup_eq_none_of_precedes hfirst']
      · have hother := h key
        rwa [lookup_cons_eq, lookup_cons_eq, if_neg hkey, if_neg hkey] at hother

theorem Kept.unique (h : Kept members kept) (h' : Kept members kept') : kept = kept' :=
  eq_of_lookup h.sorted h'.sorted fun key => (h.lookup key).trans (h'.lookup key).symm

end Hostcontrold.Json
