import Hostcontrold.Json.Members

/-!
# Values and their parts

A property of values holds *everywhere* in a value, if it holds for the value and for all its
parts, and a function is applied *bottom-up*, if it is applied to the parts of a value before it
is applied to the value.

An object of the library is ordered: it keeps its members in the order of their keys (`Ordered`).
So are the values that are created from lists of members (`everywhere_stored`), and those of
the parser.
-/

namespace Hostcontrold.Json

variable {P Q : Json → Prop} {f : Json → Json} {v : Json} {es : List Json}
  {ms : List (String × Json)}

/-- The parts of a value. -/
def parts : Json → List Json
  | .array elements => elements
  | .object members => members.map Prod.snd
  | _ => []

/-- A property of a value and of all its parts. -/
inductive Everywhere (P : Json → Prop) : Json → Prop
  | intro {v : Json} : P v → (∀ w ∈ v.parts, Everywhere P w) → Everywhere P v

theorem Everywhere.self (h : Everywhere P v) : P v := by
  cases h
  assumption

theorem Everywhere.parts (h : Everywhere P v) : ∀ w ∈ v.parts, Everywhere P w := by
  cases h
  assumption

mutual

/-- Apply a function to the parts of a value, and then to the value. -/
def bottomUp (f : Json → Json) : Json → Json
  | .array elements => f (.array (bottomUpElements f elements))
  | .object members => f (.object (bottomUpMembers f members))
  | .null => f .null
  | .boolean b => f (.boolean b)
  | .numberInteger i => f (.numberInteger i)
  | .numberUnsigned n => f (.numberUnsigned n)
  | .numberFloat q => f (.numberFloat q)
  | .string s => f (.string s)

def bottomUpElements (f : Json → Json) : List Json → List Json
  | [] => []
  | value :: elements => bottomUp f value :: bottomUpElements f elements

def bottomUpMembers (f : Json → Json) : List (String × Json) → List (String × Json)
  | [] => []
  | (key, value) :: members => (key, bottomUp f value) :: bottomUpMembers f members

end

/-- Apply a function to the values of members. -/
abbrev mapValues (f : Json → Json) (ms : List (String × Json)) : List (String × Json) :=
  ms.map fun m => (m.1, f m.2)

@[simp]
theorem bottomUp_array : bottomUp f (.array es) = f (.array (es.map (bottomUp f))) := by
  have helements : bottomUpElements f es = es.map (bottomUp f) := by
    induction es with
    | nil => rfl
    | cons value es ih => rw [bottomUpElements, ih, List.map_cons]
  rw [bottomUp, helements]

@[simp]
theorem bottomUp_object : bottomUp f (.object ms) = f (.object (mapValues (bottomUp f) ms)) := by
  have hmembers : bottomUpMembers f ms = mapValues (bottomUp f) ms := by
    induction ms with
    | nil => rfl
    | cons m ms ih =>
      rw [bottomUpMembers, ih]
      rfl
  rw [bottomUp, hmembers]

theorem lookup_mapValues (key : String) : (mapValues f ms).lookup key = (ms.lookup key).map f := by
  induction ms with
  | nil => rfl
  | cons m ms ih =>
    obtain ⟨k, value⟩ := m
    rw [mapValues, List.map_cons, lookup_cons_eq, lookup_cons_eq]
    split_ifs
    · rfl
    · exact ih

theorem pairwise_mapValues (h : ms.Pairwise Precedes) : (mapValues f ms).Pairwise Precedes :=
  List.pairwise_map.2 h

/-! ## Ordered values -/

/-- The members of an object are in the order of their keys. -/
def InOrder : Json → Prop
  | .object members => members.Pairwise Precedes
  | _ => True

/-- All objects in a value are in order. -/
abbrev Ordered : Json → Prop := Everywhere InOrder

/-- An object that is created from a list of members. -/
def create : Json → Json
  | .object members => .object (emplaceAll [] members)
  | json => json

/-- A value, with all its objects created from their lists of members. -/
abbrev stored : Json → Json := bottomUp create

/-- Members are kept, or inserted. -/
theorem mem_emplace {m : String × Json} {key : String} {value : Json}
    (h : m ∈ emplace key value ms) : m ∈ ms ∨ m = (key, value) := by
  rw [emplace] at h
  split_ifs at h
  · exact .inl h
  · exact ((List.mem_orderedInsert _).1 h).symm

theorem mem_emplaceAll {m : String × Json} {kept : List (String × Json)}
    (h : m ∈ emplaceAll kept ms) : m ∈ kept ∨ m ∈ ms := by
  induction ms generalizing kept with
  | nil => exact .inl h
  | cons m' ms ih =>
    rcases ih h with hkept | hms
    · rcases mem_emplace hkept with hkept | rfl
      · exact .inl hkept
      · exact .inr List.mem_cons_self
    · exact .inr (List.mem_cons_of_mem _ hms)

/-- Stored objects are ordered. What holds for all arrays and objects is not affected. -/
theorem everywhere_stored (harray : ∀ es, P (.array es)) (hobject : ∀ ms, P (.object ms))
    (h : Everywhere P v) : Everywhere (fun w => InOrder w ∧ P w) (stored v) := by
  induction h with
  | @intro v hself _ ih =>
    cases v with
    | array elements =>
      rw [stored, bottomUp_array]
      exact .intro ⟨trivial, harray _⟩ (List.forall_mem_map.2 ih)
    | object members =>
      rw [stored, bottomUp_object]
      refine .intro ⟨sorted_emplaceAll .nil, hobject _⟩ (List.forall_mem_map.2 fun m hm => ?_)
      obtain ⟨m, hmembers, rfl⟩ :=
        List.mem_map.1 ((mem_emplaceAll hm).resolve_left List.not_mem_nil)
      exact ih _ (List.mem_map_of_mem hmembers)
    | _ => exact .intro ⟨trivial, hself⟩ fun _ hw => absurd hw List.not_mem_nil

end Hostcontrold.Json
