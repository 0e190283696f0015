import Hostcontrold.Daemon.Start
import Mathlib.Logic.Function.Iterate

/-!
# Saving and loading the configuration

Saving and loading a configuration should not change it. But the decoder appends a
`/` to the control directory, and the encoder does not take it away, so that the
control directories get longer with every cycle (`cycles_eq`); everything else stays
as it was. Only an empty configuration survives (`roundTrips_iff`). The example
configuration, which already ends with a `/`, is read back with another one.
-/

namespace Hostcontrold

open Interaction

/-- Saving: the document of a list of servers. -/
def save (configs : List ServerMachineConfig) : Json :=
  .array (configs.map ServerMachineConfig.toJson)

/-- Loading: the servers of a document. -/
def load (json : Json) : Except JsonException (List ServerMachineConfig) :=
  json.elements.mapM ServerMachineConfig.fromJson

/-- Saving and loading for a number of times. -/
def cycles : Nat → List ServerMachineConfig → Except JsonException (List ServerMachineConfig)
  | 0, configs => .ok configs
  | n + 1, configs => load (save configs) >>= cycles n

/-- A server that the decoder can produce. -/
def Producible (config : ServerMachineConfig) : Prop :=
  ∃ json, ServerMachineConfig.fromJson json = .ok config

/-- Any number of cycles leaves the configuration as it was. -/
def RoundTrips (configs : List ServerMachineConfig) : Prop := ∀ n, cycles n configs = .ok configs

/-- The daemon controls the servers it has loaded. -/
theorem load_of_runs {i : Nat} {json : Json} {tr : List (Event MainOp.Ans)}
    {controllers : List Controlled}
    (h : Runs (createControllers i json.elements) tr (.ok controllers)) :
    load json = .ok (controllers.map Prod.fst) := by
  rw [load, mapM_eq_ok_iff, List.forall₂_map_right_iff]
  rcases runs_createControllers h with ⟨_, he, hcreated⟩ | ⟨_, _, _, _, _, he, -⟩
  · obtain rfl := Except.ok.inj he
    exact hcreated.imp fun _ _ hblock => hblock.1
  · cases he

/-! ## The control directories grow -/

/-- A path with `n` more slashes. -/
def withSlashes (n : Nat) (dir : String) : String := (· ++ "/")^[n] dir

/-- A server whose control directory has `n` more slashes. -/
def ServerMachineConfig.withSlashes (n : Nat) (config : ServerMachineConfig) :
    ServerMachineConfig :=
  { config with controlDir := Hostcontrold.withSlashes n config.controlDir }

theorem length_withSlashes (n : Nat) (dir : String) :
    (withSlashes n dir).length = dir.length + n := by
  induction n generalizing dir with
  | zero => rfl
  | succ n ih =>
    rw [withSlashes, Function.iterate_succ_apply]
    refine (ih (dir ++ "/")).trans ?_
    rw [String.length_append]
    exact Nat.add_right_comm _ _ _

variable {configs : List ServerMachineConfig}

/-- One cycle. -/
theorem load_save (h : ∀ config ∈ configs, Producible config) :
    load (save configs) = .ok (configs.map (ServerMachineConfig.withSlashes 1)) := by
  refine mapM_eq_ok_iff.2 (List.forall₂_map_left_iff.2 (List.forall₂_map_right_iff.2 ?_))
  refine List.forall₂_same.2 fun config hmem => ?_
  obtain ⟨json, hjson⟩ := h config hmem
  obtain ⟨hinterval, htimeout⟩ := ServerMachineConfig.inRange_of_fromJson hjson
  exact ServerMachineConfig.fromJson_toJson hinterval htimeout

/-- What has been loaded can be loaded again. -/
theorem producible_withSlashes (h : ∀ config ∈ configs, Producible config) :
    ∀ config ∈ configs.map (ServerMachineConfig.withSlashes 1), Producible config := by
  refine List.forall_mem_map.2 fun config hmem => ?_
  obtain ⟨json, hjson⟩ := h config hmem
  obtain ⟨hinterval, htimeout⟩ := ServerMachineConfig.inRange_of_fromJson hjson
  exact ⟨config.toJson, ServerMachineConfig.fromJson_toJson hinterval htimeout⟩

/-- With every cycle, a `/` is appended to each control directory. -/
theorem cycles_eq (h : ∀ config ∈ configs, Producible config) (n : Nat) :
    cycles n configs = .ok (configs.map (ServerMachineConfig.withSlashes n)) := by
  induction n generalizing configs with
  | zero => exact congrArg Except.ok (List.map_id configs).symm
  | succ n ih =>
    have hnext := ih (producible_withSlashes h)
    rw [List.map_map] at hnext
    rw [cycles, load_save h]
    exact hnext

/-- Saving and loading changes nothing if and only if there is nothing to save. -/
theorem roundTrips_iff (h : ∀ config ∈ configs, Producible config) :
    RoundTrips configs ↔ configs = [] := by
  constructor
  · intro hsame
    have hone := Except.ok.inj ((cycles_eq h 1).symm.trans (hsame 1))
    rcases configs with _ | ⟨config, configs⟩
    · rfl
    · have hdir := congrArg (·.controlDir.length) (List.cons_eq_cons.1 hone).1
      exact absurd ((length_withSlashes 1 config.controlDir).symm.trans hdir) (by simp)
  · rintro rfl n
    exact cycles_eq h n

/-- The decoder produces the example configuration from one without the slash. -/
theorem producible_example : ∀ config ∈ [exampleServerConfig], Producible config :=
  List.forall_mem_singleton.2
    ⟨{ exampleServerConfig with controlDir := "/share/lang-nas16" }.toJson, rfl⟩

/-- The example configuration is changed. -/
theorem roundTrips_iff_example :
    RoundTrips [exampleServerConfig] ↔ [exampleServerConfig] = [] :=
  roundTrips_iff producible_example

/-- The program writes the example configuration, and at the next start it reads
    another one. -/
theorem not_roundTrips_example :
    (∀ config ∈ [exampleServerConfig], Producible config) ∧
    load (save [exampleServerConfig]) =
      .ok [{ exampleServerConfig with controlDir := "/share/lang-nas16//" }] ∧
    ¬RoundTrips [exampleServerConfig] := by
  refine ⟨producible_example, rfl, ?_⟩
  intro h
  have hone : cycles 1 [exampleServerConfig] =
      .ok [{ exampleServerConfig with controlDir := "/share/lang-nas16//" }] := rfl
  exact absurd (hone.symm.trans (h 1)) (by decide)

end Hostcontrold
