import Hostcontrold.Controller.Files
import Hostcontrold.Daemon.Main

/-!
# The surroundings of the daemon

The controllers of the daemon share one file system, in which users create and
remove force files between the calls. An `Environment` says in advance what the
users do, and what all other operations are answered: those of the controllers
one by one, in the order in which each controller asks.

The daemon is run against an environment (`run`). A controller can also be run
alone (`alone`): it gets the same answers, is called in the same turns, and sees
the changes of its own force files, but there is no other controller.
-/

namespace Hostcontrold

open Interaction ServerController

/-! ## The environment -/

/-- The path of a force file: `force_on`, or `force_off`. -/
def forcePath (config : ServerMachineConfig) (on : Bool) : String :=
  config.controlDir ++ if on then kFileKeepOn else kFileKeepOff

/-- What users do to the force files of a server: a file is created, removed, or
    left as it is. -/
abbrev Changes := Bool → Option Bool

/-- The files after the changes. -/
def Changes.apply (changes : Changes) (config : ServerMachineConfig) (files : Files) : Files :=
  fun path =>
    if path = forcePath config true then (changes true).getD (files path)
    else if path = forcePath config false then (changes false).getD (files path)
    else files path

/-- The files after the changes for every server. -/
def changeAll (changes : Nat → Changes) (i : Nat) : List ServerMachineConfig → Files → Files
  | [], files => files
  | config :: configs, files => changeAll changes (i + 1) configs ((changes i).apply config files)

/-- What happens around the daemon. -/
structure Environment where
  /-- The configuration file. -/
  config : Json
  /-- The answer to the `n`-th operation of the `i`-th controller, unless it looks
      for a file. -/
  answers (i n : Nat) (op : Op) : op.Ans
  /-- The stop flag before a turn. -/
  stop : Nat → Bool
  /-- What users do before a turn to the force files of the `i`-th server. -/
  changes (turn i : Nat) : Changes

/-- The answer to an operation, given the files. -/
def respond (files : Files) (answer : (op : Op) → op.Ans) : (op : Op) → op.Ans
  | .checkFileExists path => files path
  | op => answer op

/-! ## The daemon -/

/-- The state of the surroundings: the files, how many operations each controller
    has performed, and the number of the turn. -/
structure Surroundings where
  files : Files
  asked : Nat → Nat
  turn : Nat

/-- The environment of the daemon as a handler. -/
def Environment.handler (env : Environment) (configs : List ServerMachineConfig) :
    Handler MainOp.Ans Surroundings
  | .openConfig, w => (true, w)
  | .readConfig, w => (.ok env.config, w)
  | .writeConfig _, w => (true, w)
  | .log _ _, w => ((), w)
  | .controller i op, w =>
    (respond w.files (env.answers i (w.asked i)) op,
      { w with
        files := affect ⟨op, respond w.files (env.answers i (w.asked i)) op⟩ w.files
        asked := fun j => if j = i then w.asked i + 1 else w.asked j })
  | .stopExecution, w =>
    (env.stop w.turn,
      { w with files := changeAll (env.changes w.turn) 0 configs w.files, turn := w.turn + 1 })
  | .sleep, w => ((), w)

/-- The run of the daemon for a number of turns. -/
def run (plus : Int → Int → Int) (env : Environment) (configs : List ServerMachineConfig)
    (files : Files) (turns : Nat) : Execution MainOp.Ans Outcome Surroundings :=
  exec (env.handler configs) (main plus turns) ⟨files, fun _ => 0, 0⟩

/-- The event of the `i`-th controller, if it is one. -/
def own? (i : Nat) : Event MainOp.Ans → Option (Event Op.Ans)
  | ⟨.controller j op, x⟩ => if j = i then some ⟨op, x⟩ else none
  | _ => none

/-- The events of the `i`-th controller. -/
def own (i : Nat) (tr : List (Event MainOp.Ans)) : Trace := tr.filterMap (own? i)

/-! ## A controller alone -/

/-- The answers to a controller that is alone with the files. -/
def aloneHandler (answers : Nat → (op : Op) → op.Ans) : Handler Op.Ans (Files × Nat) :=
  fun op (files, n) =>
    (respond files (answers n) op, affect ⟨op, respond files (answers n) op⟩ files, n + 1)

/-- The place in the round, of `count` controllers and a pause. -/
def position (count : Nat) : Nat → Nat
  | 0 => 0
  | turn + 1 => if position count turn = count then 0 else position count turn + 1

/-- The run of the `i`-th of `count` controllers for a number of turns, in which it
    is called when it is its turn. -/
def alone (plus : Int → Int → Int) (env : Environment) (count i : Nat)
    (config : ServerMachineConfig) (files : Files) :
    Nat → Execution Op.Ans ServerController (Files × Nat)
  | 0 => exec (aloneHandler (env.answers i)) (construct config) (files, 0)
  | turn + 1 =>
    let r := alone plus env count i config files turn
    let w := ((env.changes turn i).apply config r.state.1, r.state.2)
    if position count turn = i then
      let r' := exec (aloneHandler (env.answers i)) (doWork plus config r.result) w
      { r' with trace := r.trace ++ r'.trace }
    else { r with state := w }

/-! ## Separate controllers -/

/-- Two servers without a common file. -/
def Separate (config config' : ServerMachineConfig) : Prop :=
  ∀ path ∈ paths config, path ∉ paths config'

theorem Separate.symm {config config' : ServerMachineConfig} (h : Separate config config') :
    Separate config' config := fun path hpath hpath' => h path hpath' hpath

/-- A list is split at the last `a` in one way only. -/
theorem eq_of_append_cons_eq {α : Type} {a : α} {l l' s s' : List α} (hs : a ∉ s) (hs' : a ∉ s')
    (h : l ++ a :: s = l' ++ a :: s') : l = l' := by
  obtain ⟨t, rfl, ht⟩ | ⟨t, rfl, ht⟩ := List.append_eq_append_iff.1 h
  · cases t with
    | nil => rw [List.append_nil]
    | cons b t =>
      obtain ⟨-, rfl⟩ := List.cons_eq_cons.1 ht
      exact absurd (List.mem_append_right t List.mem_cons_self) hs
  · cases t with
    | nil => rw [List.append_nil]
    | cons b t =>
      obtain ⟨-, rfl⟩ := List.cons_eq_cons.1 ht
      exact absurd (List.mem_append_right t List.mem_cons_self) hs'

theorem mem_paths_iff {config : ServerMachineConfig} {path : String} : path ∈ paths config ↔
    ∃ name ∈ [kFileOn, kFileOff, kFileKeepOn, kFileKeepOff], path = config.controlDir ++ name := by
  simp [paths]

/-- The names of the files contain no `/`. -/
theorem slash_notMem {name : String} (h : name ∈ [kFileOn, kFileOff, kFileKeepOn, kFileKeepOff]) :
    '/' ∉ name.toList := by
  revert name
  decide

/-- Two servers with different control directories, each ending with a `/`, have no
    common file. -/
theorem separate_of_ne {config config' : ServerMachineConfig} {dir dir' : String}
    (hdir : config.controlDir = dir ++ "/") (hdir' : config'.controlDir = dir' ++ "/")
    (hne : config.controlDir ≠ config'.controlDir) : Separate config config' := by
  intro path hpath hpath'
  obtain ⟨name, hname, rfl⟩ := mem_paths_iff.1 hpath
  obtain ⟨name', hname', h⟩ := mem_paths_iff.1 hpath'
  rw [hdir, hdir'] at h
  have h := congrArg String.toList h
  simp only [String.toList_append, List.append_assoc] at h
  have hdirs := eq_of_append_cons_eq (slash_notMem hname) (slash_notMem hname') h
  rw [hdir, hdir', String.toList_inj.1 hdirs] at hne
  exact hne rfl

theorem slash_of_decoded {blocks : List Json} {configs : List ServerMachineConfig}
    (h : List.Forall₂ (fun json config => ServerMachineConfig.fromJson json = .ok config)
      blocks configs) : ∀ config ∈ configs, ∃ dir, config.controlDir = dir ++ "/" := by
  induction h with
  | nil => exact fun _ hmem => nomatch hmem
  | cons hjson _ ih => exact List.forall_mem_cons.2 ⟨(ServerMachineConfig.of_fromJson hjson).1, ih⟩

/-- The servers decoded from a configuration are separate if their control
    directories are different. -/
theorem separate_of_decoded {blocks : List Json} {configs : List ServerMachineConfig}
    (hdecoded : blocks.mapM ServerMachineConfig.fromJson = .ok configs)
    (hdirs : (configs.map ServerMachineConfig.controlDir).Nodup) : configs.Pairwise Separate := by
  have hslash := slash_of_decoded (forall₂_of_mapM hdecoded)
  refine (List.pairwise_map.1 hdirs).imp_of_mem ?_
  intro config config' hmem hmem' hne
  obtain ⟨dir, hdir⟩ := hslash _ hmem
  obtain ⟨dir', hdir'⟩ := hslash _ hmem'
  exact separate_of_ne hdir hdir' hne

end Hostcontrold
