import Hostcontrold.Interaction.Crash
import Hostcontrold.System.Operations

/-!
# The files of a controller on the system

On the system, a file is a node of the file system, which the operations of the standard
library change (`FileSystem.Step`), and any of them may fail. A controller sees of it which
paths exist.

That a file exists is found out by opening it. If this works for the status files whenever
they exist, and nobody else touches them (`SystemWorld`), the implementations of the file
operations are what a controller takes them for: they change the status files as they
report, and they do so atomically, so that a process that is killed leaves nothing behind
but what it would leave if it was killed between two operations (`refinement_status`). If
the operations of the system succeed, those of the controller do (`refinement_reliable`).
-/

namespace Hostcontrold

open Interaction ServerController IOStreamFile

/-! ## The file system -/

/-- What an operation does to the file system. It may fail for reasons of its own; a file
    is opened for writing, or removed, or a directory is made, only if it succeeds. -/
def FileSystem.Step : World SystemOp.Ans FileSystem := fun fs e fs' =>
  match e with
  | ⟨.file (.openRead path), opened⟩ => fs' = fs ∧ (opened = true → fs path ≠ .absent)
  | ⟨.file (.openWrite path), opened⟩ =>
    if opened then fs path ≠ .directory ∧ fs' = fs.set path (.file []) else fs' = fs
  | ⟨.file (.remove path), status⟩ =>
    if status = (0 : Int) then fs path ≠ .absent ∧ fs' = fs.set path .absent else fs' = fs
  | ⟨.directory (.mkdir path _), status⟩ =>
    if status = (0 : Int) then fs path = .absent ∧ fs' = fs.set path .directory else fs' = fs
  | ⟨.writeConfig _, _⟩ => ∀ path, path ≠ configPath → fs' path = fs path
  | _ => fs' = fs

/-- The path that could not be opened for reading, if this is what happened. -/
def unopened? : Event SystemOp.Ans → Option String
  | ⟨.file (.openRead path), opened⟩ => if opened then none else some path
  | _ => none

/-- The path that could not be written or removed, if this is what happened. -/
def unchanged? : Event SystemOp.Ans → Option String
  | ⟨.file (.openWrite path), opened⟩ => if opened then none else some path
  | ⟨.file (.remove path), status⟩ => if status = (0 : Int) then none else some path
  | _ => none

/-- A status file can be opened for reading if it exists. -/
def Noticed (config : ServerMachineConfig) (fs : FileSystem) (e : Event SystemOp.Ans) : Prop :=
  ∀ state, unopened? e = some (statusPath config state) → fs (statusPath config state) = .absent

/-- Writing and removing a status file succeeds. -/
def Succeeds (config : ServerMachineConfig) (e : Event SystemOp.Ans) : Prop :=
  ∀ state, unchanged? e ≠ some (statusPath config state)

instance (config : ServerMachineConfig) (e : Event SystemOp.Ans) :
    Decidable (Succeeds config e) :=
  inferInstanceAs (Decidable (∀ _ : Bool, _ ≠ _))

variable (config : ServerMachineConfig)

/-- Nobody else touches the status files, which are noticed. Everything else may change at
    any time. -/
def SystemWorld : World SystemOp.Ans FileSystem := fun fs e fs' =>
  Noticed config fs e ∧ ∃ fs₁, FileSystem.Step fs e fs₁ ∧
    ∀ state, fs' (statusPath config state) = fs₁ (statusPath config state)

/-- The operations on the status files succeed, too. -/
def ReliableSystem : World SystemOp.Ans FileSystem := fun fs e fs' =>
  Succeeds config e ∧ SystemWorld config fs e fs'

/-! ## The status files -/

/-- Which status files exist, on the system. -/
def statusNodes (fs : FileSystem) : Bool → Bool := status config (existing fs)

/-- What the operations do to the status files. -/
def StatusStep : World SystemOp.Ans (Bool → Bool) := fun φ e φ' =>
  match e with
  | ⟨.file (.openRead path), found⟩ =>
    φ' = φ ∧ ∀ state, path = statusPath config state → found = φ state
  | ⟨.file (.openWrite path), opened⟩ =>
    ∀ state, path = statusPath config state → φ' = fun b => opened && b == state || φ b
  | ⟨.file (.remove path), status⟩ => ∀ state, path = statusPath config state →
    φ' = fun b => !(decide (status = (0 : Int)) && b == state) && φ b
  | _ => φ' = φ

variable {config} {fs fs' : FileSystem} {e : Event SystemOp.Ans} {tr tr' : SystemTrace}

theorem statusNodes_apply (state : Bool) :
    statusNodes config fs state = decide (fs (statusPath config state) ≠ .absent) := rfl

theorem statusNodes_congr
    (h : ∀ state, fs' (statusPath config state) = fs (statusPath config state)) :
    statusNodes config fs' = statusNodes config fs :=
  funext fun state => by rw [statusNodes_apply, statusNodes_apply, h]

theorem statusPath_ne_controlDir (state : Bool) : statusPath config state ≠ config.controlDir := by
  cases state <;> simp [statusPath, statusFile, kFileOn, kFileOff]

theorem statusNodes_set {node : Node} (state : Bool) :
    statusNodes config (fs.set (statusPath config state) node) =
      fun b => if b = state then decide (node ≠ .absent) else statusNodes config fs b := by
  funext b
  rw [statusNodes_apply, FileSystem.set]
  simp only [statusPath_inj]
  split_ifs
  · rfl
  · rfl

/-- The status files on the system. -/
theorem SystemWorld.statusStep (h : SystemWorld config fs e fs') (he : Confined [config] e.op) :
    StatusStep config (statusNodes config fs) e (statusNodes config fs') := by
  obtain ⟨hnoticed, fs₁, hstep, hothers⟩ := h
  rw [statusNodes_congr hothers]
  obtain ⟨op, x⟩ := e
  have hother (h : fs₁ = fs) : statusNodes config fs₁ = statusNodes config fs := by rw [h]
  cases op with
  | file op =>
    cases op with
    | openRead path =>
      obtain ⟨rfl, hopened⟩ := hstep
      refine ⟨rfl, ?_⟩
      rintro state rfl
      rw [statusNodes_apply]
      cases x with
      | false => simpa using hnoticed state rfl
      | true => simpa using hopened rfl
    | openWrite path =>
      rintro state rfl
      cases x with
      | false => simpa using hother hstep
      | true =>
        obtain ⟨-, rfl⟩ := hstep
        funext b
        by_cases hb : b = state <;> simp [statusNodes_set, hb]
    | remove path =>
      rintro state rfl
      change Int at x
      by_cases hx : x = 0
      · obtain ⟨-, rfl⟩ := (if_pos hx).mp hstep
        funext b
        by_cases hb : b = state <;> simp [statusNodes_set, hb, hx]
      · simpa [hx] using hother ((if_neg hx).mp hstep)
    | strerror | logErr => exact hother hstep
  | directory op =>
    cases op with
    | mkdir path mode =>
      obtain ⟨_, hmem, rfl⟩ := he
      obtain rfl := List.mem_singleton.1 hmem
      change Int at x
      by_cases hx : x = 0
      · obtain ⟨-, rfl⟩ := (if_pos hx).mp hstep
        exact statusNodes_congr fun state => FileSystem.set_other (statusPath_ne_controlDir state)
      · exact hother ((if_neg hx).mp hstep)
    | errno | strerror | log => exact hother hstep
  | openConfig | readConfig | writeConfig => cases he
  | sleep | now | stopExecution | log | process | wol => exact hother hstep

/-! ## The implementations of the file operations -/

/-- An operation that does not change the status files. -/
def Quiet : SystemOp → Prop
  | .file (.openWrite _) | .file (.remove _) => False
  | _ => True

theorem quiet_deploy {op : Op} (h : writes? op = none) : (deploy op).Only Quiet := by
  cases op with
  | createEmptyFile | removeFile => cases h
  | checkFileExists => exact Program.Only.embed _ ((only_perform_iff _).2 trivial)
  | createDirectory | pingHost | sendMagicPacket | sendShutdownCommand =>
    exact Program.Only.embed _ ((only_true _).mono fun _ _ => trivial)
  | now | stopExecution | log => exact (only_perform_iff _).2 trivial

theorem StatusStep.of_quiet {φ φ' : Bool → Bool} (h : StatusStep config φ e φ')
    (he : Quiet e.op) : φ' = φ := by
  obtain ⟨op, x⟩ := e
  cases op with
  | file op =>
    cases op with
    | openRead => exact h.1
    | openWrite | remove => cases he
    | strerror | logErr => exact h
  | _ => exact h

/-- The status files go through the steps of the events. -/
theorem evolves_statusStep (hM : Evolves (SystemWorld config) fs tr fs')
    (hconfined : ∀ e ∈ tr, Confined [config] e.op) :
    Evolves (StatusStep config) (statusNodes config fs) tr (statusNodes config fs') := by
  induction hM with
  | nil fs => exact .nil _
  | cons he _ ih =>
    obtain ⟨hfirst, hrest⟩ := List.forall_mem_cons.1 hconfined
    exact .cons (he.statusStep hfirst) (ih hrest)

variable {path : String} {success : Bool} {events : List (Event FileOp.Ans)}

/-- The events of a creation: the file is found, or it is opened for writing. -/
theorem IOStreamFile.runs_createEmptyFile (h : Runs (createEmptyFile path) events success) :
    events = [⟨.openRead path, true⟩] ∧ success = true ∨
      ∃ opened logged, events = ⟨.openRead path, false⟩ :: ⟨.openWrite path, opened⟩ :: logged ∧
        success = opened ∧ ∀ e ∈ logged, Quiet (.file e.op) := by
  obtain ⟨found, _, rfl, h₁⟩ := runs_perform_bind_iff.1 h
  cases found with
  | true =>
    obtain ⟨rfl, rfl⟩ := runs_pure_iff.1 h₁
    exact .inl ⟨rfl, rfl⟩
  | false =>
    obtain ⟨opened, _, rfl, h₂⟩ := runs_perform_bind_iff.1 h₁
    cases opened with
    | true =>
      obtain ⟨rfl, rfl⟩ := runs_pure_iff.1 h₂
      exact .inr ⟨true, [], rfl, rfl, fun _ he => absurd he List.not_mem_nil⟩
    | false =>
      obtain ⟨_, _, rfl, h₃⟩ := runs_perform_bind_iff.1 h₂
      obtain ⟨rfl, rfl⟩ := runs_pure_iff.1 h₃
      exact .inr ⟨false, _, rfl, rfl, List.forall_mem_singleton.2 trivial⟩

/-- The events of a removal: the file is not found, or it is removed. -/
theorem IOStreamFile.runs_removeFile (h : Runs (removeFile path) events success) :
    events = [⟨.openRead path, false⟩] ∧ success = true ∨
      ∃ status logged, events = ⟨.openRead path, true⟩ :: ⟨.remove path, status⟩ :: logged ∧
        success = decide (status = (0 : Int)) ∧
        ∀ e ∈ logged, Quiet (.file e.op) := by
  obtain ⟨found, _, rfl, h₁⟩ := runs_perform_bind_iff.1 h
  cases found with
  | false =>
    obtain ⟨rfl, rfl⟩ := runs_pure_iff.1 h₁
    exact .inl ⟨rfl, rfl⟩
  | true =>
    obtain ⟨status, _, rfl, h₂⟩ := runs_perform_bind_iff.1 h₁
    split_ifs at h₂ with hstatus
    · obtain ⟨_, _, rfl, h₃⟩ := runs_perform_bind_iff.1 h₂
      obtain ⟨_, _, rfl, h₄⟩ := runs_perform_bind_iff.1 h₃
      obtain ⟨rfl, rfl⟩ := runs_pure_iff.1 h₄
      exact .inr ⟨status, _, rfl, (decide_eq_false hstatus).symm,
        List.forall_mem_cons.2 ⟨trivial, List.forall_mem_singleton.2 trivial⟩⟩
    · obtain ⟨rfl, rfl⟩ := runs_pure_iff.1 h₂
      exact .inr ⟨status, [], rfl, (decide_eq_true (not_not.1 hstatus)).symm,
        fun _ he => absurd he List.not_mem_nil⟩

variable {φ φ' : Bool → Bool} {state : Bool} {rest : List (Event FileOp.Ans)}

theorem StatusStep.evolves_of_quiet (hM : Evolves (StatusStep config) φ tr φ')
    (hquiet : ∀ e ∈ tr, Quiet e.op) : φ' = φ := by
  refine hM.preserves (I := fun φ' => φ' = φ) ?_ rfl
  intro e he w w' hw hstep
  exact (hstep.of_quiet (hquiet e he)).trans hw

/-- At every point of the creation of a status file, nothing has happened yet, or the file
    is there. When it is over, a success means that the file is there. -/
theorem step_createEmptyFile
    (h : Runs (createEmptyFile (statusPath config state)) (events ++ rest) success)
    (hM : Evolves (StatusStep config) φ (events.map (Event.embed SystemOp.file)) φ') :
    φ' = φ ∧ (rest = [] → success = true → φ state = true) ∨
      success = true ∧ φ' = fun b => b == state || φ b := by
  rcases runs_createEmptyFile h with ⟨he, rfl⟩ | ⟨opened, logged, he, rfl, hlogged⟩
  · rcases events with _ | ⟨e, events⟩
    · exact .inl ⟨evolves_nil_iff.1 hM, fun hrest => absurd (hrest ▸ he) nofun⟩
    · obtain ⟨rfl, hnil⟩ := List.cons_eq_cons.1 he
      obtain ⟨rfl, rfl⟩ := List.append_eq_nil_iff.1 hnil
      obtain ⟨_, ⟨rfl, hfound⟩, hM₁⟩ := evolves_cons_iff.1 hM
      exact .inl ⟨evolves_nil_iff.1 hM₁, fun _ _ => (hfound state rfl).symm⟩
  · rcases events with _ | ⟨e, _ | ⟨e', events⟩⟩
    · exact .inl ⟨evolves_nil_iff.1 hM, fun hrest => absurd (hrest ▸ he) nofun⟩
    · obtain ⟨rfl, hrest⟩ := List.cons_eq_cons.1 he
      obtain ⟨_, ⟨rfl, -⟩, hM₁⟩ := evolves_cons_iff.1 hM
      exact .inl ⟨evolves_nil_iff.1 hM₁, fun hnil => absurd (hnil ▸ hrest) nofun⟩
    · obtain ⟨rfl, htail⟩ := List.cons_eq_cons.1 he
      obtain ⟨rfl, hlast⟩ := List.cons_eq_cons.1 htail
      obtain ⟨_, ⟨rfl, -⟩, hM₁⟩ := evolves_cons_iff.1 hM
      obtain ⟨φ₁, hopened, hM₂⟩ := evolves_cons_iff.1 hM₁
      have hfirst := hopened state rfl
      -- The rest of the events are messages.
      have hquiet := (List.forall_mem_append.1 (hlast.symm ▸ hlogged)).1
      rw [StatusStep.evolves_of_quiet hM₂ (List.forall_mem_map.2 hquiet), hfirst]
      cases success with
      | true => exact .inr ⟨rfl, by simp⟩
      | false => exact .inl ⟨by simp, nofun⟩

/-- At every point of the removal of a status file, nothing has happened yet, or the file is
    gone. When it is over, a success means that the file is gone. -/
theorem step_removeFile
    (h : Runs (removeFile (statusPath config state)) (events ++ rest) success)
    (hM : Evolves (StatusStep config) φ (events.map (Event.embed SystemOp.file)) φ') :
    φ' = φ ∧ (rest = [] → success = true → φ state = false) ∨
      success = true ∧ φ' = fun b => b != state && φ b := by
  rcases runs_removeFile h with ⟨he, rfl⟩ | ⟨status, logged, he, rfl, hlogged⟩
  · rcases events with _ | ⟨e, events⟩
    · exact .inl ⟨evolves_nil_iff.1 hM, fun hrest => absurd (hrest ▸ he) nofun⟩
    · obtain ⟨rfl, hnil⟩ := List.cons_eq_cons.1 he
      obtain ⟨rfl, rfl⟩ := List.append_eq_nil_iff.1 hnil
      obtain ⟨_, ⟨rfl, hfound⟩, hM₁⟩ := evolves_cons_iff.1 hM
      exact .inl ⟨evolves_nil_iff.1 hM₁, fun _ _ => (hfound state rfl).symm⟩
  · rcases events with _ | ⟨e, _ | ⟨e', events⟩⟩
    · exact .inl ⟨evolves_nil_iff.1 hM, fun hrest => absurd (hrest ▸ he) nofun⟩
    · obtain ⟨rfl, hrest⟩ := List.cons_eq_cons.1 he
      obtain ⟨_, ⟨rfl, -⟩, hM₁⟩ := evolves_cons_iff.1 hM
      exact .inl ⟨evolves_nil_iff.1 hM₁, fun hnil => absurd (hnil ▸ hrest) nofun⟩
    · obtain ⟨rfl, htail⟩ := List.cons_eq_cons.1 he
      obtain ⟨rfl, hlast⟩ := List.cons_eq_cons.1 htail
      obtain ⟨_, ⟨rfl, -⟩, hM₁⟩ := evolves_cons_iff.1 hM
      obtain ⟨φ₁, hremoved, hM₂⟩ := evolves_cons_iff.1 hM₁
      have hfirst := hremoved state rfl
      have hquiet := (List.forall_mem_append.1 (hlast.symm ▸ hlogged)).1
      rw [StatusStep.evolves_of_quiet hM₂ (List.forall_mem_map.2 hquiet), hfirst]
      by_cases hstatus : status = (0 : Int)
      · exact .inr ⟨by simp [hstatus], by simp [hstatus, bne]⟩
      · exact .inl ⟨by simp [hstatus], by simp [hstatus]⟩

/-! ## Refinement -/

/-- The status files have not changed. -/
def SameStatus (config : ServerMachineConfig) (files files' : Files) : Prop :=
  status config files' = status config files

theorem status_affect_create (files : Files) : status config
    (affect ⟨.createEmptyFile (statusPath config state), true⟩ files) =
      fun b => b == state || status config files b := by
  funext b
  simp [status, affect]

theorem status_affect_remove (files : Files) : status config
    (affect ⟨.removeFile (statusPath config state), true⟩ files) =
      fun b => b != state && status config files b := by
  funext b
  simp [status, affect, bne]

/-- What happens to the status files while an operation is performed: at every point,
    nothing has happened yet, or all of it has. -/
theorem step_deploy {op : Op} {x : op.Ans} {tr' : SystemTrace} (howned : Owned config op)
    (h : Runs (deploy op) (tr ++ tr') x) (hM : Evolves (SystemWorld config) fs tr fs') :
    SameStatus config (existing fs) (existing fs') ∧
        (tr' = [] → StatusWorld config (existing fs) ⟨op, x⟩ (existing fs')) ∨
      failed ⟨op, x⟩ = false ∧ StatusWorld config (existing fs) ⟨op, x⟩ (existing fs') := by
  have hconfined := h.only (confined_deploy (List.mem_singleton.2 (rfl : config = config)) howned)
  have hstep := evolves_statusStep hM (List.forall_mem_append.1 hconfined).1
  by_cases hwrites : writes? op = none
  · have hquiet := (List.forall_mem_append.1 (h.only (quiet_deploy hwrites))).1
    have hsame := StatusStep.evolves_of_quiet hstep hquiet
    refine .inl ⟨hsame, fun _ => ?_⟩
    rw [StatusWorld, affect_of_writes_none hwrites]
    exact hsame
  cases op with
  | createEmptyFile path =>
    obtain ⟨state, rfl⟩ := howned.resolve_left nofun
    obtain ⟨_, he, hrun⟩ := (runs_embed_iff _).1 h
    obtain ⟨events, rest, rfl, rfl, hrest⟩ := List.append_eq_map_iff.1 he
    rcases step_createEmptyFile hrun hstep with ⟨hsame, hfound⟩ | ⟨rfl, hcreated⟩
    · refine .inl ⟨hsame, fun hnil => ?_⟩
      obtain rfl := List.map_eq_nil_iff.1 (hrest.trans hnil)
      refine hsame.trans ?_
      cases x with
      | false => rfl
      | true =>
        rw [status_affect_create]
        funext b
        by_cases hb : b = state
        · rw [hb, hfound rfl rfl, beq_self_eq_true, Bool.true_or]
        · rw [beq_eq_false_iff_ne.2 hb, Bool.false_or]
          rfl
    · refine .inr ⟨rfl, ?_⟩
      rw [StatusWorld, status_affect_create]
      exact hcreated
  | removeFile path =>
    obtain ⟨state, rfl⟩ := howned.resolve_left nofun
    obtain ⟨_, he, hrun⟩ := (runs_embed_iff _).1 h
    obtain ⟨events, rest, rfl, rfl, hrest⟩ := List.append_eq_map_iff.1 he
    rcases step_removeFile hrun hstep with ⟨hsame, hfound⟩ | ⟨rfl, hremoved⟩
    · refine .inl ⟨hsame, fun hnil => ?_⟩
      obtain rfl := List.map_eq_nil_iff.1 (hrest.trans hnil)
      refine hsame.trans ?_
      cases x with
      | false => rfl
      | true =>
        rw [status_affect_remove]
        funext b
        by_cases hb : b = state
        · rw [hb, hfound rfl rfl, bne_self_eq_false, Bool.false_and]
        · rw [bne_iff_ne.2 hb, Bool.true_and]
          rfl
    · refine .inr ⟨rfl, ?_⟩
      rw [StatusWorld, status_affect_remove]
      exact hremoved
  | _ => exact absurd rfl hwrites

/-- On the system, the operations of a controller change the status files as they should,
    atomically. -/
theorem refinement_status (config : ServerMachineConfig) : Refinement deploy (Owned config)
    (StatusWorld config) (SystemWorld config) existing (SameStatus config) where
  same_refl _ := rfl
  complete {op x tr w w'} howned h hM := by
    rcases step_deploy howned ((List.append_nil tr).symm ▸ h) hM with ⟨-, hstep⟩ | ⟨-, hstep⟩
    · exact hstep rfl
    · exact hstep
  interrupted howned h hM := (step_deploy howned h hM).imp And.left And.right

/-- If the operations on the status files succeed, so do those of the controller. -/
theorem not_failed_deploy {op : Op} {x : op.Ans} (howned : Owned config op)
    (h : Runs (deploy op) tr x) (hok : ∀ e ∈ tr, Succeeds config e) : failed ⟨op, x⟩ = false := by
  cases op with
  | createEmptyFile path =>
    obtain ⟨state, rfl⟩ := howned.resolve_left nofun
    obtain ⟨_, rfl, hrun⟩ := (runs_embed_iff _).1 h
    rcases runs_createEmptyFile hrun with ⟨-, rfl⟩ | ⟨opened, logged, rfl, rfl, -⟩
    · rfl
    · obtain ⟨-, hrest⟩ := List.forall_mem_cons.1 hok
      obtain ⟨hopened, -⟩ := List.forall_mem_cons.1 hrest
      cases x with
      | true => rfl
      | false => exact absurd rfl (hopened state)
  | removeFile path =>
    obtain ⟨state, rfl⟩ := howned.resolve_left nofun
    obtain ⟨_, rfl, hrun⟩ := (runs_embed_iff _).1 h
    rcases runs_removeFile hrun with ⟨-, rfl⟩ | ⟨status, logged, rfl, rfl, -⟩
    · rfl
    · obtain ⟨-, hrest⟩ := List.forall_mem_cons.1 hok
      obtain ⟨hremoved, -⟩ := List.forall_mem_cons.1 hrest
      change Int at status
      by_cases hstatus : status = 0
      · exact congrArg (!·) (decide_eq_true hstatus)
      · exact absurd (if_neg hstatus) (hremoved state)
  | _ => rfl

theorem evolves_reliable_iff : Evolves (ReliableSystem config) fs tr fs' ↔
    (∀ e ∈ tr, Succeeds config e) ∧ Evolves (SystemWorld config) fs tr fs' := by
  induction tr generalizing fs with
  | nil => simp
  | cons e tr ih =>
    simp only [evolves_cons_iff, ih, List.forall_mem_cons, ReliableSystem]
    constructor
    · rintro ⟨w, ⟨he, hstep⟩, hok, hM⟩
      exact ⟨⟨he, hok⟩, w, hstep, hM⟩
    · rintro ⟨⟨he, hok⟩, w, hstep, hM⟩
      exact ⟨w, ⟨he, hstep⟩, hok, hM⟩

theorem refinement_reliable (config : ServerMachineConfig) : Refinement deploy (Owned config)
    (ReliableWorld config) (ReliableSystem config) existing (SameStatus config) where
  same_refl _ := rfl
  complete howned h hM := by
    obtain ⟨hok, hM'⟩ := evolves_reliable_iff.1 hM
    exact ⟨not_failed_deploy howned h hok, (refinement_status config).complete howned h hM'⟩
  interrupted howned h hM :=
    (step_deploy howned h (evolves_reliable_iff.1 hM).2).imp And.left id

/-! ## A machine -/

/-- A machine on which it is `now`, all processes end with `result`, nothing fails, and the
    configuration is `json`. -/
def machine (json : Json) (now : Int) (result : ProcessResult) : Handler SystemOp.Ans FileSystem
  | .openConfig, fs => (fs configPath ≠ .absent, fs)
  | .readConfig, fs => (.ok json, fs)
  | .writeConfig _, fs => (true, fs.set configPath (.file []))
  | .sleep, fs => ((), fs)
  | .now, fs => (now, fs)
  | .stopExecution, fs => (false, fs)
  | .log _ _, fs => ((), fs)
  | .file op, fs => IOStreamFile.handler (fun _ => false) op fs
  | .directory (.mkdir path _), fs =>
    if fs path = .absent then ((0 : Int), fs.set path .directory) else ((-1 : Int), fs)
  | .directory .errno, fs => (eexist, fs)
  | .directory .strerror, fs => ("", fs)
  | .directory (.log _ _), fs => ((), fs)
  | .process .blockSignals, fs => ([], fs)
  | .process (.system _), fs => (result, fs)
  | .process (.restoreSignals _), fs => ((), fs)
  | .process .strerror, fs => ("", fs)
  | .process (.log _ _), fs => ((), fs)
  | .wol mac (.read position), fs => (WakeOnLan.charAt (Utf8.ofString mac) position, fs)
  | .wol _ (.write _ _), fs => ((), fs)
  | .wol _ (.load _), fs => ((0 : UInt8), fs)
  | .wol _ .socket, fs => ((3 : Int), fs)
  | .wol _ (.setsockopt _), fs => ((0 : Int), fs)
  | .wol _ (.sendto _ _ _ _), fs => ((102 : Int), fs)
  | .wol _ (.close _), fs => ((), fs)
  | .wol _ .strerror, fs => (([] : Bytes), fs)
  | .wol _ (.logErr _), fs => ((), fs)

variable {json : Json} {now : Int} {result : ProcessResult}

/-- The streams of the standard library do what file operations do. -/
theorem step_handler (fails : FileOp → Bool) (op : FileOp) (fs : FileSystem) :
    FileSystem.Step fs ⟨.file op, (IOStreamFile.handler fails op fs).1⟩
      (IOStreamFile.handler fails op fs).2 := by
  cases op with
  | openRead path => exact ⟨rfl, fun h => of_decide_eq_true (Bool.and_eq_true_iff.1 h).2⟩
  | openWrite path =>
    by_cases h : fails (.openWrite path) = true ∨ fs path = .directory
    · rw [handler_openWrite_of_fails h]
      rfl
    · rw [handler_openWrite h]
      exact ⟨fun hdirectory => h (.inr hdirectory), rfl⟩
  | remove path =>
    by_cases h : fails (.remove path) = true ∨ fs path = .absent
    · have hhandler : handler fails (.remove path) fs = (-1, fs) := if_pos h
      rw [hhandler]
      rfl
    · have hhandler : handler fails (.remove path) fs = (0, fs.set path .absent) := if_neg h
      rw [hhandler]
      exact ⟨fun habsent => h (.inr habsent), rfl⟩
  | strerror | logErr => rfl

theorem step_machine (op : SystemOp) (fs : FileSystem) :
    FileSystem.Step fs ⟨op, (machine json now result op fs).1⟩
      (machine json now result op fs).2 := by
  cases op with
  | file op => exact step_handler _ op fs
  | directory op =>
    cases op with
    | mkdir path mode =>
      by_cases h : fs path = .absent
      · have hmade : machine json now result (.directory (.mkdir path mode)) fs =
            ((0 : Int), fs.set path .directory) := if_pos h
        rw [hmade]
        exact ⟨h, rfl⟩
      · have hexists : machine json now result (.directory (.mkdir path mode)) fs =
            ((-1 : Int), fs) := if_neg h
        rw [hexists]
        rfl
    | errno | strerror | log => rfl
  | writeConfig => exact fun path hpath => FileSystem.set_other hpath
  | process op => cases op <;> rfl
  | wol mac op => cases op <;> rfl
  | openConfig | readConfig | sleep | now | stopExecution | log => rfl

theorem noticed_machine (op : SystemOp) :
    Noticed config fs ⟨op, (machine json now result op fs).1⟩ := by
  intro state h
  cases op with
  | file op =>
    cases op with
    | openRead path =>
      by_contra hexists
      rw [unopened?] at h
      split_ifs at h with hopened
      cases h
      exact hopened (decide_eq_true hexists)
    | _ => cases h
  | _ => cases h

theorem step_of_machine {e : Event SystemOp.Ans}
    (h : World.ofHandler (machine json now result) fs e fs') : FileSystem.Step fs e fs' := by
  obtain ⟨op, x⟩ := e
  obtain ⟨rfl, rfl⟩ := Prod.mk.inj (show machine json now result op fs = (x, fs') from h)
  exact step_machine op fs

/-- What happens on a machine, if the operations on the status files succeed. -/
theorem evolves_machine (h : Evolves (World.ofHandler (machine json now result)) fs tr fs')
    (hok : ∀ e ∈ tr, Succeeds config e) : Evolves (ReliableSystem config) fs tr fs' := by
  refine evolves_reliable_iff.2 ⟨hok, h.mono ?_⟩
  rintro fs ⟨op, x⟩ fs' he
  obtain ⟨rfl, rfl⟩ := Prod.mk.inj (show machine json now result op fs = (x, fs') from he)
  exact ⟨noticed_machine op, _, step_machine op fs, fun _ => rfl⟩

end Hostcontrold
