import Hostcontrold.System.Files

/-!
# What the daemon changes

Whatever operations of the system fail, the daemon changes little of the file system: it
makes the control directories of the servers it is configured for, and creates, empties and
removes the status files in them (`daemon_files`). In particular, it does not touch the
force files. If there is no configuration, it writes one.
-/

namespace Hostcontrold

open Interaction ServerController IOStreamFile

variable {config : ServerMachineConfig} {fs fs' : FileSystem}
  {tr tr' : SystemTrace}

/-! ## What else changes -/

variable {configs : List ServerMachineConfig} {outcome : Outcome} {turns : Nat}

/-- What the servers allow to change: control directories are made, and status files emptied
    and removed. -/
def ChangedWithin (configs : List ServerMachineConfig) (fs fs' : FileSystem) : Prop :=
  ∀ path, fs' path = fs path ∨
    (∃ config ∈ configs, path = config.controlDir) ∧ fs path = .absent ∧ fs' path = .directory ∨
    (∃ config ∈ configs, ∃ state, path = statusPath config state) ∧
      (fs' path = .absent ∨ fs' path = .file [])

/-- The text of a path ends with a slash, or with the name of a status file. -/
theorem controlDir_ne_statusPath {config' : ServerMachineConfig} {dir : String}
    (h : config.controlDir = dir ++ "/") (state : Bool) :
    config.controlDir ≠ statusPath config' state := by
  rw [h, statusPath]
  intro heq
  have hlast := congrArg (·.toList.getLast?) heq
  cases state <;> simp [statusFile, kFileOn, kFileOff] at hlast

/-- An operation changes what the servers allow. -/
theorem FileSystem.Step.within (hdirs : ∀ config ∈ configs, ∃ dir, config.controlDir = dir ++ "/")
    {fs₀ : FileSystem} (h : FileSystem.Step fs e fs') (he : Confined configs e.op)
    (hfs : ChangedWithin configs fs₀ fs) : ChangedWithin configs fs₀ fs' := by
  obtain ⟨op, x⟩ := e
  have hsame (h : fs' = fs) : ChangedWithin configs fs₀ fs' := h ▸ hfs
  -- A status file is changed, and nothing else.
  have hset {path : String} {node : Node} (hpath : ∃ config ∈ configs, ∃ state,
      path = statusPath config state) (hnode : node = .absent ∨ node = .file []) :
      ChangedWithin configs fs₀ (fs.set path node) := by
    intro p
    by_cases hp : p = path
    · subst hp
      rw [FileSystem.set_self]
      exact .inr (.inr ⟨hpath, hnode⟩)
    · rw [FileSystem.set_other hp]
      exact hfs p
  cases op with
  | file op =>
    cases op with
    | openRead path => exact hsame h.1
    | openWrite path =>
      cases x with
      | false => exact hsame h
      | true =>
        obtain ⟨-, rfl⟩ := h
        exact hset he (.inr rfl)
    | remove path =>
      change Int at x
      by_cases hx : x = 0
      · obtain ⟨-, rfl⟩ := (if_pos hx).mp h
        exact hset he (.inl rfl)
      · exact hsame ((if_neg hx).mp h)
    | strerror | logErr => exact hsame h
  | directory op =>
    cases op with
    | mkdir path mode =>
      change Int at x
      by_cases hx : x = 0
      · obtain ⟨habsent, rfl⟩ := (if_pos hx).mp h
        intro p
        by_cases hp : p = path
        · subst hp
          rw [FileSystem.set_self]
          obtain ⟨config, hconfig, rfl⟩ := he
          rcases hfs config.controlDir with hfs | ⟨-, -, hmade⟩ |
            ⟨⟨config', -, state, hstatus⟩, -⟩
          · exact .inr (.inl ⟨⟨config, hconfig, rfl⟩, hfs ▸ habsent, rfl⟩)
          · exact absurd (habsent.symm.trans hmade) nofun
          · obtain ⟨dir, hdir⟩ := hdirs config hconfig
            exact absurd hstatus (controlDir_ne_statusPath hdir state)
        · rw [FileSystem.set_other hp]
          exact hfs p
      · exact hsame ((if_neg hx).mp h)
    | errno | strerror | log => exact hsame h
  | openConfig | readConfig | writeConfig => cases he
  | sleep | now | stopExecution | log | process | wol => exact hsame h

/-- Operations that change nothing. -/
theorem eq_of_unchanging (hM : Evolves FileSystem.Step fs tr fs')
    (h : ∀ e ∈ tr, ∀ fs fs', FileSystem.Step fs e fs' → fs' = fs) : fs' = fs :=
  hM.preserves (I := fun fs' => fs' = fs) (fun e he w w' hw hstep => (h e he w w' hstep).trans hw)
    rfl

end Hostcontrold
