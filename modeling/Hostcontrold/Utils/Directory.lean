import Hostcontrold.Utils.IOStreamFile
import Hostcontrold.Interaction.World

/-!
# Directories

A directory is created by the system call `mkdir`, which fails if there is something at
the path already: this is no error, unless it failed for another reason.

What has been at the path is not looked at. So the report is true if it means that there
is something at the path afterwards (`createDirectory_reports`): a file is taken for a
directory.
-/

namespace Hostcontrold

open Interaction Program

/-- The operations around `mkdir`, which answers zero if it succeeds. -/
inductive DirectoryOp
  | mkdir (path : String) (mode : Nat)
  | errno
  | strerror
  | log (priority : LogPriority) (message : String)
  deriving DecidableEq, Repr

abbrev DirectoryOp.Ans : DirectoryOp → Type
  | .mkdir _ _ => Int
  | .errno => Int
  | .strerror => String
  | .log _ _ => Unit

abbrev DirectoryAction := Program DirectoryOp.Ans

namespace IOStreamFile

/-- The number of the error that there is something at the path. -/
def eexist : Int := 17

/-- The permissions of a new directory: all for the user and the group, and reading and
    searching for the others. -/
def directoryMode : Nat := 0o775

def createDirectory (path : String) : DirectoryAction Bool := do
  let status ← perform (DirectoryOp.mkdir path directoryMode)
  if status = 0 then return true
  else if (← perform DirectoryOp.errno) = eexist then
    perform (DirectoryOp.log .debug ("Folder already exists: " ++ path))
    return true
  else
    let error ← perform DirectoryOp.strerror
    perform (DirectoryOp.log .err ("Failed to create folder: " ++ path ++ ": " ++ error))
    return false

/-- A file system, and the number of the latest error. -/
structure DirectoryState where
  fs : FileSystem
  errno : Int

/-- A directory is created where there is nothing; otherwise this is the error, unless
    there is another one. -/
inductive DirectoryWorld : World DirectoryOp.Ans DirectoryState
  | made {path : String} {mode : Nat} {s : DirectoryState} : s.fs path = .absent →
      DirectoryWorld s ⟨.mkdir path mode, (0 : Int)⟩ { s with fs := s.fs.set path .directory }
  | failed {path : String} {mode : Nat} {status errno : Int} {s : DirectoryState} :
      status ≠ 0 → (errno = eexist → s.fs path ≠ .absent) →
      DirectoryWorld s ⟨.mkdir path mode, status⟩ { s with errno }
  | errno {s : DirectoryState} : DirectoryWorld s ⟨.errno, s.errno⟩ s
  | strerror {s : DirectoryState} {error : String} : DirectoryWorld s ⟨.strerror, error⟩ s
  | log {s : DirectoryState} {priority : LogPriority} {message : String} :
      DirectoryWorld s ⟨.log priority message, ()⟩ s

/-- A creation reports what it did: there is something at the path, what was there has been
    kept, and it is a directory unless it was there before. -/
structure DirectoryReports (fs : FileSystem) (path : String) (success : Bool)
    (fs' : FileSystem) : Prop extends Changed fs path success fs' where
  exists_of_true : success = true → fs' path ≠ .absent
  kept : fs path ≠ .absent → fs' = fs
  made : success = true → fs path = .absent → fs' path = .directory

/-- What is reported of the creation of a directory is true, whatever fails. -/
theorem createDirectory_reports {path : String} {tr : List (Event DirectoryOp.Ans)}
    {success : Bool} {s s' : DirectoryState} (h : Runs (createDirectory path) tr success)
    (hM : Evolves DirectoryWorld s tr s') : DirectoryReports s.fs path success s'.fs := by
  obtain ⟨status, tr, rfl, h₁⟩ := runs_perform_bind_iff.1 h
  obtain ⟨s₁, hmkdir, hM⟩ := evolves_cons_iff.1 hM
  split_ifs at h₁ with hstatus
  · obtain ⟨rfl, rfl⟩ := runs_pure_iff.1 h₁
    obtain rfl := evolves_nil_iff.1 hM
    cases hmkdir with
    | made habsent =>
      exact ⟨changed_set, fun _ => by simp, fun h => absurd habsent h, fun _ _ => by simp⟩
    | failed hne => exact absurd hstatus hne
  · cases hmkdir with
    | made => exact absurd rfl hstatus
    | @failed _ _ _ errno _ _ herrno =>
      obtain ⟨_, _, rfl, h₂⟩ := runs_perform_bind_iff.1 h₁
      obtain ⟨_, he, hM⟩ := evolves_cons_iff.1 hM
      cases he
      split_ifs at h₂ with hexists
      · obtain ⟨_, _, rfl, h₃⟩ := runs_perform_bind_iff.1 h₂
        obtain ⟨_, he, hM⟩ := evolves_cons_iff.1 hM
        obtain ⟨rfl, rfl⟩ := runs_pure_iff.1 h₃
        obtain rfl := evolves_nil_iff.1 hM
        cases he
        exact ⟨changed_self, fun _ => herrno hexists, fun _ => rfl,
          fun _ habsent => absurd habsent (herrno hexists)⟩
      · obtain ⟨_, _, rfl, h₃⟩ := runs_perform_bind_iff.1 h₂
        obtain ⟨_, he, hM⟩ := evolves_cons_iff.1 hM
        obtain ⟨_, _, rfl, h₄⟩ := runs_perform_bind_iff.1 h₃
        obtain ⟨_, he', hM⟩ := evolves_cons_iff.1 hM
        obtain ⟨rfl, rfl⟩ := runs_pure_iff.1 h₄
        obtain rfl := evolves_nil_iff.1 hM
        cases he
        cases he'
        exact ⟨changed_self, nofun, fun _ => rfl, nofun⟩

end IOStreamFile

end Hostcontrold
