import Hostcontrold.Controller.Files

/-!
# Files by streams

A file is looked for, created and removed through the streams of the standard
library. Whether it exists is tested by opening it for reading. But this can fail for
a file that exists, for lack of permissions or descriptors, and then the file is taken
to be absent:

* it is "created", by opening it for writing, which empties it;
* it is "removed", by doing nothing.

A file system says what there is at every path (`FileSystem`); which operations fail
for reasons of their own is arbitrary. What is reported of a creation, or a removal, is
true in all other cases, and only in these (`fileReports_iff`).
-/

namespace Hostcontrold

open Interaction Program

/-- What there is at a path. -/
inductive Node
  | absent
  | file (content : List UInt8)
  | directory
  deriving DecidableEq, Repr

abbrev FileSystem := String → Node

/-- The file system with another node at a path. -/
def FileSystem.set (fs : FileSystem) (path : String) (node : Node) : FileSystem :=
  fun p => if p = path then node else fs p

/-- The operations of the standard library. Opening a file answers whether it is open,
    and removing it answers zero if it succeeds. -/
inductive FileOp
  | openRead (path : String)
  | openWrite (path : String)
  | remove (path : String)
  | strerror
  | logErr (message : String)
  deriving DecidableEq, Repr

abbrev FileOp.Ans : FileOp → Type
  | .openRead _ => Bool
  | .openWrite _ => Bool
  | .remove _ => Int
  | .strerror => String
  | .logErr _ => Unit

abbrev FileAction := Program FileOp.Ans

namespace IOStreamFile

def checkFileExists (path : String) : FileAction Bool := perform (FileOp.openRead path)

def createEmptyFile (path : String) : FileAction Bool := do
  if ← checkFileExists path then return true
  else if (← perform (FileOp.openWrite path)) = false then
    perform (FileOp.logErr ("Failed to create file: " ++ path))
    return false
  else return true

def removeFile (path : String) : FileAction Bool := do
  if (← checkFileExists path) = false then return true
  else
    let status ← perform (FileOp.remove path)
    if status ≠ 0 then
      let error ← perform FileOp.strerror
      perform (FileOp.logErr ("Failed to delete file: " ++ path ++ ": " ++ error))
      return false
    else return true

/-! ## Execution -/

/-- A file system in which some operations fail for reasons of their own. A directory
    cannot be opened for writing. -/
def handler (fails : FileOp → Bool) : Handler FileOp.Ans FileSystem
  | .openRead path, fs => (!fails (.openRead path) && fs path ≠ .absent, fs)
  | .openWrite path, fs =>
    if fails (.openWrite path) ∨ fs path = .directory then (false, fs)
    else (true, fs.set path (.file []))
  | .remove path, fs =>
    if fails (.remove path) ∨ fs path = .absent then (-1, fs) else (0, fs.set path .absent)
  | .strerror, fs => ("", fs)
  | .logErr _, fs => ((), fs)

variable (fails : FileOp → Bool) (fs : FileSystem) (path : String)

/-- The outcome of a creation. -/
def create : Execution FileOp.Ans Bool FileSystem :=
  exec (handler fails) (createEmptyFile path) fs

/-- The outcome of a removal. -/
def remove : Execution FileOp.Ans Bool FileSystem :=
  exec (handler fails) (removeFile path) fs

/-- Nothing but the node at a path has changed, and not even this if `success` is
    false. -/
structure Changed (success : Bool) (fs' : FileSystem) : Prop where
  unchanged : success = false → fs' = fs
  others : ∀ p, p ≠ path → fs' p = fs p

/-- A creation reports what it did: the path exists, and no file has been changed. -/
structure CreateReports (success : Bool) (fs' : FileSystem) : Prop
    extends Changed fs path success fs' where
  exists_of_true : success = true → fs' path ≠ .absent
  kept : ∀ content, fs path = .file content → fs' path = .file content

/-- A removal reports what it did: there is nothing at the path. -/
structure RemoveReports (success : Bool) (fs' : FileSystem) : Prop
    extends Changed fs path success fs' where
  absent_of_true : success = true → fs' path = .absent

/-- The path can be opened for reading. -/
def Readable : Prop := fails (.openRead path) = false ∧ fs path ≠ .absent

instance : Decidable (Readable fails fs path) := inferInstanceAs (Decidable (_ ∧ _))

variable {fails fs path}

theorem handler_openRead : handler fails (.openRead path) fs =
    (decide (Readable fails fs path), fs) := by
  refine congrArg (·, fs) (Bool.eq_iff_iff.2 ?_)
  rw [decide_eq_true_iff, Readable]
  simp

@[simp]
theorem handler_logErr (message : String) : handler fails (.logErr message) fs = ((), fs) := rfl

@[simp]
theorem handler_strerror : handler fails .strerror fs = ("", fs) := rfl

/-- What can be opened for reading is not created. -/
theorem create_of_readable (h : Readable fails fs path) :
    (create fails fs path).result = true ∧ (create fails fs path).state = fs := by
  simp [create, createEmptyFile, checkFileExists, handler_openRead, h, -bind_pure_comp]

theorem create_of_not_readable (h : ¬Readable fails fs path) :
    (create fails fs path).result = (handler fails (.openWrite path) fs).1 ∧
      (create fails fs path).state = (handler fails (.openWrite path) fs).2 := by
  rcases hwrite : handler fails (.openWrite path) fs with ⟨_ | _, fs'⟩ <;>
    simp [create, createEmptyFile, checkFileExists, handler_openRead, h, hwrite, -bind_pure_comp]

/-- What cannot be opened for reading is not removed. -/
theorem remove_of_not_readable (h : ¬Readable fails fs path) :
    (remove fails fs path).result = true ∧ (remove fails fs path).state = fs := by
  simp [remove, removeFile, checkFileExists, handler_openRead, h, -bind_pure_comp]

theorem remove_of_readable (h : Readable fails fs path) :
    (remove fails fs path).result = decide ((handler fails (.remove path) fs).1 = 0) ∧
      (remove fails fs path).state = (handler fails (.remove path) fs).2 := by
  rcases hremove : handler fails (.remove path) fs with ⟨status, fs'⟩
  by_cases hstatus : status = 0 <;>
    simp [remove, removeFile, checkFileExists, handler_openRead, h, hremove, hstatus,
      -bind_pure_comp]

@[simp]
theorem FileSystem.set_self {node : Node} : fs.set path node path = node := if_pos rfl

theorem FileSystem.set_other {node : Node} {p : String} (h : p ≠ path) :
    fs.set path node p = fs p := if_neg h

theorem handler_openWrite_of_fails (h : fails (.openWrite path) = true ∨ fs path = .directory) :
    handler fails (.openWrite path) fs = (false, fs) := if_pos h

theorem handler_openWrite (h : ¬(fails (.openWrite path) = true ∨ fs path = .directory)) :
    handler fails (.openWrite path) fs = (true, fs.set path (.file [])) := if_neg h

/-! ## What is reported -/

variable (fails fs path)

/-- Something exists, but cannot be opened for reading. -/
def Overlooked : Prop := fs path ≠ .absent ∧ fails (.openRead path) = true

/-- A file with some content cannot be opened for reading, but for writing. -/
def Emptied : Prop :=
  fails (.openRead path) = true ∧ fails (.openWrite path) = false ∧
    ∃ content, content ≠ [] ∧ fs path = .file content

variable {fails fs path}

/-- What cannot be opened for reading is absent, or it is overlooked. -/
theorem absent_or_overlooked (h : ¬Readable fails fs path) :
    fs path = .absent ∨ Overlooked fails fs path := by
  by_cases habsent : fs path = .absent
  · exact .inl habsent
  · refine .inr ⟨habsent, ?_⟩
    by_contra hok
    exact h ⟨Bool.not_eq_true _ ▸ hok, habsent⟩

/-- To do nothing. -/
theorem changed_self {success : Bool} : Changed fs path success fs := ⟨fun _ => rfl, fun _ _ => rfl⟩

theorem changed_set {node : Node} : Changed fs path true (fs.set path node) :=
  ⟨fun h => absurd h (by decide), fun _ hp => FileSystem.set_other hp⟩

/-- A creation is reported rightly, unless it has emptied a file. -/
theorem createReports_iff :
    CreateReports fs path (create fails fs path).result (create fails fs path).state ↔
      ¬Emptied fails fs path := by
  by_cases hread : Readable fails fs path
  · obtain ⟨hresult, hstate⟩ := create_of_readable hread
    rw [hresult, hstate]
    refine iff_of_true ⟨changed_self, fun _ => hread.2, fun _ => id⟩ ?_
    exact fun h => absurd hread.1 (by simp [h.1])
  obtain ⟨hresult, hstate⟩ := create_of_not_readable hread
  rw [hresult, hstate]
  by_cases hwrite : fails (.openWrite path) = true ∨ fs path = .directory
  · rw [handler_openWrite_of_fails hwrite]
    dsimp only
    refine iff_of_true ⟨changed_self, fun h => absurd h (by decide), fun _ => id⟩ ?_
    rintro ⟨-, hok, content, -, hcontent⟩
    simp [hok, hcontent] at hwrite
  · rw [handler_openWrite hwrite]
    dsimp only
    obtain ⟨hok, hdirectory⟩ := not_or.1 hwrite
    constructor
    · rintro h ⟨-, -, content, hne, hcontent⟩
      have hkept := h.kept content hcontent
      rw [FileSystem.set_self] at hkept
      exact hne (Node.file.inj hkept).symm
    · intro h
      refine ⟨changed_set, fun _ => by simp, ?_⟩
      intro content hcontent
      rw [FileSystem.set_self]
      -- The file exists and is not readable, so it has been empty before.
      by_contra hne
      have hfails : fails (.openRead path) = true :=
        ((absent_or_overlooked hread).resolve_left (by simp [hcontent])).2
      exact h ⟨hfails, Bool.not_eq_true _ ▸ hok, content, fun he => hne (he ▸ rfl), hcontent⟩

/-- A removal is reported rightly, unless there is something that cannot be opened for
    reading. -/
theorem removeReports_iff :
    RemoveReports fs path (remove fails fs path).result (remove fails fs path).state ↔
      ¬Overlooked fails fs path := by
  by_cases hread : Readable fails fs path
  · obtain ⟨hresult, hstate⟩ := remove_of_readable hread
    rw [hresult, hstate]
    refine iff_of_true ?_ fun h => absurd hread.1 (by simp [h.2])
    by_cases hremove : fails (.remove path) = true
    · have hhandler : handler fails (.remove path) fs = (-1, fs) := if_pos (.inl hremove)
      rw [hhandler]
      exact ⟨changed_self, fun h => absurd h (by simp)⟩
    · have hhandler : handler fails (.remove path) fs = (0, fs.set path .absent) :=
        if_neg (not_or.2 ⟨hremove, hread.2⟩)
      rw [hhandler]
      exact ⟨changed_set, fun _ => FileSystem.set_self⟩
  · obtain ⟨hresult, hstate⟩ := remove_of_not_readable hread
    rw [hresult, hstate]
    constructor
    · exact fun h ho => ho.1 (h.absent_of_true rfl)
    · exact fun h => ⟨changed_self, fun _ => (absent_or_overlooked hread).resolve_right h⟩

/-- Creations are reported rightly if they do not empty a file, and removals if nothing
    is overlooked, and only then. -/
theorem fileReports_iff (fails : FileOp → Bool) (fs : FileSystem) (path : String) :
    (CreateReports fs path (create fails fs path).result (create fails fs path).state ↔
      ¬Emptied fails fs path) ∧
    (RemoveReports fs path (remove fails fs path).result (remove fails fs path).state ↔
      ¬Overlooked fails fs path) :=
  ⟨createReports_iff, removeReports_iff⟩

/-- A file without read permission, with a byte in it. -/
def unreadable : FileSystem := fun _ => .file [0x31]

/-- The file is "removed", and still there; it is "created", and emptied. -/
theorem not_reports_unreadable :
    let fails op := op = FileOp.openRead "/dir/server/force_on"
    (remove fails unreadable "/dir/server/force_on").result = true ∧
    (remove fails unreadable "/dir/server/force_on").state "/dir/server/force_on" =
      .file [0x31] ∧
    (create fails unreadable "/dir/server/force_on").state "/dir/server/force_on" = .file [] ∧
    ¬RemoveReports unreadable "/dir/server/force_on"
      (remove fails unreadable "/dir/server/force_on").result
      (remove fails unreadable "/dir/server/force_on").state ∧
    ¬CreateReports unreadable "/dir/server/force_on"
      (create fails unreadable "/dir/server/force_on").result
      (create fails unreadable "/dir/server/force_on").state := by
  intro fails
  have hresult : (remove fails unreadable "/dir/server/force_on").result = true := by
    decide +zetaReduce
  have hstate : (remove fails unreadable "/dir/server/force_on").state "/dir/server/force_on" =
      .file [0x31] := by decide +zetaReduce
  have hemptied : (create fails unreadable "/dir/server/force_on").state "/dir/server/force_on" =
      .file [] := by decide +zetaReduce
  refine ⟨hresult, hstate, hemptied, ?_, ?_⟩
  · intro h
    exact absurd (hstate.symm.trans (h.absent_of_true hresult)) (by decide)
  · intro h
    exact absurd (hemptied.symm.trans (h.kept _ rfl)) (by decide)

/-! ## The files of a controller -/

/-- Which paths exist: what a controller knows of the file system. -/
def existing (fs : FileSystem) : Files := fun p => fs p ≠ .absent

theorem existing_set {node : Node} : existing (fs.set path node) =
    fun p => if p = path then decide (node ≠ .absent) else existing fs p := by
  funext p
  rw [existing, FileSystem.set]
  split_ifs
  · rfl
  · rfl

/-- For a controller, a creation has the effect it should have. -/
theorem existing_create : existing (create fails fs path).state =
    affect ⟨.createEmptyFile path, (create fails fs path).result⟩ (existing fs) := by
  by_cases hread : Readable fails fs path
  · obtain ⟨hresult, hstate⟩ := create_of_readable hread
    rw [hresult, hstate]
    funext p
    by_cases hp : p = path
    · simp [affect, existing, hp, hread.2]
    · simp [affect, hp]
  obtain ⟨hresult, hstate⟩ := create_of_not_readable hread
  rw [hresult, hstate]
  by_cases hwrite : fails (.openWrite path) = true ∨ fs path = .directory
  · rw [handler_openWrite_of_fails hwrite]
    rfl
  · rw [handler_openWrite hwrite, existing_set]
    funext p
    by_cases hp : p = path <;> simp [affect, hp]

/-- So has a removal, if nothing is overlooked. -/
theorem existing_remove (h : ¬Overlooked fails fs path) : existing (remove fails fs path).state =
    affect ⟨.removeFile path, (remove fails fs path).result⟩ (existing fs) := by
  have hreports := removeReports_iff.2 h
  cases hresult : (remove fails fs path).result with
  | false =>
    rw [hreports.unchanged hresult]
    rfl
  | true =>
    funext p
    by_cases hp : p = path
    · simp [affect, existing, hp, hreports.absent_of_true hresult]
    · simp [affect, existing, hp, hreports.others p hp]

end IOStreamFile

end Hostcontrold
