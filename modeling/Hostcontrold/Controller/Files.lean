import Hostcontrold.Controller.Call

/-!
# The files of a controller

The file system is the set of existing paths (`Files`); creating and removing a
file changes it, if the operation succeeds (`affect`). A controller writes two
files, the *status files* `on` and `off` of its control directory, and their
content is all that matters of them: `status` says which ones exist.

Nobody else touches the status files. In a `StatusWorld` they change with the
operations of the controller only, which may fail; all other files may change at
any time. In a `ReliableWorld`, the operations succeed.

The effect of a call on the status files is the triple `triple_doWork`: they stay
as they are, unless the recorded state changes, and then show the new state.
-/

namespace Hostcontrold

open Interaction Hostcontrold.Action

/-- A file system: which paths exist. -/
abbrev Files := String → Bool

/-- The path a file operation is about. -/
def path? : Op → Option String
  | .checkFileExists path => some path
  | .createEmptyFile path => some path
  | .removeFile path => some path
  | _ => none

/-- The path created or removed by an operation, if it is one of these. -/
def writes? : Op → Option String
  | .createEmptyFile path => some path
  | .removeFile path => some path
  | _ => none

/-- The file operation did not succeed. -/
def failed : Event Op.Ans → Bool
  | ⟨.createEmptyFile _, success⟩ => !success
  | ⟨.removeFile _, success⟩ => !success
  | _ => false

/-- The effect of an event on the file system. -/
def affect (e : Event Op.Ans) (files : Files) (path : String) : Bool :=
  match e with
  | ⟨.createEmptyFile created, true⟩ => path == created || files path
  | ⟨.removeFile removed, true⟩ => path != removed && files path
  | _ => files path

theorem affect_of_writes_none {e : Event Op.Ans} (h : writes? e.op = none) (files : Files) :
    affect e files = files := by
  obtain ⟨op, ans⟩ := e
  cases op with
  | createEmptyFile | removeFile => cases h
  | _ => rfl

namespace ServerController

variable (config : ServerMachineConfig)

/-- The path of the status file of a state. -/
def statusPath (state : Bool) : String := config.controlDir ++ statusFile state

/-- Of two states, only one. -/
def just (state : Bool) : Bool → Bool := (· == state)

/-- Which status files exist. -/
def status (files : Files) (state : Bool) : Bool := files (statusPath config state)

/-- The status file of `state` exists, and the other one does not. -/
def Signalled (state : Bool) (files : Files) : Prop := status config files = just state

/-- The status files change with the operations of the controller only. -/
def StatusWorld : World Op.Ans Files := fun files e files' =>
  status config files' = status config (affect e files)

/-- The file operations succeed, too. -/
def ReliableWorld : World Op.Ans Files := fun files e files' =>
  failed e = false ∧ StatusWorld config files e files'

variable {config}

@[simp]
theorem just_self (state : Bool) : just state state = true := beq_self_eq_true state

@[simp]
theorem statusPath_inj {a b : Bool} : statusPath config a = statusPath config b ↔ a = b := by
  cases a <;> cases b <;> simp [statusPath, statusFile, kFileOn, kFileOff]

@[simp]
theorem statusPath_beq {a b : Bool} : (statusPath config a == statusPath config b) = (a == b) :=
  Bool.eq_iff_iff.2 (by simp)

/-- A force file is not a status file. -/
theorem statusPath_ne (state : Bool) : statusPath config state ≠ config.controlDir ++ kFileKeepOn ∧
    statusPath config state ≠ config.controlDir ++ kFileKeepOff := by
  cases state <;>
    simp [statusPath, statusFile, kFileOn, kFileOff, kFileKeepOn, kFileKeepOff]

theorem StatusWorld.of_writes_none {files files' : Files} {e : Event Op.Ans}
    (h : StatusWorld config files e files') (he : writes? e.op = none) :
    status config files' = status config files := by
  rw [h, affect_of_writes_none he]

/-- The files after the events of a controller, with nobody else around. -/
def replay (files : Files) (tr : Trace) : Files := tr.foldl (fun files e => affect e files) files

theorem evolves_replay {tr : Trace} (files : Files) :
    Evolves (StatusWorld config) files tr (replay files tr) := by
  induction tr generalizing files with
  | nil => exact .nil files
  | cons e tr ih => exact .cons rfl (ih _)

theorem reliable_of_succeeded {tr : Trace} {files files' : Files}
    (h : Evolves (StatusWorld config) files tr files') (hok : ∀ e ∈ tr, failed e = false) :
    Evolves (ReliableWorld config) files tr files' := by
  induction h with
  | nil files => exact .nil files
  | cons he _ ih =>
    obtain ⟨hok, htail⟩ := List.forall_mem_cons.1 hok
    exact .cons ⟨hok, he⟩ (ih htail)

theorem status_created {files files' : Files} {state success : Bool}
    (h : ReliableWorld config files ⟨.createEmptyFile (statusPath config state), success⟩ files') :
    status config files' = fun b => b == state || status config files b := by
  obtain ⟨hok, h⟩ := h
  cases success with
  | false => cases hok
  | true =>
    rw [h]
    funext b
    simp [status, affect]

theorem status_removed {files files' : Files} {state success : Bool}
    (h : ReliableWorld config files ⟨.removeFile (statusPath config state), success⟩ files') :
    status config files' = fun b => b != state && status config files b := by
  obtain ⟨hok, h⟩ := h
  cases success with
  | false => cases hok
  | true =>
    rw [h]
    funext b
    simp [status, affect, bne]

/-! ## The operations of a controller -/

variable (config) in
/-- The paths of the files of a controller: the status files and the force files. -/
def paths : List String :=
  [kFileOn, kFileOff, kFileKeepOn, kFileKeepOff].map (config.controlDir ++ ·)

/-- An operation that is no file operation. -/
def Fileless (op : Op) : Prop := path? op = none

/-- An operation that creates or removes no file. -/
def WritesNothing (op : Op) : Prop := writes? op = none

variable (config) in
/-- An operation that creates or removes a status file, or no file. -/
def WritesStatus (op : Op) : Prop := ∀ path ∈ writes? op, ∃ state, path = statusPath config state

variable (config) in
/-- An operation of a controller: it is about a file of its own, if any, and writes
    the status files only. -/
structure Permitted (op : Op) : Prop where
  own : ∀ path ∈ path? op, path ∈ paths config
  writes : WritesStatus config op

theorem statusPath_mem (state : Bool) : statusPath config state ∈ paths config := by
  cases state <;> simp [paths, statusPath, statusFile]

theorem Fileless.writesNothing {op : Op} (h : Fileless op) : WritesNothing op := by
  cases op with
  | createEmptyFile | removeFile => cases h
  | _ => rfl

theorem Fileless.permitted {op : Op} (h : Fileless op) : Permitted config op := by
  refine ⟨?_, ?_⟩
  · rw [show path? op = none from h]
    exact fun _ hpath => nomatch hpath
  · rw [WritesStatus, show writes? op = none from h.writesNothing]
    exact fun _ hpath => nomatch hpath

theorem path?_of_writes? {op : Op} {path : String} (h : path ∈ writes? op) : path ∈ path? op := by
  cases op with
  | createEmptyFile | removeFile => exact h
  | _ => cases h

/-- The operations on a status file are permitted. -/
theorem permitted_status {op : Op} {state : Bool} (h : path? op = some (statusPath config state)) :
    Permitted config op := by
  refine ⟨?_, ?_⟩
  · intro path hpath
    obtain rfl := Option.some.inj (h.symm.trans hpath)
    exact statusPath_mem state
  · intro path hpath
    obtain rfl := Option.some.inj (h.symm.trans (path?_of_writes? hpath))
    exact ⟨state, rfl⟩

theorem permitted_check {path : String} (h : path ∈ paths config) :
    Permitted config (.checkFileExists path) := by
  refine ⟨?_, fun _ hpath => nomatch hpath⟩
  rintro _ ⟨⟩
  exact h

variable {plus : Int → Int → Int} {running newState : Bool} {s : ServerController}

theorem only_startServerIfNotRunning :
    (startServerIfNotRunning config running).Only Fileless := by
  cases running with
  | true => trivial
  | false =>
    refine ⟨rfl, ?_⟩
    intro sent
    cases sent with
    | true => exact ⟨rfl, fun _ => trivial⟩
    | false => exact ⟨rfl, fun _ => ⟨rfl, fun _ => trivial⟩⟩

theorem only_shutdownServerIfRunning :
    (shutdownServerIfRunning config running).Only Fileless := by
  cases running with
  | true => exact ⟨rfl, fun _ => trivial⟩
  | false => trivial

theorem only_checkClients (clients : List ClientMachineConfig) :
    (checkClients clients).Only Fileless := by
  induction clients with
  | nil => trivial
  | cons client clients ih =>
    refine ⟨rfl, ?_⟩
    intro stop
    cases stop with
    | true => trivial
    | false =>
      refine ⟨rfl, ?_⟩
      intro result
      cases result with
      | kHostActive => exact ⟨rfl, fun _ => trivial⟩
      | kHostInactive | kFailed => exact ⟨rfl, fun _ => ih⟩

/-- After the ping of the server, a call writes no file, and the recorded state is the
    answer of the ping. -/
theorem doWork_eq (plus : Int → Int → Int) (config : ServerMachineConfig) (s : ServerController) :
    ∃ rest : Int → Bool → Action ServerController,
      doWork plus config s = (do
        let currentTime ← now
        if Throttled plus config s currentTime then return s
        else
          let running ← pingServer config s.running
          rest currentTime running) ∧
      ∀ currentTime running, (rest currentTime running).Each
        (fun op => Permitted config op ∧ WritesNothing op) fun s' => s'.running = running := by
  have hfileless {op : Op} (h : Fileless op) : Permitted config op ∧ WritesNothing op :=
    ⟨h.permitted, h.writesNothing⟩
  have hkeepOn : config.controlDir ++ kFileKeepOn ∈ paths config := by simp [paths]
  have hkeepOff : config.controlDir ++ kFileKeepOff ∈ paths config := by simp [paths]
  refine ⟨_, rfl, ?_⟩
  intro currentTime running
  have hstart := (@only_startServerIfNotRunning config running).mono fun _ => hfileless
  have hstop := (@only_shutdownServerIfRunning config running).mono fun _ => hfileless
  have hclients := (only_checkClients config.clients).mono fun _ => hfileless
  -- The branches: forced on, forced off, a client has answered, or none has.
  refine ⟨⟨permitted_check hkeepOn, rfl⟩, fun forceOn => ?_⟩
  cases forceOn with
  | true => exact ⟨hfileless rfl, fun _ => hstart.bind_each fun _ => rfl⟩
  | false =>
    refine ⟨⟨permitted_check hkeepOff, rfl⟩, fun forceOff => ?_⟩
    cases forceOff with
    | true => exact ⟨hfileless rfl, fun _ => hstop.bind_each fun _ => rfl⟩
    | false =>
      refine hclients.bind_each fun client => ?_
      cases client with
      | true => exact hstart.bind_each fun _ => rfl
      | false =>
        rw [if_neg nofun]
        dsimp only
        split_ifs
        · exact hstop.bind_each fun _ => rfl
        · rfl

/-! ## The effect of a call on the status files -/

section Call

variable {M : World Op.Ans Files} {P : Files → Prop} {Q : Bool → Files → Prop} {C : Files → Prop}

/-- An assertion that survives all events but file operations. -/
def Stable (M : World Op.Ans Files) (P : Files → Prop) : Prop :=
  ∀ e files files', WritesNothing e.op → P files → M files e files' → P files'

/-- An operation that writes no file, followed by a program. -/
theorem triple_perform {β : Type} {op : Op} {f : Op.Ans op → Action β} {R : β → Files → Prop}
    (hP : Stable M P) (hC : ∀ files, P files → C files) (hop : WritesNothing op)
    (hf : ∀ a, Triple M P (f a) R C) : Triple M P (.perform op >>= f) R C :=
  (Triple.of_only ((only_perform_iff op).2 hop) hP hC).bind hf

theorem triple_pingServer (hP : Stable M P) (hC : ∀ files, P files → C files)
    (hsignal : ∀ newState, Triple M P (checkAndSignalServerState config running newState) Q C)
    (hfailed : ∀ files, P files → Q running files) :
    Triple M P (pingServer config running) Q C := by
  refine triple_perform hP hC rfl fun result => ?_
  cases result with
  | kHostActive => exact triple_perform hP hC rfl fun _ => hsignal true
  | kHostInactive => exact triple_perform hP hC rfl fun _ => hsignal false
  | kFailed => exact triple_perform hP hC rfl fun _ => Triple.pure hfailed hC

/-- What a call does to the files is what the signalling of the state does. -/
theorem triple_doWork (hP : Stable M P) (hC : ∀ files, P files → C files)
    (hsignal : ∀ newState, Triple M P (checkAndSignalServerState config s.running newState) Q C)
    (hfailed : ∀ files, P files → Q s.running files) (hQ : ∀ r, Stable M (Q r))
    (hQC : ∀ r files, Q r files → C files) :
    Triple M P (doWork plus config s) (fun s' => Q s'.running) C := by
  obtain ⟨rest, hwork, hrest⟩ := doWork_eq plus config s
  rw [hwork]
  refine triple_perform hP hC rfl fun currentTime => ?_
  split_ifs
  · exact Triple.pure hfailed hC
  refine (triple_pingServer hP hC hsignal hfailed).bind fun running => ?_
  refine Triple.of_each (hrest currentTime running) (fun e files files' he => ?_) ?_ (hQC running)
  · exact hQ running e files files' he.2
  · rintro s' files rfl hw
    exact hw

end Call

/-! ## The signalling of the state -/

theorem checkAndSignal_of_ne (h : running ≠ newState) :
    checkAndSignalServerState config running newState = (do
      log .info (if newState then "server started" else "server stopped")
      let _ ← createEmptyFile (statusPath config newState)
      let _ ← removeFile (statusPath config (!newState))
      return newState) := by
  cases newState <;> cases running
  · exact absurd rfl h
  · rfl
  · rfl
  · exact absurd rfl h

theorem checkAndSignal_of_eq (h : running = newState) :
    checkAndSignalServerState config running newState = pure newState := by
  subst h
  cases running <;> rfl

/-- The status files after a call that started with `φ`, and took the recorded
    state from `running` to `r`: those of the new state, if it changed. -/
def changed (φ : Bool → Bool) (running r : Bool) : Bool → Bool :=
  if running = r then φ else just r

@[simp]
theorem changed_self (φ : Bool → Bool) (running : Bool) : changed φ running running = φ :=
  if_pos rfl

section Reliable

variable {C : (Bool → Bool) → Prop} {φ : Bool → Bool}

theorem stable_status : Stable (StatusWorld config) (fun files => status config files = φ) :=
  fun _ _ _ he hw h => (h.of_writes_none he).trans hw

theorem reliable_stable_status :
    Stable (ReliableWorld config) (fun files => status config files = φ) :=
  fun e files files' he hw h => stable_status e files files' he hw h.2

/-- A state is signalled by creating its file, then removing the other one. On the
    way, the new file is there first. -/
theorem triple_checkAndSignal (hC : C φ) (hnew : ∀ ψ, ψ newState = true → C ψ) :
    Triple (ReliableWorld config) (fun files => status config files = φ)
      (checkAndSignalServerState config running newState)
      (fun r files => status config files = changed φ running r ∧ r = newState)
      (fun files => C (status config files)) := by
  by_cases h : running = newState
  · rw [checkAndSignal_of_eq h]
    exact Triple.pure (fun _ hw => ⟨by rw [hw, h, changed_self], rfl⟩) fun _ hw => hw ▸ hC
  · rw [checkAndSignal_of_ne h]
    -- The new file is created before the old one is removed, so that one of them is there.
    have hcreate : Triple (ReliableWorld config) (fun files => status config files = φ)
        (createEmptyFile (statusPath config newState))
        (fun _ files => status config files newState = true)
        (fun files => C (status config files)) :=
      Triple.perform (fun _ _ _ _ h => by simp [status_created h]) (fun _ hw => hw ▸ hC)
        fun _ _ hw => hnew _ hw
    have hremove : Triple (ReliableWorld config)
        (fun files => status config files newState = true)
        (removeFile (statusPath config (!newState)))
        (fun _ files => status config files = just newState)
        (fun files => C (status config files)) := by
      refine Triple.perform (fun files _ _ hw h => ?_) (fun _ hw => hnew _ hw)
        fun _ _ hw => hnew _ (hw ▸ just_self newState)
      rw [status_removed h]
      funext b
      cases b <;> cases newState <;> simp_all [just]
    refine triple_perform reliable_stable_status (fun _ hw => hw ▸ hC) rfl fun _ =>
      hcreate.bind fun _ => hremove.bind fun _ => ?_
    exact Triple.pure (fun _ hw => ⟨by rw [hw, changed, if_neg h], rfl⟩)
      fun _ hw => hnew _ (hw ▸ just_self newState)

/-- In a call, the status files change with the recorded state. -/
theorem reliable_doWork (hC : C φ) (hnew : ∀ state ψ, ψ state = true → C ψ) :
    Triple (ReliableWorld config) (fun files => status config files = φ) (doWork plus config s)
      (fun s' files => status config files = changed φ s.running s'.running)
      (fun files => C (status config files)) := by
  have hchanged (r : Bool) : C (changed φ s.running r) := by
    rw [changed]
    split_ifs
    · exact hC
    · exact hnew r _ (just_self r)
  exact triple_doWork reliable_stable_status (fun _ hw => hw ▸ hC)
    (fun newState => (triple_checkAndSignal hC (hnew newState)).conseq (fun _ hw => hw)
      fun _ _ hw => hw.1)
    (fun _ hw => hw.trans (changed_self φ s.running).symm) (fun _ => reliable_stable_status)
    fun r _ hw => hw ▸ hchanged r

/-- In a call that does not change the recorded state, the status files do not
    change, although file operations may fail. -/
theorem status_doWork : Triple (StatusWorld config) (fun files => status config files = φ)
    (doWork plus config s)
    (fun s' files => s'.running = s.running → status config files = φ) (fun _ => True) := by
  -- If the new state is another one, the recorded state changes, and there is nothing to show.
  have hsignal (newState : Bool) : Triple (StatusWorld config)
      (fun files => status config files = φ) (checkAndSignalServerState config s.running newState)
      (fun r files => r = s.running → status config files = φ) (fun _ => True) := by
    by_cases h : s.running = newState
    · rw [checkAndSignal_of_eq h]
      exact Triple.pure (fun _ hw _ => hw) fun _ _ => trivial
    · refine ⟨fun _ hrun _ hr => ?_, fun _ _ _ => trivial⟩
      exact absurd (hr.symm.trans (runs_checkAndSignal hrun).1) h
  exact triple_doWork stable_status (fun _ _ => trivial) hsignal (fun _ hw _ => hw)
    (fun _ e files files' he hw h hr => stable_status e files files' he (hw hr) h)
    fun _ _ _ => trivial

end Reliable

/-- The construction shows a stopped server, whatever was there before. -/
theorem triple_construct : Triple (ReliableWorld config) (fun _ => True) (construct config)
    (fun s files => Signalled config s.running files) (fun _ => True) := by
  have hcleanOn : Triple (ReliableWorld config) (fun _ => True)
      (removeFile (config.controlDir ++ kFileOn))
      (fun _ files => status config files true = false) (fun _ => True) :=
    Triple.perform (fun _ _ _ _ h => by rw [@status_removed _ _ _ true _ h]; rfl)
      (fun _ _ => trivial) fun _ _ _ => trivial
  have hcleanOff : Triple (ReliableWorld config) (fun files => status config files true = false)
      (removeFile (config.controlDir ++ kFileOff))
      (fun _ files => status config files = fun _ => false) (fun _ => True) := by
    refine Triple.perform (fun files _ _ hw h => ?_) (fun _ _ => trivial) fun _ _ _ => trivial
    rw [@status_removed _ _ _ false _ h]
    funext b
    cases b <;> simp [hw]
  have hlog (message : String) : Triple (ReliableWorld config) (fun _ => True)
      (log .info message) (fun _ _ => True) (fun _ => True) :=
    Triple.perform (fun _ _ _ _ _ => trivial) (fun _ _ => trivial) fun _ _ _ => trivial
  have hmake : Triple (ReliableWorld config) (fun _ => True)
      (createDirectory config.controlDir) (fun _ _ => True) (fun _ => True) :=
    Triple.perform (fun _ _ _ _ _ => trivial) (fun _ _ => trivial) fun _ _ _ => trivial
  have hsignal : Triple (ReliableWorld config) (fun files => status config files = fun _ => false)
      (checkAndSignalServerState config true false)
      (fun r files => Signalled config r files) (fun _ => True) :=
    (@triple_checkAndSignal _ true false (fun _ => True) _ trivial fun _ _ => trivial).conseq
      (fun _ hw => hw) fun _ _ ⟨hw, hr⟩ => by rw [Signalled, hw, hr]; rfl
  -- Both files are removed, then the state goes from running to stopped.
  refine (hlog _).bind fun _ => hmake.bind fun _ => hcleanOn.bind fun _ => hcleanOff.bind fun _ =>
    hsignal.bind fun running => ?_
  exact triple_perform reliable_stable_status (fun _ _ => trivial) rfl fun _ =>
    Triple.pure (fun _ hw => hw) fun _ _ => trivial

/-! ## Only own files are read and written -/

theorem only_checkAndSignal :
    (checkAndSignalServerState config running newState).Only (Permitted config) := by
  by_cases h : running = newState
  · rw [checkAndSignal_of_eq h]
    trivial
  · rw [checkAndSignal_of_ne h]
    exact ⟨Fileless.permitted rfl, fun _ => ⟨permitted_status rfl, fun _ =>
      ⟨permitted_status rfl, fun _ => trivial⟩⟩⟩

theorem only_pingServer : (pingServer config running).Only (Permitted config) := by
  refine ⟨Fileless.permitted rfl, ?_⟩
  intro result
  cases result with
  | kHostActive | kHostInactive => exact ⟨Fileless.permitted rfl, fun _ => only_checkAndSignal⟩
  | kFailed => exact ⟨Fileless.permitted rfl, fun _ => trivial⟩

theorem only_doWork : (doWork plus config s).Only (Permitted config) := by
  obtain ⟨rest, hwork, hrest⟩ := doWork_eq plus config s
  rw [hwork]
  refine only_perform_bind_iff.2 ⟨Fileless.permitted rfl, fun currentTime => ?_⟩
  split_ifs
  · trivial
  · exact only_pingServer.bind fun running => (hrest currentTime running).only fun _ h => h.1

theorem only_construct : (construct config).Only (Permitted config) :=
  ⟨Fileless.permitted rfl, fun _ => ⟨Fileless.permitted rfl, fun _ =>
    ⟨@permitted_status _ _ true rfl, fun _ => ⟨@permitted_status _ _ false rfl, fun _ =>
      only_checkAndSignal.bind fun _ => ⟨Fileless.permitted rfl, fun _ => trivial⟩⟩⟩⟩⟩

end ServerController

end Hostcontrold
