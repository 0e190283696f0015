import Hostcontrold.Controller.Host
import Hostcontrold.Controller.StatusFiles
import Hostcontrold.System.Files

/-!
# Histories on the system

The process of a controller may be killed between any two operations of the system, in the
midst of a file operation, too, and started again (`SystemLife`). To the controller, this is
a history in which it is killed between two of its own operations (`SystemLife.life`); so
what is known about these holds on the system.

The status files tell how the pings of the server have ended: `on` is there if the latest
one that was started has exited with 0, and `off` is there if not (`system_status_files`).
-/

namespace Hostcontrold

open Interaction ServerController IOStreamFile

variable {config : ServerMachineConfig} {fs fs' : FileSystem} {tr : SystemTrace}

/-! ## Histories -/

/-- A process running a controller on the system: the events of its construction and of its
    calls (the latest first), and the state reached. -/
structure SystemProcess where
  construction : SystemTrace
  calls : List SystemTrace
  controller : ServerController

variable (M : World SystemOp.Ans FileSystem) (plus : Int → Int → Int) (config)

/-- The history of a controller on the system: the process running, if any, and the files.
    A process may be killed between any two operations of the system. -/
inductive SystemLife : Option SystemProcess → FileSystem → Prop
  | boot (fs : FileSystem) : SystemLife none fs
  | others {process : Option SystemProcess} {fs fs' : FileSystem} :
      SystemLife process fs → statusNodes config fs' = statusNodes config fs →
      SystemLife process fs'
  | construct {fs fs' : FileSystem} {tr : SystemTrace} {s : ServerController} :
      SystemLife none fs → Runs ((construct config).interpret deploy) tr s →
      Evolves M fs tr fs' → SystemLife (some ⟨tr, [], s⟩) fs'
  | constructKilled {fs fs' : FileSystem} {tr tr' : SystemTrace} {s : ServerController} :
      SystemLife none fs → Runs ((construct config).interpret deploy) (tr ++ tr') s →
      Evolves M fs tr fs' → SystemLife none fs'
  | call {p : SystemProcess} {fs fs' : FileSystem} {tr : SystemTrace} {s' : ServerController} :
      SystemLife (some p) fs → Runs ((doWork plus config p.controller).interpret deploy) tr s' →
      Evolves M fs tr fs' → SystemLife (some ⟨p.construction, tr :: p.calls, s'⟩) fs'
  | callKilled {p : SystemProcess} {fs fs' : FileSystem} {tr tr' : SystemTrace}
      {s' : ServerController} :
      SystemLife (some p) fs →
      Runs ((doWork plus config p.controller).interpret deploy) (tr ++ tr') s' →
      Evolves M fs tr fs' → SystemLife none fs'

/-- A process on the system does what a process does. -/
structure Performs (p : Process) (p' : SystemProcess) : Prop where
  construction : Implements deploy p.construction p'.construction
  calls : List.Forall₂ (Implements deploy) p.calls p'.calls
  controller : p.controller = p'.controller

variable {M plus config} {process : Option SystemProcess} {M₀ : World Op.Ans Files}

/-- Every history on the system is a history of a controller, also if processes are killed
    in the midst of file operations. -/
theorem SystemLife.life (href : Refinement deploy (Owned config) M₀ M existing (SameStatus config))
    (h : SystemLife config M plus process fs) : ∃ process₀ past,
      Life M₀ plus config process₀ (existing fs) past ∧
        Option.Rel Performs process₀ process := by
  induction h with
  | boot fs => exact ⟨none, [], .boot _, .none⟩
  | others _ hsame ih =>
    obtain ⟨process₀, past, hlife, hrel⟩ := ih
    exact ⟨process₀, past, .others hlife hsame, hrel⟩
  | construct _ hrun hM ih =>
    obtain ⟨_, past, hlife, ⟨⟩⟩ := ih
    obtain ⟨tr₀, hrun₀, himpl, hM₀⟩ := href.run owned_construct hrun hM
    exact ⟨_, _, .construct hlife hrun₀ hM₀, .some ⟨himpl, .nil, rfl⟩⟩
  | constructKilled _ hrun hM ih =>
    obtain ⟨_, past, hlife, ⟨⟩⟩ := ih
    obtain ⟨done, rest, files, hrun₀, hM₀, hsame⟩ := href.killed owned_construct hrun hM
    exact ⟨_, _, .others (.constructKilled hlife hrun₀ hM₀) hsame, .none⟩
  | call _ hrun hM ih =>
    obtain ⟨_, past, hlife, hperforms⟩ := ih
    cases hperforms with
    | some hperforms =>
      rw [← hperforms.controller] at hrun
      obtain ⟨tr₀, hrun₀, himpl, hM₀⟩ := href.run owned_doWork hrun hM
      exact ⟨_, _, .call hlife hrun₀ hM₀,
        .some ⟨hperforms.construction, .cons himpl hperforms.calls, rfl⟩⟩
  | callKilled _ hrun hM ih =>
    obtain ⟨_, past, hlife, hperforms⟩ := ih
    cases hperforms with
    | some hperforms =>
      rw [← hperforms.controller] at hrun
      obtain ⟨done, rest, files, hrun₀, hM₀, hsame⟩ := href.killed owned_doWork hrun hM
      exact ⟨_, _, .others (.callKilled hlife hrun₀ hM₀) hsame, .none⟩

/-! ## The status files tell how the pings have ended -/

/-- The process of an event, if it is one: the command, and how it has ended. -/
def systemProcess? : Event SystemOp.Ans → Option (String × ProcessResult)
  | ⟨.process op, x⟩ => system? ⟨op, x⟩
  | _ => none

variable (config) in
/-- How the ping of the server in a call has ended, if there was one: the first process
    with its command. -/
def serverProcess (tr : SystemTrace) : Option ProcessResult :=
  ((tr.filterMap systemProcess?).find?
    fun process => process.1 = Exec.shellCommand (Pinger.pingCommand config.ip)).map Prod.snd

/-- Whether a host has answered a ping: this is not known if the ping was not started. -/
def replied : ProcessResult → Option Bool
  | .notStarted => none
  | result => some (decide (result = .exited 0))

variable (config) in
/-- Whether the server has answered the latest ping of it that was started. -/
def answered (calls : List SystemTrace) : Bool :=
  (calls.findSome? fun tr => (serverProcess config tr).bind replied).getD false

theorem answered_cons (calls : List SystemTrace) : answered config (tr :: calls) =
    recorded (answered config calls) ((serverProcess config tr).map classify) := by
  rw [answered, List.findSome?_cons]
  rcases serverProcess config tr with _ | _ | code | _
  · rfl
  · rfl
  · by_cases hcode : code = 0 <;> simp [replied, classify, recorded, hcode]
  · rfl

/-- What a call sees of the ping of the server is how the process has ended. -/
theorem server_eq_serverProcess {s s' : ServerController} {tr₀ : Trace}
    (h : Call plus config s tr₀ s') (himpl : Implements deploy tr₀ tr) :
    (observe config tr₀).server = (serverProcess config tr).map classify := by
  obtain ⟨now, rfl⟩ | ⟨now, answer, tr', rfl⟩ := h.start
  · obtain ⟨_, _, rfl, hnow, hrest⟩ := implements_cons_iff.1 himpl
    obtain rfl := implements_nil_iff.1 hrest
    obtain rfl := runs_perform_iff.1 hnow
    rfl
  · obtain ⟨_, _, rfl, hnow, hrest⟩ := implements_cons_iff.1 himpl
    obtain ⟨_, rest, rfl, hembed, -⟩ := implements_cons_iff.1 hrest
    obtain rfl := runs_perform_iff.1 hnow
    obtain ⟨events, rfl, hping⟩ := (runs_embed_iff _).1 hembed
    obtain ⟨result, rfl, hprocess⟩ := Pinger.runs_pingHost hping
    -- The first process with the command of the ping is this one.
    have hfirst : (events.map (Event.embed SystemOp.process)).filterMap systemProcess? =
        processes events := List.filterMap_map
    have hserver : serverProcess config ([⟨.now, now⟩] ++
        (events.map (Event.embed SystemOp.process) ++ rest)) = some result := by
      rw [serverProcess, List.filterMap_append, List.filterMap_append, hfirst, hprocess]
      simp [systemProcess?]
    rw [hserver]
    rfl

/-- The recorded state tells whether the server has answered. -/
theorem SystemLife.running (h : SystemLife config M plus process fs) :
    ∀ p ∈ process, p.controller.running = answered config p.calls := by
  induction h with
  | boot | constructKilled | callKilled => exact fun _ hp => nomatch hp
  | others _ _ ih => exact ih
  | construct _ hrun _ =>
    rintro p ⟨⟩
    obtain ⟨tr₀, hrun₀, -⟩ := runs_interpret_iff.1 hrun
    rw [(runs_construct hrun₀).1]
    rfl
  | call _ hrun _ ih =>
    rintro p ⟨⟩
    obtain ⟨tr₀, hrun₀, himpl⟩ := runs_interpret_iff.1 hrun
    have hcall := call_of_runs hrun₀
    rw [answered_cons, ← ih _ rfl, ← server_eq_serverProcess hcall himpl]
    exact hcall.running_eq

end Hostcontrold
