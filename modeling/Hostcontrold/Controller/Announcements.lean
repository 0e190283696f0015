import Hostcontrold.Controller.Inputs
import Mathlib.Data.List.Chain

/-!
# What is announced

A controller logs that the server was started, or stopped, when the state it records changes;
the constructor begins with a stopped server. So in every run, the messages tell the history
of the server (`announcements_alternate`): they alternate, beginning with `server stopped`,
and the last one tells the recorded state. A call announces nothing, unless the server was
found in the other state (`announcements_doWork`).
-/

namespace Hostcontrold.ServerController

open Interaction Hostcontrold.Action

/-- The state of the server a message announces. -/
def announced? : Op → Option Bool
  | .log .info message =>
    if message = "server started" then some true
    else if message = "server stopped" then some false
    else none
  | _ => none

/-- The states announced, in order. -/
def announcements (tr : Trace) : List Bool := tr.filterMap fun e => announced? e.op

/-- An operation that announces nothing. -/
abbrev Silent (op : Op) : Prop := announced? op = none

variable {plus : Int → Int → Int} {config : ServerMachineConfig} {s s' : ServerController}
  {tr tr₀ : Trace} {trs : List Trace} {running newState r : Bool}

@[simp]
theorem announcements_nil : announcements [] = [] := rfl

@[simp]
theorem announcements_append (tr tr' : Trace) :
    announcements (tr ++ tr') = announcements tr ++ announcements tr' := List.filterMap_append

theorem announcements_of_silent (h : ∀ e ∈ tr, Silent e.op) : announcements tr = [] :=
  List.filterMap_eq_nil_iff.2 h

/-- A change of the state is announced. -/
theorem announcements_checkAndSignal
    (h : Runs (checkAndSignalServerState config running newState) tr r) :
    r = newState ∧ announcements tr = if newState = running then [] else [newState] := by
  cases newState <;> cases running <;>
    simp only [checkAndSignalServerState, runs_perform_bind_iff, runs_pure_iff, if_true, if_false,
      Bool.false_eq_true, Bool.true_eq_false] at h
  · obtain ⟨rfl, rfl⟩ := h
    exact ⟨rfl, rfl⟩
  · obtain ⟨_, _, rfl, _, _, rfl, _, _, rfl, rfl, rfl⟩ := h
    exact ⟨rfl, rfl⟩
  · obtain ⟨_, _, rfl, _, _, rfl, _, _, rfl, rfl, rfl⟩ := h
    exact ⟨rfl, rfl⟩
  · obtain ⟨rfl, rfl⟩ := h
    exact ⟨rfl, rfl⟩

theorem announcements_pingServer (h : Runs (pingServer config running) tr r) :
    announcements tr = if r = running then [] else [r] := by
  obtain ⟨result, _, rfl, h₁⟩ := runs_perform_bind_iff.1 h
  cases result with
  | kHostActive | kHostInactive =>
    obtain ⟨_, _, rfl, h₂⟩ := runs_perform_bind_iff.1 h₁
    obtain ⟨rfl, htr⟩ := announcements_checkAndSignal h₂
    exact htr
  | kFailed =>
    obtain ⟨_, _, rfl, h₂⟩ := runs_perform_bind_iff.1 h₁
    obtain ⟨rfl, rfl⟩ := runs_pure_iff.1 h₂
    rw [if_pos rfl]
    rfl

theorem silent_startServerIfNotRunning :
    (startServerIfNotRunning config running).Only Silent := by
  cases running with
  | true => trivial
  | false =>
    refine ⟨rfl, fun sent => ?_⟩
    cases sent with
    | true => exact ⟨by decide, fun _ => trivial⟩
    | false => exact ⟨rfl, fun _ => ⟨by decide, fun _ => trivial⟩⟩

theorem silent_shutdownServerIfRunning :
    (shutdownServerIfRunning config running).Only Silent := by
  cases running with
  | true => exact ⟨rfl, fun _ => trivial⟩
  | false => trivial

theorem silent_checkClients (clients : List ClientMachineConfig) :
    (checkClients clients).Only Silent := by
  induction clients with
  | nil => trivial
  | cons client clients ih =>
    refine ⟨rfl, fun stop => ?_⟩
    cases stop with
    | true => trivial
    | false =>
      refine ⟨rfl, fun result => ?_⟩
      cases result with
      | kHostActive => exact ⟨rfl, fun _ => trivial⟩
      | kHostInactive | kFailed => exact ⟨rfl, fun _ => ih⟩

/-- After the ping of the server, a call announces nothing, and keeps the recorded state. -/
theorem doWork_silent (plus : Int → Int → Int) (config : ServerMachineConfig)
    (s : ServerController) : ∃ rest : Int → Bool → Action ServerController,
      doWork plus config s = (do
        let currentTime ← now
        if Throttled plus config s currentTime then return s
        else
          let running ← pingServer config s.running
          rest currentTime running) ∧
      ∀ currentTime running, (rest currentTime running).Each Silent fun s' =>
        s'.running = running := by
  refine ⟨_, rfl, fun currentTime running => ⟨rfl, fun forceOn => ?_⟩⟩
  have hstart := @silent_startServerIfNotRunning config running
  have hstop := @silent_shutdownServerIfRunning config running
  cases forceOn with
  | true => exact ⟨rfl, fun _ => hstart.bind_each fun _ => rfl⟩
  | false =>
    refine ⟨rfl, fun forceOff => ?_⟩
    cases forceOff with
    | true => exact ⟨rfl, fun _ => hstop.bind_each fun _ => rfl⟩
    | false =>
      refine (silent_checkClients config.clients).bind_each fun client => ?_
      cases client with
      | true => exact hstart.bind_each fun _ => rfl
      | false =>
        rw [if_neg Bool.false_ne_true]
        dsimp only
        split_ifs
        · exact hstop.bind_each fun _ => rfl
        · rfl

/-- A call announces the state it records, if it is another one. -/
theorem announcements_doWork (h : Runs (doWork plus config s) tr s') :
    announcements tr = if s'.running = s.running then [] else [s'.running] := by
  obtain ⟨rest, hwork, hrest⟩ := doWork_silent plus config s
  rw [hwork] at h
  obtain ⟨currentTime, tr, rfl, h₁⟩ := runs_perform_bind_iff.1 h
  split_ifs at h₁ with ht
  · obtain ⟨rfl, rfl⟩ := runs_pure_iff.1 h₁
    rw [if_pos rfl]
    rfl
  · obtain ⟨tr₁, running, tr₂, hping, h₂, rfl⟩ := runs_bind_iff.1 h₁
    have hsilent := announcements_of_silent (h₂.only ((hrest _ _).only fun _ => id))
    rw [h₂.each (hrest _ _), ← announcements_pingServer hping]
    change announcements (tr₁ ++ tr₂) = _
    rw [announcements_append, hsilent, List.append_nil]

/-- The first message of the constructor does not announce anything, whatever the name of the
    server. -/
theorem startControlling_ne {name message : String} (h : message.toList.head? = some 's') :
    "Start controlling host: " ++ name ≠ message := by
  rintro rfl
  simp at h

theorem announcements_construct (h : Runs (construct config) tr s) :
    announcements tr = [false] ∧ s.running = false := by
  obtain ⟨_, _, rfl, h₁⟩ := runs_perform_bind_iff.1 h
  obtain ⟨_, _, rfl, h₂⟩ := runs_perform_bind_iff.1 h₁
  obtain ⟨_, _, rfl, h₃⟩ := runs_perform_bind_iff.1 h₂
  obtain ⟨_, _, rfl, h₄⟩ := runs_perform_bind_iff.1 h₃
  obtain ⟨tr₁, _, tr₂, hsignal, h₅, rfl⟩ := runs_bind_iff.1 h₄
  obtain ⟨_, _, rfl, h₆⟩ := runs_perform_bind_iff.1 h₅
  obtain ⟨rfl, rfl⟩ := runs_pure_iff.1 h₆
  obtain ⟨rfl, htr⟩ := announcements_checkAndSignal hsignal
  refine ⟨?_, rfl⟩
  have hname : Silent (.log .info ("Start controlling host: " ++ config.name)) := by
    rw [Silent, announced?, if_neg (startControlling_ne rfl), if_neg (startControlling_ne rfl)]
  change announcements ([_, _, _, _] ++ (tr₁ ++ [_])) = [false]
  rw [announcements_append, announcements_append, htr,
    announcements_of_silent (List.forall_mem_cons.2 ⟨hname, by simp [Silent, announced?]⟩),
    announcements_of_silent (by simp [Silent, announced?])]
  rfl

/-- In every run, the announcements alternate; the first is that the server is stopped, and the
    last one tells the recorded state. -/
theorem announcements_alternate (h : IsRun plus config tr₀ trs s) :
    let announced := announcements (tr₀ ++ trs.reverse.flatten)
    announced.IsChain (· ≠ ·) ∧ announced.head? = some false ∧
      announced.getLast? = some s.running := by
  intro announced
  induction h with
  | construct h =>
    obtain ⟨htr, hs⟩ := announcements_construct h
    have hall : announced = [false] := by simp [announced, htr]
    rw [hall, hs]
    exact ⟨.singleton false, rfl, rfl⟩
  | @call tr trs s s' hrun h ih =>
    obtain ⟨hchain, hhead, hlast⟩ := ih
    have hall : announced = announcements (tr₀ ++ trs.reverse.flatten) ++
        if s'.running = s.running then [] else [s'.running] := by
      rw [← announcements_doWork h, ← announcements_append]
      simp [announced]
    rw [hall]
    split_ifs with hsame
    · rw [List.append_nil, hsame]
      exact ⟨hchain, hhead, hlast⟩
    · refine ⟨hchain.append (.singleton _) ?_, ?_, List.getLast?_concat⟩
      · rw [hlast]
        rintro _ ⟨⟩ _ ⟨⟩
        exact Ne.symm hsame
      · rw [List.head?_append, hhead]
        rfl

/-- A server answers, then does not, twice; in the last call the ping fails. -/
theorem announcements_alternate_example :
    let start : Inputs := .calm 0 .kHostActive .kFailed
    let calls := play exactPlus testConfig start [.calm 25000000000 .kFailed .kFailed,
      .calm 20000000000 .kHostInactive .kFailed, .calm 15000000000 .kHostInactive .kFailed,
      .calm 10000000000 .kHostActive .kFailed]
    let announced := announcements
      ((execute testConfig start (construct testConfig)).trace ++ calls.1.reverse.flatten)
    announced = [false, true, false] ∧ announced.IsChain (· ≠ ·) ∧
      announced.head? = some false ∧ announced.getLast? = some calls.2.running :=
  ⟨by decide, announcements_alternate (play_isRun exactPlus testConfig _ _)⟩

end Hostcontrold.ServerController
