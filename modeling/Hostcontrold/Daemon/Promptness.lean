import Hostcontrold.Daemon.Rounds
import Hostcontrold.Interaction.Late

/-!
# Stopping the daemon

The signal handlers set the stop flag, which is never reset. The program reads it before every
turn, and before every client ping. From the moment it is set, wherever this is in a run, at
most one host is pinged, one command is sent, and one pause is made; and once the main loop has
been entered, there are at most twelve more operations, however many servers and clients
there are (`main_stops`). If the flag is read in the main loop, the program is exited
successfully.
-/

namespace Hostcontrold

open Interaction ServerController Hostcontrold.Action

/-- If the flag is read, it is set. -/
def told : Event Op.Ans → Bool
  | ⟨.stopExecution, stop⟩ => stop
  | _ => true

/-- If the flag is read by the program, or by one of its controllers, it is set. -/
def mainTold : Event MainOp.Ans → Bool
  | ⟨.stopExecution, stop⟩ => stop
  | ⟨.controller _ op, x⟩ => told ⟨op, x⟩
  | _ => true

/-- A host is pinged. -/
def MainOp.isPing : MainOp → Bool
  | .controller _ (.pingHost _) => true
  | _ => false

/-- A server is woken up, or shut down. -/
def MainOp.isPowerCommand : MainOp → Bool
  | .controller _ (.sendMagicPacket _) => true
  | .controller _ (.sendShutdownCommand _ _) => true
  | _ => false

def MainOp.isPause : MainOp → Bool
  | .sleep => true
  | _ => false

/-! ## The controllers -/

/-- What the operations of a controller with `c` amount to. -/
structure Weighs (c : Op → Bool) (ping command other : Nat) : Prop where
  pingHost (ip : String) : (c (.pingHost ip)).toNat ≤ ping
  sendMagicPacket (mac : String) : (c (.sendMagicPacket mac)).toNat ≤ command
  sendShutdownCommand (ip sshUser : String) : (c (.sendShutdownCommand ip sshUser)).toNat ≤ command
  now : (c .now).toNat ≤ other
  checkFileExists (path : String) : (c (.checkFileExists path)).toNat ≤ other
  createEmptyFile (path : String) : (c (.createEmptyFile path)).toNat ≤ other
  removeFile (path : String) : (c (.removeFile path)).toNat ≤ other
  stopExecution : (c .stopExecution).toNat ≤ other
  log (priority : LogPriority) (message : String) : (c (.log priority message)).toNat ≤ other

section Controller

variable {c : Op → Bool} {ping command other n : Nat} {running newState : Bool}
  {config : ServerMachineConfig} {plus : Int → Int → Int} {s : ServerController}

/-- An operation that is not a reading of the flag. -/
theorem late_perform_bind {β : Type} {op : Op} {f : op.Ans → Action β} {m k w : Nat}
    (hf : ∀ x, Late (told · = true) c (f x) m n) (hw : (c op).toNat ≤ w) (hk : m + w ≤ k)
    (hn : k ≤ n) : Late (told · = true) c (.perform op >>= f) k n :=
  Late.perform_bind (fun x _ => hf x) hf (by omega) hn

theorem late_log {α : Type} {p : Action α} {priority : LogPriority} {message : String} {m k : Nat}
    (hp : Late (told · = true) c p m n) (hc : Weighs c ping command other) (hk : m + other ≤ k)
    (hn : k ≤ n) : Late (told · = true) c (log priority message >>= fun _ => p) k n :=
  late_perform_bind (fun _ => hp) (hc.log _ _) hk hn

theorem late_checkAndSignalServerState (hc : Weighs c ping command other) (hn : 3 * other ≤ n) :
    Late (told · = true) c (checkAndSignalServerState config running newState) (3 * other) n := by
  have hchange (state : Bool) (priority : LogPriority) (message created removed : String) :
      Late (told · = true) c (do
        log priority message
        let _ ← createEmptyFile created
        let _ ← removeFile removed
        return state) (3 * other) n := by
    refine late_perform_bind (fun _ => ?_) (hc.log _ _) (by omega : 2 * other + other ≤ _) hn
    refine late_perform_bind (fun _ => ?_) (hc.createEmptyFile _) (by omega : other + other ≤ _)
      (by omega)
    exact late_perform_bind (fun _ => .pure state) (hc.removeFile _)
      (Nat.le_of_eq (Nat.zero_add _)) (by omega)
  rw [checkAndSignalServerState]
  split_ifs
  · exact hchange _ _ _ _ _
  · exact .pure _
  · exact hchange _ _ _ _ _
  · exact .pure _

theorem late_startServerIfNotRunning (hc : Weighs c ping command other)
    (hn : command + 2 * other ≤ n) :
    Late (told · = true) c (startServerIfNotRunning config running) (command + 2 * other) n := by
  have hsent : Late (told · = true) c (log .info "WOL sent") other n :=
    late_perform_bind (fun _ => .pure _) (hc.log _ _) (Nat.le_of_eq (Nat.zero_add _)) (by omega)
  rw [startServerIfNotRunning]
  split_ifs
  · exact .pure _
  · refine late_perform_bind (fun sent => ?_) (hc.sendMagicPacket _)
      (by omega : 2 * other + command ≤ _) hn
    split_ifs
    · exact late_log hsent hc (by omega) (by omega)
    · exact hsent.mono (by omega) (Nat.le_refl n)

theorem late_shutdownServerIfRunning (hc : Weighs c ping command other) (hn : command ≤ n) :
    Late (told · = true) c (shutdownServerIfRunning config running) command n := by
  rw [shutdownServerIfRunning]
  split_ifs
  · exact .pure _
  · exact late_perform_bind (fun _ => .pure _) (hc.sendShutdownCommand _ _)
      (Nat.le_of_eq (Nat.zero_add _)) hn

theorem late_pingServer (hc : Weighs c ping command other) (hn : ping + 4 * other ≤ n) :
    Late (told · = true) c (pingServer config running) (ping + 4 * other) n := by
  refine late_perform_bind (fun result => ?_) (hc.pingHost _) (by omega : 4 * other + ping ≤ _) hn
  cases result with
  | kHostActive | kHostInactive =>
    exact late_log (late_checkAndSignalServerState hc (by omega)) hc (by omega) (by omega)
  | kFailed => exact late_log (Late.pure (m := 0) _) hc (by omega) (by omega)

/-- If the flag is set, no client is pinged any more. If it is set just after it was read, one
    is. -/
theorem late_checkClients {clients : List ClientMachineConfig} (hc : Weighs c ping command other)
    (hn : ping + 2 * other ≤ n) : Late (told · = true) c (checkClients clients) other n := by
  induction clients with
  | nil => exact .pure _
  | cons client clients ih =>
    have hread : 0 + (c .stopExecution).toNat ≤ other := by
      rw [Nat.zero_add]
      exact hc.stopExecution
    refine @Late.perform_bind _ _ _ _ _ _ n _ (ping + 2 * other) _ _ (fun stop hstop => ?_)
      (fun stop => ?_) hread (by omega)
    · obtain rfl : stop = true := hstop
      exact .pure _
    · cases stop with
      | true => exact .pure _
      | false =>
        refine late_perform_bind (fun result => ?_) (hc.pingHost _)
          (by omega : 2 * other + ping ≤ _) hn
        cases result with
        | kHostActive => exact late_log (Late.pure (m := 0) _) hc (by omega) (by omega)
        | kHostInactive | kFailed => exact late_log ih hc (by omega) (by omega)

theorem checkClients_told {clients : List ClientMachineConfig} {tr : Trace} {active : Bool}
    (h : Runs (checkClients clients) tr active) (hstop : ∀ e ∈ tr, told e = true) :
    active = false := by
  cases clients with
  | nil => exact (runs_pure_iff.1 h).2
  | cons client clients =>
    obtain ⟨stop, _, rfl, h₁⟩ := runs_perform_bind_iff.1 h
    obtain rfl : stop = true := hstop _ List.mem_cons_self
    exact (runs_pure_iff.1 h₁).2

theorem late_doWork (hc : Weighs c ping command other) (hn : ping + command + 9 * other ≤ n) :
    Late (told · = true) c (doWork plus config s) (ping + command + 9 * other) n := by
  refine late_perform_bind (fun currentTime => ?_) hc.now
    (by omega : ping + command + 8 * other + other ≤ _) hn
  split_ifs
  · exact .pure _
  refine (late_pingServer hc (Nat.le_refl _)).bind (fun running => ?_)
    (by omega : ping + 4 * other + (command + 4 * other) ≤ _) (by omega)
  have hreturn {p : Action Unit} {s' : ServerController} {m : Nat}
      (hp : Late (told · = true) c p m m) (hm : m ≤ n) :
      Late (told · = true) c (do p; return s') m n :=
    hp.bind (fun _ => .pure _) (Nat.le_refl (m + 0)) hm
  have hstart := @late_startServerIfNotRunning c ping command other _ running config hc
    (Nat.le_refl _)
  have hshutdown := @late_shutdownServerIfRunning c ping command other _ running config hc
    (Nat.le_refl _)
  refine late_perform_bind (fun forceOn => ?_) (hc.checkFileExists _)
    (by omega : command + 3 * other + other ≤ _) (by omega)
  cases forceOn with
  | true =>
    rw [if_pos rfl]
    exact late_log (hreturn hstart (by omega)) hc (by omega) (by omega)
  | false =>
  rw [if_neg Bool.false_ne_true]
  refine late_perform_bind (fun forceOff => ?_) (hc.checkFileExists _)
    (by omega : command + other + other ≤ _) (by omega)
  cases forceOff with
  | true =>
    rw [if_pos rfl]
    exact late_log (hreturn hshutdown (by omega)) hc (by omega) (by omega)
  | false =>
  rw [if_neg Bool.false_ne_true]
  -- The clients are not asked any more, and the server is not woken up.
  refine (late_checkClients hc (Nat.le_refl _)).bind_of (Q := (· = false)) (fun active => ?_)
    (fun _ _ => checkClients_told) ?_ (by omega : other + command ≤ _)
    (by omega : ping + 2 * other + (command + 2 * other) ≤ _)
  · split_ifs
    · exact hreturn hstart (by omega)
    · exact (hreturn hshutdown (by omega)).mono (by omega) (Nat.le_refl n)
    · exact .pure _
  · rintro _ rfl
    rw [if_neg Bool.false_ne_true]
    split_ifs
    · exact hreturn hshutdown (by omega)
    · exact .pure _

end Controller

/-! ## The program -/

variable {plus : Int → Int → Int} {turns i ping command other n : Nat}
  {config : ServerMachineConfig} {blocks : List Json} {tr tr' : List (Event MainOp.Ans)}
  {outcome : Outcome} {c : MainOp → Bool}

/-- The main loop reads the flag before every turn, and there is at most one more turn. -/
theorem late_mainLoop {done todo : List Controlled}
    (hc : ∀ i, Weighs (fun op => c (.controller i op)) ping command other)
    (hcall : ping + command + 9 * other ≤ n) (hpause : (c .sleep).toNat ≤ n)
    (hread : (c .stopExecution).toNat ≤ other) :
    Late (mainTold · = true) c (mainLoop plus turns done todo) other (n + other) := by
  induction turns generalizing done todo with
  | zero => exact .pure _
  | succ turns ih =>
    refine @Late.perform_bind _ _ _ _ _ 0 _ _ (n + other) _ _ (fun stop hstop => ?_)
      (fun stop => ?_) (by omega) (by omega)
    · obtain rfl : stop = true := hstop
      exact .pure _
    · cases stop with
      | true => exact .pure _
      | false =>
        rcases todo with _ | ⟨⟨config, controller⟩, todo⟩
        · exact Late.perform_bind (fun _ _ => ih) (fun _ => ih)
            (by omega : other + (c .sleep).toNat ≤ n + other) (Nat.le_refl _)
        · have hwork := @late_doWork _ _ _ _ _ config plus controller (hc done.length) hcall
          exact (Late.embed hwork).bind (fun _ => ih) (by omega) (Nat.le_refl _)

/-- Operations before the main loop. -/
def BeforeLoop : MainOp → Prop
  | .controller _ (.pingHost _) => False
  | .controller _ (.sendMagicPacket _) => False
  | .controller _ (.sendShutdownCommand _ _) => False
  | .stopExecution => False
  | .sleep => False
  | _ => True

theorem beforeLoop_construct : (construct config).Only fun op => BeforeLoop (.controller i op) :=
  ⟨trivial, fun _ => ⟨trivial, fun _ => ⟨trivial, fun _ => ⟨trivial, fun _ => ⟨trivial, fun _ =>
    ⟨trivial, fun _ => ⟨trivial, fun _ => ⟨trivial, fun _ => trivial⟩⟩⟩⟩⟩⟩⟩⟩

theorem beforeLoop_createControllers : (createControllers i blocks).Only BeforeLoop := by
  induction blocks generalizing i with
  | nil => trivial
  | cons block blocks ih =>
    rw [createControllers]
    cases ServerMachineConfig.fromJson block with
    | error e => trivial
    | ok config =>
      exact (Program.Only.embed _ beforeLoop_construct).bind fun _ => ih.bind fun _ => trivial

/-- The main loop comes last, if it is entered at all. -/
theorem runs_main_loop (h : Runs (main plus turns) tr outcome) : ∃ tr₁ tr₂, tr = tr₁ ++ tr₂ ∧
    (∀ e ∈ tr₁, BeforeLoop e.op) ∧
      (tr₂ = [] ∨ ∃ controllers, Runs (mainLoop plus turns [] controllers) tr₂ outcome) := by
  rcases runs_main_cases h with ⟨written, rfl, -⟩ | ⟨read, tr, rfl, hafter⟩
  · refine ⟨_, [], (List.append_nil _).symm, ?_, .inl rfl⟩
    cases written <;> simp [exampleEvents, BeforeLoop]
  · have hread : ∀ e ∈ readEvents read, BeforeLoop e.op := by simp [readEvents, BeforeLoop]
    cases hafter with
    | parseError =>
      exact ⟨_, [], (List.append_nil _).symm, by simp [readEvents, BeforeLoop], .inl rfl⟩
    | otherError => exact ⟨_, [], rfl, hread, .inl rfl⟩
    | notDecoded hcreate =>
      exact ⟨_, [], (List.append_nil _).symm,
        List.forall_mem_append.2 ⟨hread, hcreate.only beforeLoop_createControllers⟩, .inl rfl⟩
    | loop hcreate hloop =>
      exact ⟨_, _, (List.append_assoc _ _ _).symm,
        List.forall_mem_append.2 ⟨hread, hcreate.only beforeLoop_createControllers⟩,
        .inr ⟨_, hloop⟩⟩

/-- Of operations that belong to the turns, there are no more than in one turn. -/
theorem late_main (hc : ∀ i, Weighs (fun op => c (.controller i op)) ping command 0)
    (hquiet : ∀ op, BeforeLoop op → c op = false) (hread : c .stopExecution = false)
    (hcall : ping + command ≤ n) (hpause : (c .sleep).toNat ≤ n) :
    Late (mainTold · = true) c (main plus turns) 0 n := by
  have hloop (controllers : List Controlled) :
      Late (mainTold · = true) c (mainLoop plus turns [] controllers) 0 n :=
    late_mainLoop hc hcall hpause (Nat.le_of_eq (congrArg Bool.toNat hread))
  have hcount {events : List (Event MainOp.Ans)} (h : ∀ e ∈ events, BeforeLoop e.op) :
      count c events = 0 := count_eq_zero fun e he => hquiet _ (h e he)
  constructor
  · intro tr outcome h hR
    obtain ⟨tr₁, tr₂, rfl, hq, rfl | ⟨_, hrun⟩⟩ := runs_main_loop h
    · exact Nat.le_of_eq ((List.append_nil tr₁).symm ▸ hcount hq)
    · rw [count_append, hcount hq, Nat.zero_add]
      exact (hloop _).whole hrun (List.forall_mem_append.1 hR).2
  · intro tr tr' outcome h hR
    obtain ⟨tr₁, tr₂, he, hq, hrest⟩ := runs_main_loop h
    rcases List.append_eq_append_iff.1 he with ⟨t, rfl, rfl⟩ | ⟨t, rfl, rfl⟩
    · -- The flag is set before the main loop.
      rw [count_append, hcount (List.forall_mem_append.1 hq).2, Nat.zero_add]
      rcases hrest with rfl | ⟨_, hrun⟩
      · exact Nat.zero_le n
      · exact Nat.le_trans ((hloop _).whole hrun (List.forall_mem_append.1 hR).2) (Nat.zero_le n)
    · rcases hrest with hnil | ⟨_, hrun⟩
      · obtain ⟨-, rfl⟩ := List.append_eq_nil_iff.1 hnil
        exact Nat.zero_le n
      · exact (hloop _).tail hrun hR

/-- If the main loop finds the flag set, the program is exited. -/
theorem exited_of_told {done todo : List Controlled} {e : Event MainOp.Ans}
    (h : Runs (mainLoop plus turns done todo) tr outcome) (he : e ∈ tr)
    (hop : e.op = .stopExecution) (hstop : mainTold e = true) : outcome = .exited 0 := by
  induction turns generalizing done todo tr with
  | zero =>
    obtain ⟨rfl, -⟩ := runs_pure_iff.1 h
    cases he
  | succ turns ih =>
    obtain ⟨stop, tr', rfl, h₁⟩ := runs_perform_bind_iff.1 h
    cases stop with
    | true => exact (runs_pure_iff.1 h₁).2
    | false =>
      rcases List.mem_cons.1 he with rfl | he
      · cases hstop
      rcases todo with _ | ⟨⟨config, controller⟩, todo⟩
      · obtain ⟨_, tr'', rfl, h₂⟩ := runs_perform_bind_iff.1 h₁
        rcases List.mem_cons.1 he with rfl | he
        · cases hop
        · exact ih h₂ he
      · obtain ⟨_, _, _, hcall, h₂, rfl⟩ := runs_bind_iff.1 h₁
        rcases List.mem_append.1 he with he | he
        · obtain ⟨_, rfl, -⟩ := (runs_embed_iff _).1 hcall
          obtain ⟨_, -, rfl⟩ := List.mem_map.1 he
          cases hop
        · exact ih h₂ he

/-- Once the stop flag is set, at most one host is pinged, one command is sent, and one pause is
    made. In the main loop, there are at most twelve more operations, and if it reads the flag
    again, the program is exited. -/
theorem main_stops (h : Runs (main plus turns) (tr ++ tr') outcome)
    (hstop : ∀ e ∈ tr', mainTold e = true) :
    count MainOp.isPing tr' ≤ 1 ∧ count MainOp.isPowerCommand tr' ≤ 1 ∧
      count MainOp.isPause tr' ≤ 1 ∧
      ((∃ e ∈ tr, e.op = .stopExecution) → tr'.length ≤ 12) ∧
      ((∃ e ∈ tr', e.op = .stopExecution) → outcome = .exited 0) := by
  have hquiet (c : MainOp → Bool) (hc : c = MainOp.isPing ∨ c = MainOp.isPowerCommand ∨
      c = MainOp.isPause) (op : MainOp) (hop : BeforeLoop op) : c op = false := by
    rcases hc with rfl | rfl | rfl <;> rcases op with _ | _ | _ | _ | ⟨i, _ | _⟩ | _ | _ <;>
      first | rfl | cases hop
  have hpings := @late_main plus turns 1 0 1 MainOp.isPing
    (fun i => by constructor <;> simp [MainOp.isPing]) (hquiet _ (.inl rfl)) rfl (by decide)
    (by decide)
  have hcommands := @late_main plus turns 0 1 1 MainOp.isPowerCommand
    (fun i => by constructor <;> simp [MainOp.isPowerCommand]) (hquiet _ (.inr (.inl rfl))) rfl
    (by decide) (by decide)
  have hpauses := @late_main plus turns 0 0 1 MainOp.isPause
    (fun i => by constructor <;> simp [MainOp.isPause]) (hquiet _ (.inr (.inr rfl))) rfl
    (by decide) (by decide)
  obtain ⟨tr₁, tr₂, he, hq, hrest⟩ := runs_main_loop h
  have hloop {e : Event MainOp.Ans} (hmem : e ∈ tr ++ tr') (hop : e.op = .stopExecution) :
      e ∈ tr₂ ∧ ∃ controllers, Runs (mainLoop plus turns [] controllers) tr₂ outcome := by
    rcases List.mem_append.1 (he ▸ hmem) with hmem | hmem
    · exact (hop ▸ hq e hmem : BeforeLoop .stopExecution).elim
    · exact ⟨hmem, hrest.resolve_left (List.ne_nil_of_mem hmem)⟩
  refine ⟨hpings.tail h hstop, hcommands.tail h hstop, hpauses.tail h hstop, ?_, ?_⟩
  · rintro ⟨e, hmem, hop⟩
    obtain ⟨-, controllers, hrun⟩ := hloop (List.mem_append_left _ hmem) hop
    rcases List.append_eq_append_iff.1 he with ⟨t, rfl, -⟩ | ⟨t, -, rfl⟩
    · exact (hop ▸ hq e (List.mem_append_left _ hmem) : BeforeLoop .stopExecution).elim
    · have hweighs (i : Nat) : Weighs (fun _ => true) 1 1 1 := by constructor <;> simp
      have hall : Late (mainTold · = true) (fun _ => true) (mainLoop plus turns [] controllers) 1
          (11 + 1) := late_mainLoop hweighs (Nat.le_refl 11) (by decide) (Nat.le_refl 1)
      have hcount := hall.tail hrun hstop
      rwa [count, List.countP_true] at hcount
  · rintro ⟨e, hmem, hop⟩
    obtain ⟨hmem₂, controllers, hrun⟩ := hloop (List.mem_append_right _ hmem) hop
    exact exited_of_told hrun hmem₂ hop (hstop e hmem)

/-- A program that is told to stop after its first `asked` operations. -/
def stopHandler (json : Json) (asked : Nat) : Handler MainOp.Ans Nat
  | .stopExecution, n => (decide (asked ≤ n), n + 1)
  | .controller _ .stopExecution, n => (decide (asked ≤ n), n + 1)
  | op, n => (quiet json 5000000000 op, n + 1)

/-- The program is told to stop when it has read the clock in the first call. -/
theorem main_stops_example :
    let r := exec (stopHandler (.array [exampleServerConfig.toJson]) 13) (main exactPlus 100) 0
    let tr' := r.trace.drop 13
    count MainOp.isPing tr' = 1 ∧ r.result = .exited 0 ∧ tr'.length ≤ 12 ∧
      count MainOp.isPing tr' ≤ 1 := by
  intro r tr'
  have hstop : ∀ e ∈ tr', mainTold e = true := by decide +zetaReduce
  have h := main_stops (List.take_append_drop 13 r.trace ▸ exec_runs _ _ _) hstop
  refine ⟨by decide +zetaReduce, h.2.2.2.2 ⟨⟨.stopExecution, true⟩, ?_, rfl⟩,
    h.2.2.2.1 ⟨⟨.stopExecution, false⟩, ?_, rfl⟩, h.1⟩
  · exact List.mem_of_getElem? (rfl : tr'[5]? = _)
  · exact List.mem_of_getElem? (rfl : (r.trace.take 13)[11]? = _)

end Hostcontrold
