import Hostcontrold.Controller.Inputs
import Hostcontrold.Daemon.Surroundings

/-!
# The controllers do not interfere

The controllers of the daemon share the files, but no controller touches a file
of another one: the decoder lets each control directory end with a `/`, so that
different directories have no file in common (`separate_of_decoded`).

So, what a controller does in the daemon is what it does alone (`isolated`). The
proof follows one controller through the run of the daemon: its surroundings
match those of the controller alone (`Matches`), its own operations keep it so
(`exec_own`), and those of the other ones do not matter (`exec_other`).
-/

namespace Hostcontrold

open Interaction ServerController

variable {env : Environment} {configs : List ServerMachineConfig}
  {config other : ServerMachineConfig} {i j turn : Nat} {w : Surroundings} {v : Files × Nat}

/-! ## Files of other servers -/

theorem affect_congr {files files' : Files} {path : String} (h : files path = files' path)
    (e : Event Op.Ans) : affect e files path = affect e files' path := by
  obtain ⟨op, ans⟩ := e
  cases op with
  | createEmptyFile | removeFile => cases ans <;> simp [affect, h]
  | _ => exact h

theorem affect_of_not_written {e : Event Op.Ans} {path : String} (h : path ∉ writes? e.op)
    (files : Files) : affect e files path = files path := by
  obtain ⟨op, ans⟩ := e
  cases op with
  | createEmptyFile | removeFile =>
    have hne : path ≠ _ := fun he => h (he ▸ rfl)
    cases ans <;> simp [affect, hne]
  | _ => rfl

/-- A permitted operation writes no file of another server. -/
theorem ServerController.Permitted.not_written {op : Op} (hop : Permitted other op)
    (hsep : Separate other config) {path : String} (hpath : path ∈ paths config) :
    path ∉ writes? op :=
  fun hw => hsep path (hop.own path (path?_of_writes? hw)) hpath

theorem forcePath_mem (on : Bool) : forcePath config on ∈ paths config := by
  cases on <;> simp [forcePath, paths]

theorem apply_other (hsep : Separate other config) {path : String} (hpath : path ∈ paths config)
    (changes : Changes) (files : Files) : changes.apply other files path = files path := by
  have hne (on : Bool) : path ≠ forcePath other on := by
    rintro rfl
    exact hsep _ (forcePath_mem on) hpath
  rw [Changes.apply, if_neg (hne true), if_neg (hne false)]

theorem apply_congr {files files' : Files} {path : String} (h : files path = files' path)
    (changes : Changes) : changes.apply config files path = changes.apply config files' path := by
  rw [Changes.apply, Changes.apply, h]

theorem changeAll_other {changes : Nat → Changes} (hsep : ∀ other ∈ configs, Separate other config)
    {path : String} (hpath : path ∈ paths config) (files : Files) :
    changeAll changes j configs files path = files path := by
  induction configs generalizing j files with
  | nil => rfl
  | cons c configs ih =>
    obtain ⟨hc, hconfigs⟩ := List.forall_mem_cons.1 hsep
    rw [changeAll, ih hconfigs, apply_other hc hpath]

/-- Of the changes of the users, a server sees those of its own files. -/
theorem changeAll_own {changes : Nat → Changes} (hi : configs[i]? = some config)
    (hsep : configs.Pairwise Separate) {path : String} (hpath : path ∈ paths config)
    (files : Files) : changeAll changes j configs files path =
      (changes (j + i)).apply config files path := by
  induction configs generalizing i j files with
  | nil => cases hi
  | cons c configs ih =>
    obtain ⟨hc, hconfigs⟩ := List.pairwise_cons.1 hsep
    cases i with
    | zero =>
      obtain rfl := Option.some.inj hi
      exact changeAll_other (fun other hmem => (hc other hmem).symm) hpath _
    | succ i =>
      have hother := apply_other (hc config (List.mem_of_getElem? hi)) hpath (changes j) files
      rw [changeAll, ih hi hconfigs, Nat.add_right_comm]
      exact apply_congr hother _

/-! ## The view of one controller -/

/-- For the `i`-th controller, the surroundings of the daemon in a turn look like
    those of the controller alone. -/
structure Matches (config : ServerMachineConfig) (i turn : Nat) (w : Surroundings)
    (v : Files × Nat) : Prop where
  files : ∀ path ∈ paths config, w.files path = v.1 path
  asked : w.asked i = v.2
  turn : w.turn = turn

/-- An operation of the controller gets the same answer. -/
theorem Matches.own (h : Matches config i turn w v) {op : Op} (hop : Permitted config op) :
    (env.handler configs (.controller i op) w).1 = (aloneHandler (env.answers i) op v).1 ∧
      Matches config i turn (env.handler configs (.controller i op) w).2
        (aloneHandler (env.answers i) op v).2 := by
  have hans : respond w.files (env.answers i (w.asked i)) op =
      respond v.1 (env.answers i v.2) op := by
    rw [h.asked]
    cases op with
    | checkFileExists path => exact h.files path (hop.own path rfl)
    | _ => rfl
  refine ⟨hans, ?_, ?_, h.turn⟩
  · intro path hpath
    rw [Environment.handler, hans]
    exact affect_congr (h.files path hpath) _
  · exact (if_pos rfl).trans (congrArg (· + 1) h.asked)

/-- An operation of another controller does not matter. -/
theorem Matches.foreign (h : Matches config i turn w v) (hj : j ≠ i) (hsep : Separate other config)
    {op : Op} (hop : Permitted other op) :
    Matches config i turn (env.handler configs (.controller j op) w).2 v where
  files path hpath :=
    (affect_of_not_written (hop.not_written hsep hpath) _).trans (h.files path hpath)
  asked := (if_neg hj.symm).trans h.asked
  turn := h.turn

/-- Before a turn, the controller sees the changes of its own force files. -/
theorem Matches.next (h : Matches config i turn w v) (hi : configs[i]? = some config)
    (hsep : configs.Pairwise Separate) :
    Matches config i (turn + 1) (env.handler configs .stopExecution w).2
      ((env.changes turn i).apply config v.1, v.2) where
  files path hpath := by
    refine (changeAll_own hi hsep hpath _).trans ?_
    rw [Nat.zero_add, h.turn]
    exact apply_congr (h.files path hpath) _
  asked := h.asked
  turn := congrArg (· + 1) h.turn

theorem own_append (tr tr' : List (Event MainOp.Ans)) :
    own i (tr ++ tr') = own i tr ++ own i tr' := List.filterMap_append

theorem own_embed (tr : Trace) : own i (tr.map (Event.embed (MainOp.controller j))) =
    if j = i then tr else [] := by
  rw [own, List.filterMap_map]
  split_ifs with h
  · exact (List.filterMap_congr fun e _ => if_pos h).trans List.filterMap_some
  · exact List.filterMap_eq_nil_iff.2 fun e _ => if_neg h

section Parts

variable {α : Type} {p : Action α}

variable (env configs) in
/-- A part of the controller is executed as if it were alone. -/
theorem exec_own (hp : p.Only (Permitted config)) (h : Matches config i turn w v) :
    own i (exec (env.handler configs) (p.embed (.controller i)) w).trace =
        (exec (aloneHandler (env.answers i)) p v).trace ∧
      (exec (env.handler configs) (p.embed (.controller i)) w).result =
        (exec (aloneHandler (env.answers i)) p v).result ∧
      Matches config i turn (exec (env.handler configs) (p.embed (.controller i)) w).state
        (exec (aloneHandler (env.answers i)) p v).state := by
  rw [exec_embed]
  obtain ⟨htrace, hresult, hstate⟩ := exec_simulates hp (fun op w v hop h => h.own hop) h
  exact ⟨(own_embed _).trans ((if_pos rfl).trans htrace), hresult, hstate⟩

variable (env configs) in
/-- A part of another controller is not noticed. -/
theorem exec_other (hp : p.Only (Permitted other)) (hj : j ≠ i) (hsep : Separate other config)
    (h : Matches config i turn w v) :
    own i (exec (env.handler configs) (p.embed (.controller j)) w).trace = [] ∧
      Matches config i turn (exec (env.handler configs) (p.embed (.controller j)) w).state v := by
  rw [exec_embed]
  exact ⟨(own_embed _).trans (if_neg hj), @exec_invariant _ _ _ _ _ _ _ (Matches config i turn · v)
    hp (fun _ _ hop h => h.foreign hj hsep hop) _ h⟩

end Parts

/-! ## The run of the daemon -/

variable {blocks : List Json}

/-- The blocks decoded. -/
abbrev Decoded (blocks : List Json) (configs : List ServerMachineConfig) : Prop :=
  List.Forall₂ (fun json config => ServerMachineConfig.fromJson json = .ok config) blocks configs

/-- The creation of a controller, then of the other ones. -/
theorem exec_createControllers_cons {json : Json}
    (h : ServerMachineConfig.fromJson json = .ok config) :
    exec (env.handler configs) (createControllers j (json :: blocks)) w =
      let r := exec (env.handler configs) ((construct config).embed (.controller j)) w
      let r' := exec (env.handler configs) (createControllers (j + 1) blocks) r.state
      ⟨r.trace ++ r'.trace, r'.result.map ((config, r.result) :: ·), r'.state⟩ := by
  rw [createControllers, h]
  simp only [exec_bind, exec_pure, List.append_nil]

/-- The creation of other controllers is not noticed. -/
theorem exec_createControllers_other {created : List ServerMachineConfig}
    (hdecoded : Decoded blocks created) (hj : i < j)
    (hsep : ∀ other ∈ created, Separate other config) (h : Matches config i turn w v) :
    let r := exec (env.handler configs) (createControllers j blocks) w
    (∃ controllers, r.result = .ok controllers ∧ controllers.map Prod.fst = created) ∧
      own i r.trace = [] ∧ Matches config i turn r.state v := by
  induction hdecoded generalizing j w with
  | nil => exact ⟨⟨[], rfl, rfl⟩, rfl, h⟩
  | cons hjson _ ih =>
    obtain ⟨hc, hcreated⟩ := List.forall_mem_cons.1 hsep
    obtain ⟨htrace, hstate⟩ := exec_other env configs only_construct (Nat.ne_of_gt hj) hc h
    obtain ⟨⟨controllers, hresult, hmap⟩, htrace', hstate'⟩ :=
      ih (Nat.lt_succ_of_lt hj) hcreated hstate
    rw [exec_createControllers_cons hjson]
    refine ⟨⟨_, congrArg (Except.map _) hresult, congrArg (_ :: ·) hmap⟩, ?_, hstate'⟩
    rw [own_append, htrace, htrace', List.append_nil]

/-- Each controller is created as if it were alone. -/
theorem exec_createControllers {created : List ServerMachineConfig}
    (hdecoded : Decoded blocks created) (hi : created[i]? = some config)
    (hsep : created.Pairwise Separate) (h : Matches config (j + i) turn w v) :
    let r := exec (env.handler configs) (createControllers j blocks) w
    let solo := exec (aloneHandler (env.answers (j + i))) (construct config) v
    (∃ controllers, r.result = .ok controllers ∧ controllers.map Prod.fst = created ∧
        controllers[i]? = some (config, solo.result)) ∧
      own (j + i) r.trace = solo.trace ∧ Matches config (j + i) turn r.state solo.state := by
  induction hdecoded generalizing i j w with
  | nil => cases hi
  | cons hjson hdecoded ih =>
    obtain ⟨hc, hcreated⟩ := List.pairwise_cons.1 hsep
    rw [exec_createControllers_cons hjson]
    cases i with
    | zero =>
      -- It is created now, and the others after it.
      obtain rfl := Option.some.inj hi
      simp only [Nat.add_zero] at h ⊢
      obtain ⟨htrace, hresult, hstate⟩ := exec_own env configs only_construct h
      obtain ⟨⟨controllers, hresult', hmap⟩, htrace', hstate'⟩ := exec_createControllers_other
        hdecoded (Nat.lt_succ_self j) (fun other hmem => (hc other hmem).symm) hstate
      refine ⟨⟨_, congrArg (Except.map _) hresult', congrArg (_ :: ·) hmap, ?_⟩, ?_, hstate'⟩
      · exact congrArg (fun r => some (_, r)) hresult
      · rw [own_append, htrace, htrace', List.append_nil]
    | succ i =>
      -- Another one is created before it.
      have hj : j ≠ j + (i + 1) := by omega
      obtain ⟨htrace, hstate⟩ := exec_other env configs only_construct hj
        (hc config (List.mem_of_getElem? hi)) h
      rw [← Nat.add_assoc, Nat.add_right_comm] at htrace hstate ⊢
      obtain ⟨⟨controllers, hresult, hmap, hget⟩, htrace', hstate'⟩ := ih hi hcreated hstate
      refine ⟨⟨_, congrArg (Except.map _) hresult, congrArg (_ :: ·) hmap, hget⟩, ?_, hstate'⟩
      rw [own_append, htrace, htrace', List.nil_append]

/-! ## The main loop -/

variable {plus : Int → Int → Int} {turns : Nat} {done todo : List Controlled}
  {controller : ServerController}

/-- A turn starts with the check of the stop flag; the loop is running afterwards if
    it was not set. -/
theorem exec_mainLoop_pause {controllers : List Controlled}
    (h : (exec (env.handler configs) (mainLoop plus (turns + 1) done []) w).result =
      .running controllers) :
    exec (env.handler configs) (mainLoop plus (turns + 1) done []) w =
      let r := exec (env.handler configs) (mainLoop plus turns [] done)
        (env.handler configs .stopExecution w).2
      { r with trace := ⟨.stopExecution, false⟩ :: ⟨.sleep, ()⟩ :: r.trace } := by
  by_cases hstop : env.stop w.turn = true
  · simp [mainLoop, Environment.handler, hstop] at h
  · simp [mainLoop, Environment.handler, hstop]

theorem exec_mainLoop_call {controllers : List Controlled}
    (h : (exec (env.handler configs) (mainLoop plus (turns + 1) done ((config, controller) :: todo))
      w).result = .running controllers) :
    exec (env.handler configs) (mainLoop plus (turns + 1) done ((config, controller) :: todo)) w =
      let r := exec (env.handler configs)
        ((controller.doWork plus config).embed (.controller done.length))
        (env.handler configs .stopExecution w).2
      let r' := exec (env.handler configs) (mainLoop plus turns (done ++ [(config, r.result)]) todo)
        r.state
      { r' with trace := ⟨.stopExecution, false⟩ :: (r.trace ++ r'.trace) } := by
  by_cases hstop : env.stop w.turn = true
  · simp [mainLoop, Environment.handler, hstop] at h
  · simp [mainLoop, Environment.handler, hstop]

section Alone

variable {count : Nat} {files : Files}

theorem alone_own (h : position count turn = i) :
    let r := alone plus env count i config files turn
    let r' := exec (aloneHandler (env.answers i)) (doWork plus config r.result)
      ((env.changes turn i).apply config r.state.1, r.state.2)
    alone plus env count i config files (turn + 1) = { r' with trace := r.trace ++ r'.trace } :=
  if_pos h

theorem alone_other (h : position count turn ≠ i) :
    let r := alone plus env count i config files turn
    alone plus env count i config files (turn + 1) =
      { r with state := ((env.changes turn i).apply config r.state.1, r.state.2) } :=
  if_neg h

end Alone

theorem separate_of_getElem? (hsep : configs.Pairwise Separate) (hi : configs[i]? = some config)
    (hj : configs[j]? = some other) (hne : j ≠ i) : Separate other config := by
  obtain ⟨hi', rfl⟩ := List.getElem?_eq_some_iff.1 hi
  obtain ⟨hj', rfl⟩ := List.getElem?_eq_some_iff.1 hj
  rcases Nat.lt_or_gt_of_ne hne with h | h
  · exact List.pairwise_iff_getElem.1 hsep j i hj' hi' h
  · exact (List.pairwise_iff_getElem.1 hsep i j hi' hj' h).symm

/-- The elements of a list around one that is replaced. -/
theorem getElem?_replaced {α : Type} {l l' : List α} {a b : α} (h : l.length ≠ i) :
    (l ++ [b] ++ l')[i]? = (l ++ a :: l')[i]? := by
  grind

/-- At a turn of the main loop, after the events `tr`, the `i`-th controller has come
    as far as it has alone. -/
structure Follows (plus : Int → Int → Int) (env : Environment) (configs : List ServerMachineConfig)
    (config : ServerMachineConfig) (i : Nat) (files : Files) (turn : Nat)
    (done todo : List Controlled) (tr : List (Event MainOp.Ans)) (w : Surroundings) : Prop where
  configs_eq : (done ++ todo).map Prod.fst = configs
  position_eq : done.length = position configs.length turn
  controller : (done ++ todo)[i]? =
    some (config, (alone plus env configs.length i config files turn).result)
  trace : own i tr = (alone plus env configs.length i config files turn).trace
  view : Matches config i turn w (alone plus env configs.length i config files turn).state

section Follows

variable {files : Files} {tr : List (Event MainOp.Ans)}

theorem Follows.length (h : Follows plus env configs config i files turn done todo tr w) :
    done.length + todo.length = configs.length := by
  rw [← h.configs_eq, List.length_map, List.length_append]

theorem Follows.config_eq (h : Follows plus env configs config i files turn done todo tr w) :
    configs[i]? = some config := by
  rw [← h.configs_eq, List.getElem?_map, h.controller]
  rfl

/-- The pause at the end of a round. -/
theorem Follows.pause (h : Follows plus env configs config i files turn done [] tr w)
    (hsep : configs.Pairwise Separate) :
    Follows plus env configs config i files (turn + 1) [] done
      (tr ++ [⟨.stopExecution, false⟩, ⟨.sleep, ()⟩])
      (env.handler configs .stopExecution w).2 := by
  have hi := (List.getElem?_eq_some_iff.1 h.config_eq).1
  have hlast : position configs.length turn = configs.length := h.position_eq.symm.trans h.length
  have halone := @alone_other env config i turn plus configs.length files (by omega)
  have hdone := List.append_nil done
  refine ⟨hdone ▸ h.configs_eq, (if_pos hlast).symm, ?_, ?_, ?_⟩
  · rw [halone]
    exact hdone ▸ h.controller
  · rw [halone, own_append, h.trace]
    exact List.append_nil _
  · rw [halone]
    exact h.view.next h.config_eq hsep

/-- A call, of this controller or another one. -/
theorem Follows.call
    (h : Follows plus env configs config i files turn done ((other, controller) :: todo) tr w)
    (hsep : configs.Pairwise Separate) :
    let r := exec (env.handler configs)
      ((controller.doWork plus other).embed (.controller done.length))
      (env.handler configs .stopExecution w).2
    Follows plus env configs config i files (turn + 1) (done ++ [(other, r.result)]) todo
      (tr ++ ⟨.stopExecution, false⟩ :: r.trace) r.state := by
  intro r
  have hnext := @Matches.next env _ _ _ _ _ _ h.view h.config_eq hsep
  have hconfigs : ((done ++ [(other, r.result)]) ++ todo).map Prod.fst = configs := by
    rw [← h.configs_eq]
    simp
  have hposition : (done ++ [(other, r.result)]).length = position configs.length (turn + 1) := by
    have hlength := h.length
    have hne : position configs.length turn ≠ configs.length := by
      rw [← h.position_eq]
      rw [List.length_cons] at hlength
      omega
    rw [position, if_neg hne, ← h.position_eq, List.length_append]
    rfl
  by_cases hi : done.length = i
  · -- It is the turn of the controller itself.
    subst hi
    have halone := @alone_own env config _ turn plus configs.length files h.position_eq.symm
    have hcontroller := h.controller
    rw [List.getElem?_append_right (Nat.le_refl _), Nat.sub_self] at hcontroller
    obtain ⟨rfl, hs⟩ := Prod.mk.inj (Option.some.inj hcontroller)
    dsimp only at halone
    rw [← hs] at halone
    have hdoWork : (doWork plus other controller).Only (Permitted other) := only_doWork
    obtain ⟨htrace, hresult, hstate⟩ := exec_own env configs hdoWork hnext
    refine ⟨hconfigs, hposition, ?_, ?_, ?_⟩
    · rw [halone]
      simp [r, hresult]
    · rw [halone, own_append, h.trace]
      exact congrArg (_ ++ ·) htrace
    · rw [halone]
      exact hstate
  · -- It is the turn of another controller, whose files are separate.
    have halone := @alone_other env config i turn plus configs.length files
      (fun he => hi (h.position_eq.trans he))
    have hother : configs[done.length]? = some other := by
      rw [← h.configs_eq]
      simp
    obtain ⟨htrace, hstate⟩ := exec_other env configs only_doWork hi
      (separate_of_getElem? hsep h.config_eq hother hi) hnext
    refine ⟨hconfigs, hposition, ?_, ?_, ?_⟩
    · rw [halone, getElem?_replaced hi]
      exact h.controller
    · rw [halone, own_append, h.trace]
      exact (congrArg (_ ++ ·) htrace).trans (List.append_nil _)
    · rw [halone]
      exact hstate

/-- In the main loop, the controller goes on as it does alone. -/
theorem Follows.mainLoop {controllers : List Controlled}
    (h : Follows plus env configs config i files turn done todo tr w)
    (hsep : configs.Pairwise Separate)
    (hrun : (exec (env.handler configs) (mainLoop plus turns done todo) w).result =
      .running controllers) :
    ∃ done' todo', done' ++ todo' = controllers ∧
      Follows plus env configs config i files (turn + turns) done' todo'
        (tr ++ (exec (env.handler configs) (mainLoop plus turns done todo) w).trace)
        (exec (env.handler configs) (mainLoop plus turns done todo) w).state := by
  induction turns generalizing turn done todo tr w with
  | zero =>
    refine ⟨done, todo, Outcome.running.inj hrun, ?_⟩
    exact (List.append_nil tr).symm ▸ h
  | succ turns ih =>
    rw [← Nat.add_assoc, Nat.add_right_comm]
    cases todo with
    | nil =>
      -- The round is over: it begins anew after a pause.
      have hexec := exec_mainLoop_pause hrun
      rw [hexec] at hrun ⊢
      obtain ⟨done', todo', heq, hfollows⟩ := ih (h.pause hsep) hrun
      exact ⟨done', todo', heq, by simpa using hfollows⟩
    | cons c todo =>
      have hexec := exec_mainLoop_call hrun
      rw [hexec] at hrun ⊢
      obtain ⟨done', todo', heq, hfollows⟩ := ih (h.call hsep) hrun
      exact ⟨done', todo', heq, by simpa using hfollows⟩

end Follows

/-! ## Isolation -/

theorem run_eq {files : Files} {controllers : List Controlled}
    (h : (exec (env.handler configs) (createControllers 0 env.config.elements)
      ⟨files, fun _ => 0, 0⟩).result = .ok controllers) :
    run plus env configs files turns =
      let r := exec (env.handler configs) (createControllers 0 env.config.elements)
        ⟨files, fun _ => 0, 0⟩
      let r' := exec (env.handler configs) (mainLoop plus turns [] controllers) r.state
      { r' with trace := ⟨.openConfig, true⟩ ::
          ⟨.log .info ("Found existing config file under: " ++ configPath), ()⟩ ::
          ⟨.readConfig, .ok env.config⟩ :: (r.trace ++ r'.trace) } := by
  simp [run, main, Environment.handler, h]

/-- After any number of turns, each controller of the daemon has come as far as it
    has alone. -/
theorem follows_run {files : Files} {controllers : List Controlled}
    (hdecoded : Decoded env.config.elements configs) (hsep : configs.Pairwise Separate)
    (hi : configs[i]? = some config)
    (hrun : (run plus env configs files turns).result = .running controllers) :
    ∃ done todo, done ++ todo = controllers ∧
      Follows plus env configs config i files turns done todo
        (run plus env configs files turns).trace (run plus env configs files turns).state := by
  have hview : Matches config i 0 ⟨files, fun _ => 0, 0⟩ (files, 0) :=
    ⟨fun _ _ => rfl, rfl, rfl⟩
  obtain ⟨⟨created, hcreated, hmap, hget⟩, htrace, hstate⟩ :=
    @exec_createControllers env configs config _ 0 _ _ _ _ _ hdecoded hi hsep
      ((Nat.zero_add i).symm ▸ hview)
  rw [Nat.zero_add] at htrace hstate hget
  rw [run_eq hcreated] at hrun ⊢
  have hstart : Follows plus env configs config i files 0 [] created
      (⟨.openConfig, true⟩ ::
        ⟨.log .info ("Found existing config file under: " ++ configPath), ()⟩ ::
        ⟨.readConfig, .ok env.config⟩ :: (exec (env.handler configs)
          (createControllers 0 env.config.elements) ⟨files, fun _ => 0, 0⟩).trace) _ :=
    ⟨hmap, rfl, hget, htrace, hstate⟩
  obtain ⟨done, todo, heq, hfollows⟩ := hstart.mainLoop hsep hrun
  rw [Nat.zero_add] at hfollows
  exact ⟨done, todo, heq, hfollows⟩

/-- Alone, a controller makes a run. -/
theorem alone_isRun {count : Nat} {files : Files} : ∃ tr₀ trs,
    IsRun plus config tr₀ trs (alone plus env count i config files turn).result ∧
      (alone plus env count i config files turn).trace = tr₀ ++ trs.reverse.flatten := by
  induction turn with
  | zero => exact ⟨_, [], .construct (exec_runs _ _ _), (List.append_nil _).symm⟩
  | succ turn ih =>
    obtain ⟨tr₀, trs, hrun, htrace⟩ := ih
    by_cases h : position count turn = i
    · rw [alone_own h]
      exact ⟨tr₀, _ :: trs, .call hrun (exec_runs _ _ _), by simp [htrace]⟩
    · rw [alone_other h]
      exact ⟨tr₀, trs, hrun, htrace⟩

/-- So each controller of the daemon makes a run of its own, and what holds in every
    run of a controller holds for each of them. -/
theorem isRun_of_running {files : Files} {controllers : List Controlled}
    (hdecoded : Decoded env.config.elements configs) (hsep : configs.Pairwise Separate)
    (hi : configs[i]? = some config)
    (hrun : (run plus env configs files turns).result = .running controllers) :
    ∃ s tr₀ trs, controllers[i]? = some (config, s) ∧ IsRun plus config tr₀ trs s ∧
      own i (run plus env configs files turns).trace = tr₀ ++ trs.reverse.flatten := by
  obtain ⟨_, _, rfl, h⟩ := follows_run hdecoded hsep hi hrun
  obtain ⟨tr₀, trs, hisRun, htrace⟩ := alone_isRun
  exact ⟨_, tr₀, trs, h.controller, hisRun, h.trace.trans htrace⟩

/-- Alone, a controller only performs permitted operations. -/
theorem alone_permitted {count : Nat} {files : Files} :
    ∀ e ∈ (alone plus env count i config files turn).trace, Permitted config e.op := by
  induction turn with
  | zero => exact (exec_runs _ _ _).only only_construct
  | succ turn ih =>
    by_cases h : position count turn = i
    · rw [alone_own h]
      exact List.forall_mem_append.2 ⟨ih, (exec_runs _ _ _).only only_doWork⟩
    · rw [alone_other h]
      exact ih

/-- The controllers of the daemon do not interfere. After any number of turns, each
    controller is in the state it would be in alone, has performed the same
    operations, with the same answers, and has left the same status files. And none
    creates or removes a file that is looked for, created or removed by another one. -/
theorem isolated (plus : Int → Int → Int) (env : Environment) (files : Files) (turns : Nat)
    {configs : List ServerMachineConfig} {controllers : List Controlled}
    (hdecoded : env.config.elements.mapM ServerMachineConfig.fromJson = .ok configs)
    (hdirs : (configs.map ServerMachineConfig.controlDir).Nodup)
    (hrun : (run plus env configs files turns).result = .running controllers) :
    let r := run plus env configs files turns
    (∀ i config, configs[i]? = some config →
      let solo := alone plus env configs.length i config files turns
      controllers[i]? = some (config, solo.result) ∧ own i r.trace = solo.trace ∧
        status config r.state.files = status config solo.state.1) ∧
    ∀ i j config other, configs[i]? = some config → configs[j]? = some other → j ≠ i →
      (∀ e ∈ own i r.trace, ∀ path ∈ path? e.op, path ∈ paths config) ∧
      ∀ e ∈ own j r.trace, ∀ path ∈ writes? e.op, path ∉ paths config := by
  have hsep := separate_of_decoded hdecoded hdirs
  have hown i config (hi : configs[i]? = some config) :
      ∀ e ∈ own i (run plus env configs files turns).trace, Permitted config e.op := by
    obtain ⟨_, _, -, h⟩ := follows_run (forall₂_of_mapM hdecoded) hsep hi hrun
    rw [h.trace]
    exact alone_permitted
  refine ⟨?_, ?_⟩
  · intro i config hi
    obtain ⟨done, todo, rfl, h⟩ := follows_run (forall₂_of_mapM hdecoded) hsep hi hrun
    refine ⟨h.controller, h.trace, ?_⟩
    ext state
    exact h.view.files _ (statusPath_mem state)
  · intro i j config other hi hj hne
    refine ⟨fun e he => (hown i config hi e he).own, ?_⟩
    intro e he path hw hpath
    exact (hown j other hj e he).not_written (separate_of_getElem? hsep hi hj hne) hpath hw

/-- Two servers: the first one does not answer, and a user wants it; the second one
    answers, and nobody needs it. -/
def twoServers : Environment where
  config := .array [testConfig.toJson, { testConfig with controlDir := "/dir/other" }.toJson]
  answers
    | _, n, .now => 5000000000 * n
    | i, _, .pingHost ip => if i = 1 ∧ ip = "ServerIp" then .kHostActive else .kHostInactive
    | _, _, .log _ _ => ()
    | _, _, .stopExecution => false
    | _, _, .checkFileExists _ => false
    | _, _, .createEmptyFile _ => true
    | _, _, .removeFile _ => true
    | _, _, .createDirectory _ => true
    | _, _, .sendMagicPacket _ => true
    | _, _, .sendShutdownCommand _ _ => true
  stop _ := false
  changes turn i on := if turn = 0 ∧ i = 0 ∧ on then some true else none

/-- The first server is woken, and the second one is shown to be running: what the
    controllers do alone. -/
theorem isolated_twoServers :
    let first := { testConfig with controlDir := "/dir/server//" }
    let second := { testConfig with controlDir := "/dir/other/" }
    let r := run exactPlus twoServers [first, second] (fun _ => false) 2
    own 0 r.trace = (alone exactPlus twoServers 2 0 first (fun _ => false) 2).trace ∧
      commands (own 0 r.trace) = [.wol "MAC"] ∧
      own 1 r.trace = (alone exactPlus twoServers 2 1 second (fun _ => false) 2).trace ∧
      status second r.state.files = just true := by
  intro first second r
  have hdecoded : twoServers.config.elements.mapM ServerMachineConfig.fromJson =
      .ok [first, second] := by decide
  have hrun : r.result = .running [(first, ⟨false, 40000000000, 40000000000⟩),
      (second, ⟨true, 40000000000, 35000000000⟩)] := by decide +zetaReduce
  obtain ⟨halone, -⟩ := isolated exactPlus twoServers (fun _ => false) 2 hdecoded (by decide) hrun
  have hon : status second r.state.files true = true ∧
      status second r.state.files false = false := by
    decide +zetaReduce
  refine ⟨(halone 0 first rfl).2.1, by decide +zetaReduce, (halone 1 second rfl).2.1, funext ?_⟩
  rintro (_ | _)
  · exact hon.2
  · exact hon.1

end Hostcontrold
