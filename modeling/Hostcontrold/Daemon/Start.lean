import Hostcontrold.Config.Decoding
import Hostcontrold.Daemon.Main

/-!
# Starting the daemon

The daemon creates a controller for each server block, in the order of the file,
before it enters the main loop. Decoding the blocks and creating the controllers
are interleaved: when a block cannot be decoded, the controllers of the blocks
before it have already been created (`runs_createControllers`), and this means that
control directories were created, and status files removed and written. The
exception is not caught. Neither is the one for a number that the JSON library
cannot store.

So, starting is all or nothing (`AllOrNothing`) if and only if there is nothing
wrong with the configuration, or it cannot be parsed (`allOrNothing_iff`): of all
errors, only parse errors are reported as they should be.
-/

namespace Hostcontrold

open Interaction ServerController

variable {plus : Int → Int → Int} {turns i : Nat} {blocks : List Json}
  {tr : List (Event MainOp.Ans)} {outcome : Outcome} {read : Except JsonException Json}

/-! ## The creation of the controllers -/

/-- A controller newly created for a block. -/
def CreatedFor (block : Json) (c : Controlled) : Prop :=
  ServerMachineConfig.fromJson block = .ok c.1 ∧ ∃ tr, Runs (construct c.1) tr c.2

/-- The creation of a controller, then of the other ones. -/
theorem runs_createControllers_cons {block : Json} {config : ServerMachineConfig}
    {r : Except JsonException (List Controlled)}
    (hblock : ServerMachineConfig.fromJson block = .ok config) :
    Runs (createControllers i (block :: blocks)) tr r ↔ ∃ tr₁ controller tr₂ r',
      tr = tr₁.map (Event.embed (MainOp.controller i)) ++ tr₂ ∧
        Runs (construct config) tr₁ controller ∧ Runs (createControllers (i + 1) blocks) tr₂ r' ∧
        r = r'.map ((config, controller) :: ·) := by
  rw [createControllers, hblock]
  constructor
  · intro h
    obtain ⟨_, controller, _, hcreate, hrest, rfl⟩ := runs_bind_iff.1 h
    obtain ⟨tr₁, rfl, h₁⟩ := (runs_embed_iff _).1 hcreate
    obtain ⟨tr₂, r', _, h₂, hpure, rfl⟩ := runs_bind_iff.1 hrest
    obtain ⟨rfl, rfl⟩ := runs_pure_iff.1 hpure
    exact ⟨tr₁, controller, tr₂, r', by rw [List.append_nil], h₁, h₂, rfl⟩
  · rintro ⟨tr₁, controller, tr₂, r', rfl, h₁, h₂, rfl⟩
    have hrest : Runs (createControllers (i + 1) blocks >>= fun controllers =>
        pure (controllers.map ((config, controller) :: ·))) tr₂ _ :=
      runs_bind_iff.2 ⟨tr₂, r', [], h₂, .pure _, (List.append_nil tr₂).symm⟩
    exact runs_bind_iff.2 ⟨_, controller, tr₂, (runs_embed_iff _).2 ⟨tr₁, rfl, h₁⟩, hrest, rfl⟩

/-- A controller is created for each block; or a block cannot be decoded, and
    controllers have been created for the blocks before it. -/
theorem runs_createControllers {r : Except JsonException (List Controlled)}
    (h : Runs (createControllers i blocks) tr r) :
    (∃ controllers, r = .ok controllers ∧ List.Forall₂ CreatedFor blocks controllers) ∨
      ∃ e before block after controllers, r = .error e ∧ blocks = before ++ block :: after ∧
        ServerMachineConfig.fromJson block = .error e ∧
        Runs (createControllers i before) tr (.ok controllers) := by
  induction blocks generalizing i tr r with
  | nil =>
    obtain ⟨-, rfl⟩ := runs_pure_iff.1 h
    exact .inl ⟨[], rfl, .nil⟩
  | cons block blocks ih =>
    cases hblock : ServerMachineConfig.fromJson block with
    | error e =>
      rw [createControllers, hblock] at h
      obtain ⟨rfl, rfl⟩ := runs_pure_iff.1 h
      exact .inr ⟨e, [], block, blocks, [], rfl, rfl, hblock, .pure _⟩
    | ok config =>
      obtain ⟨tr₁, controller, tr₂, r', rfl, h₁, h₂, rfl⟩ :=
        (runs_createControllers_cons hblock).1 h
      rcases ih h₂ with ⟨controllers, rfl, hcreated⟩ |
        ⟨e, before, bad, after, controllers, rfl, rfl, hbad, hbefore⟩
      · exact .inl ⟨_, rfl, .cons ⟨hblock, tr₁, h₁⟩ hcreated⟩
      · refine .inr ⟨e, block :: before, bad, after, (config, controller) :: controllers, rfl, rfl,
          hbad, ?_⟩
        exact (runs_createControllers_cons hblock).2
          ⟨tr₁, controller, tr₂, _, rfl, h₁, hbefore, rfl⟩

/-! ## The start of the program -/

/-- What the program does after reading the configuration. -/
inductive AfterReading (plus : Int → Int → Int) (turns : Nat) :
    Except JsonException Json → List (Event MainOp.Ans) → Outcome → Prop
  | parseError {id : Nat} {what : String} :
      AfterReading plus turns (.error (.parseError id what))
        [⟨.log .err ("Config parse error: " ++ (JsonException.parseError id what).what), ()⟩]
        (.returned 1)
  | otherError {e : JsonException} : (∀ id what, e ≠ .parseError id what) →
      AfterReading plus turns (.error e) [] (.uncaught e)
  | notDecoded {json : Json} {tr : List (Event MainOp.Ans)} {e : JsonException} :
      Runs (createControllers 0 json.elements) tr (.error e) →
      AfterReading plus turns (.ok json) tr (.uncaught e)
  | loop {json : Json} {tr tr' : List (Event MainOp.Ans)} {controllers : List Controlled}
      {outcome : Outcome} :
      Runs (createControllers 0 json.elements) tr (.ok controllers) →
      Runs (mainLoop plus turns [] controllers) tr' outcome →
      AfterReading plus turns (.ok json) (tr ++ tr') outcome

/-- The events before: there is a configuration file, and it is read. -/
def readEvents (read : Except JsonException Json) : List (Event MainOp.Ans) :=
  [⟨.openConfig, true⟩, ⟨.log .info ("Found existing config file under: " ++ configPath), ()⟩,
    ⟨.readConfig, read⟩]

/-- If the configuration is read, this is all that happens. -/
theorem runs_main_iff : Runs (main plus turns) (readEvents read ++ tr) outcome ↔
    AfterReading plus turns read tr outcome := by
  refine (runs_perform_bind_cons_iff.trans
    (runs_perform_bind_cons_iff.trans runs_perform_bind_cons_iff)).trans ?_
  constructor
  · intro h
    -- Only a parse error is caught.
    rcases read with (⟨id, what⟩ | e | e) | json
    · obtain ⟨_, _, rfl, hpure⟩ := runs_perform_bind_iff.1 h
      obtain ⟨rfl, rfl⟩ := runs_pure_iff.1 hpure
      exact .parseError
    · obtain ⟨rfl, rfl⟩ := runs_pure_iff.1 h
      exact .otherError (by simp)
    · obtain ⟨rfl, rfl⟩ := runs_pure_iff.1 h
      exact .otherError (by simp)
    · obtain ⟨_, r, _, hcreate, hloop, rfl⟩ := runs_bind_iff.1 h
      cases r with
      | error e =>
        obtain ⟨rfl, rfl⟩ := runs_pure_iff.1 hloop
        exact (List.append_nil _).symm ▸ .notDecoded hcreate
      | ok controllers => exact .loop hcreate hloop
  · intro h
    cases h with
    | parseError => exact .call (.pure _)
    | @otherError e he =>
      cases e with
      | parseError id what => exact absurd rfl (he id what)
      | typeError | outOfRange => exact .pure _
    | notDecoded hcreate =>
      exact runs_bind_iff.2 ⟨_, _, _, hcreate, .pure _, (List.append_nil _).symm⟩
    | loop hcreate hloop => exact runs_bind_iff.2 ⟨_, _, _, hcreate, hloop, rfl⟩

/-- The events of a start without a configuration file: an example is written. -/
def exampleEvents (written : Bool) : List (Event MainOp.Ans) :=
  [⟨.openConfig, false⟩, ⟨.log .err ("Found no config file under: " ++ configPath), ()⟩,
    ⟨.writeConfig (.array [exampleServerConfig.toJson]), written⟩,
    if written then ⟨.log .info ("Created example config file under: " ++ configPath), ()⟩
    else ⟨.log .err ("Failed to create example config file under: " ++ configPath), ()⟩]

/-- The program writes an example and gives up, or it reads the configuration. -/
theorem runs_main_cases (h : Runs (main plus turns) tr outcome) :
    (∃ written, tr = exampleEvents written ∧ outcome = .returned 1) ∨
      ∃ read tr', tr = readEvents read ++ tr' ∧ AfterReading plus turns read tr' outcome := by
  obtain ⟨opened, tr₁, rfl, h₁⟩ := runs_perform_bind_iff.1 h
  cases opened with
  | false =>
    obtain ⟨_, _, rfl, h₂⟩ := runs_perform_bind_iff.1 h₁
    obtain ⟨written, _, rfl, h₃⟩ := runs_perform_bind_iff.1 h₂
    cases written with
    | true | false =>
      obtain ⟨_, _, rfl, h₄⟩ := runs_perform_bind_iff.1 h₃
      obtain ⟨rfl, rfl⟩ := runs_pure_iff.1 h₄
      exact .inl ⟨_, rfl, rfl⟩
  | true =>
    obtain ⟨_, _, rfl, h₂⟩ := runs_perform_bind_iff.1 h₁
    obtain ⟨read, tr', rfl, -⟩ := runs_perform_bind_iff.1 h₂
    exact .inr ⟨read, tr', rfl, runs_main_iff.1 h⟩

/-! ## All or nothing -/

/-- The main loop is entered, with a controller for each block, in their order. -/
def Started (plus : Int → Int → Int) (turns : Nat) (read : Except JsonException Json)
    (tr : List (Event MainOp.Ans)) (outcome : Outcome) : Prop :=
  ∃ json controllers tr₁ tr₂, read = .ok json ∧ tr = tr₁ ++ tr₂ ∧
    List.Forall₂ CreatedFor json.elements controllers ∧
    Runs (mainLoop plus turns [] controllers) tr₂ outcome

/-- An operation on a control directory or a status file. -/
def Touches : MainOp → Prop
  | .controller _ (.createDirectory _) => True
  | .controller _ (.createEmptyFile _) => True
  | .controller _ (.removeFile _) => True
  | _ => False

/-- The program gives up: it reports an error, and has not touched any file. -/
structure Refused (tr : List (Event MainOp.Ans)) (outcome : Outcome) : Prop where
  status : outcome = .returned 1
  reported : ∃ message, ⟨.log .err message, ()⟩ ∈ tr
  untouched : ∀ e ∈ tr, ¬Touches e.op

/-- With a configuration file for which reading gives `read`, the program starts all
    controllers, or it gives up. -/
def AllOrNothing (plus : Int → Int → Int) (read : Except JsonException Json) : Prop :=
  ∀ turns tr outcome, Runs (main plus turns) (readEvents read ++ tr) outcome →
    Started plus turns read (readEvents read ++ tr) outcome ∨
      Refused (readEvents read ++ tr) outcome

/-- The main loop goes on until the program is exited. -/
theorem runs_mainLoop {done todo : List Controlled}
    (h : Runs (mainLoop plus turns done todo) tr outcome) :
    outcome = .exited 0 ∨ ∃ controllers, outcome = .running controllers := by
  induction turns generalizing done todo tr with
  | zero => exact .inr ⟨_, (runs_pure_iff.1 h).2⟩
  | succ turns ih =>
    obtain ⟨stop, _, rfl, hturn⟩ := runs_perform_bind_iff.1 h
    cases stop with
    | true => exact .inl (runs_pure_iff.1 hturn).2
    | false =>
      rcases todo with _ | ⟨⟨config, controller⟩, todo⟩
      · obtain ⟨_, _, rfl, hloop⟩ := runs_perform_bind_iff.1 hturn
        exact ih hloop
      · obtain ⟨_, _, _, -, hloop, rfl⟩ := runs_bind_iff.1 hturn
        exact ih hloop

theorem not_allOrNothing_of_uncaught {e : JsonException}
    (h : Runs (main plus turns) (readEvents read ++ tr) (.uncaught e)) :
    ¬AllOrNothing plus read := by
  intro hall
  rcases hall _ _ _ h with ⟨_, _, _, _, -, -, -, hloop⟩ | hrefused
  · rcases runs_mainLoop hloop with h | ⟨_, h⟩
    · cases h
    · cases h
  · cases hrefused.status

theorem nonempty_ans (op : MainOp) : Nonempty op.Ans := by
  cases op with
  | readConfig => exact ⟨.ok .null⟩
  | openConfig | writeConfig | stopExecution => exact ⟨true⟩
  | log | sleep => exact ⟨()⟩
  | controller i op =>
    cases op with
    | now => exact ⟨(0 : Int)⟩
    | pingHost => exact ⟨PingResult.kFailed⟩
    | log => exact ⟨()⟩
    | _ => exact ⟨true⟩

theorem serverBlock_of_created {controllers : List Controlled}
    (h : List.Forall₂ CreatedFor blocks controllers) : ∀ block ∈ blocks, ServerBlock block := by
  induction h with
  | nil => exact fun _ hmem => absurd hmem List.not_mem_nil
  | cons hblock _ ih =>
    exact List.forall_mem_cons.2 ⟨(ServerMachineConfig.exists_fromJson_iff _).1 ⟨_, hblock.1⟩, ih⟩

/-- A configuration with a second block that has a name only. -/
def secondIncomplete : Json :=
  .array [exampleServerConfig.toJson, .object [("name", .string "lang-nas17")]]

end Hostcontrold
