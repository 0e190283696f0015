import Hostcontrold.Daemon.SaveLoad
import Hostcontrold.Json.RoundTrip
import Hostcontrold.System.Operations

/-!
# The configuration file

The file holds a text. What the daemon controls is decided by the value that the text begins
with (`main_reads`): if there is one, the program goes on with it, whatever follows. If there is
none, the program gives up, or it is ended by an exception that is not caught, the one for a
number that is too large.

A list of servers that is saved as a text is loaded from it with one more `/` at each control
directory, as from the document itself (`load_text`): the order of the members and the types of
the numbers change, but the decoder does not notice (`Transparent`). As the daemon writes no file
that exists, it controls the same servers at every start, however often it is started
(`restarts`).
-/

namespace Hostcontrold

open Interaction Json

variable {f g : Json → Json} {json v : Json} {strtod : List UInt8 → Option ℚ}
  {snprintf : ℚ → List UInt8} {configs : List ServerMachineConfig} {text : List UInt8}

/-! ## The decoder -/

namespace Json

/-- A change of values that the decoder does not notice. -/
structure Transparent (f : Json → Json) : Prop where
  member (key : String) (v : Json) : (f v).atKey key = (v.atKey key).map f
  string (v : Json) : (f v).getString = v.getString
  integer (v : Json) : (f v).getInt64 = v.getInt64
  vector {T : Type} (get : Json → Except JsonException T) (v : Json) :
    (f v).getVector get = v.getVector (get ∘ f)

theorem Transparent.field {T : Type} {get : Json → Except JsonException T} {key : String}
    (hf : Transparent f) (hget : get ∘ f = get) :
    ((f json).atKey key >>= get) = (json.atKey key >>= get) := by
  rw [hf.member]
  cases json.atKey key with
  | error e => rfl
  | ok v => exact congrFun hget v

theorem Transparent.client (hf : Transparent f) :
    ClientMachineConfig.fromJson ∘ f = ClientMachineConfig.fromJson := by
  have hstring : getString ∘ f = getString := funext hf.string
  funext json
  rw [Function.comp_apply, ClientMachineConfig.fromJson, hf.field hstring, hf.field hstring]
  rfl

theorem Transparent.server (hf : Transparent f) :
    ServerMachineConfig.fromJson ∘ f = ServerMachineConfig.fromJson := by
  have hstring : getString ∘ f = getString := funext hf.string
  have hint : getInt64 ∘ f = getInt64 := funext hf.integer
  have hclients : getVector ClientMachineConfig.fromJson ∘ f =
      getVector ClientMachineConfig.fromJson := by
    funext v
    rw [Function.comp_apply, hf.vector, hf.client]
  funext json
  rw [Function.comp_apply, ServerMachineConfig.fromJson]
  simp only [hf.field hstring, hf.field hint, hf.field hclients]
  rfl

theorem atKey_object {key : String} {ms ms' : List (String × Json)}
    (h : ms'.lookup key = (ms.lookup key).map f) :
    (object ms').atKey key = ((object ms).atKey key).map f := by
  rw [atKey, atKey, h]
  cases ms.lookup key <;> rfl

/-- The decoder looks members up, so that their order does not matter. -/
theorem transparent_stored : Transparent stored where
  member key v := by
    cases v with
    | object members =>
      rw [stored, bottomUp_object]
      exact atKey_object (((kept_emplaceAll _).lookup key).trans (lookup_mapValues key))
    | array elements => rw [stored, bottomUp_array]; rfl
    | _ => rfl
  string v := by
    cases v with
    | object members => rw [stored, bottomUp_object]; rfl
    | array elements => rw [stored, bottomUp_array]; rfl
    | _ => rfl
  integer v := by
    cases v with
    | object members => rw [stored, bottomUp_object]; rfl
    | array elements => rw [stored, bottomUp_array]; rfl
    | _ => rfl
  vector get v := by
    cases v with
    | object members => rw [stored, bottomUp_object]; rfl
    | array elements => rw [stored, bottomUp_array]; exact List.mapM_map
    | _ => rfl

theorem reread_integer (i : Int64) : reread (.numberInteger i) =
    if 0 ≤ i.toInt then .numberUnsigned (.ofNat i.toInt.toNat) else .numberInteger i := rfl

theorem toInt_toInt64 {i : Int64} (h : 0 ≤ i.toInt) :
    (UInt64.ofNat i.toInt.toNat).toInt64.toInt = i.toInt := by
  have hlow := i.le_toInt
  have hhigh := i.toInt_lt
  refine (BitVec.toInt_ofNat' _).trans ?_
  rw [Int.bmod_eq_of_le (by omega) (by omega), Int.toNat_of_nonneg h]

/-- The decoder casts all numbers to the same type. -/
theorem transparent_reread : Transparent reread where
  member key v := by
    cases v with
    | object members =>
      rw [reread_object]
      exact atKey_object (lookup_mapValues key)
    | array elements => rw [reread_array]; rfl
    | numberInteger i => rw [reread_integer]; split_ifs <;> rfl
    | _ => rfl
  string v := by
    cases v with
    | object members => rw [reread_object]; rfl
    | array elements => rw [reread_array]; rfl
    | numberInteger i => rw [reread_integer]; split_ifs <;> rfl
    | _ => rfl
  integer v := by
    cases v with
    | object members => rw [reread_object]; rfl
    | array elements => rw [reread_array]; rfl
    | numberInteger i =>
      rw [reread_integer]
      split_ifs with h
      · exact congrArg Except.ok (toInt_toInt64 h)
      · rfl
    | _ => rfl
  vector get v := by
    cases v with
    | object members => rw [reread_object]; rfl
    | array elements => rw [reread_array]; exact List.mapM_map
    | numberInteger i => rw [reread_integer]; split_ifs <;> rfl
    | _ => rfl

end Json

/-! ## Saving as a text -/

/-- Loading a document that has been changed so. -/
theorem load_array (hf : Transparent f) (es : List Json) :
    load (.array (es.map f)) = load (.array es) :=
  List.mapM_map.trans (congrArg (fun get => es.mapM get) hf.server)

/-- No number in a saved document is a floating-point one. -/
theorem portable_save (configs : List ServerMachineConfig) :
    Everywhere (Portable strtod snprintf) (save configs) := by
  have hstring (s : String) : Everywhere (Portable strtod snprintf) (.string s) :=
    .intro trivial fun _ hw => absurd hw List.not_mem_nil
  have hinteger (i : Int64) : Everywhere (Portable strtod snprintf) (.numberInteger i) :=
    .intro trivial fun _ hw => absurd hw List.not_mem_nil
  have hclient (client : ClientMachineConfig) :
      Everywhere (Portable strtod snprintf) client.toJson := by
    refine .intro trivial ?_
    simp [ClientMachineConfig.toJson, Json.parts, hstring]
  have hserver (config : ServerMachineConfig) :
      Everywhere (Portable strtod snprintf) config.toJson := by
    have hclients : Everywhere (Portable strtod snprintf)
        (.array (config.clients.map ClientMachineConfig.toJson)) :=
      .intro trivial (List.forall_mem_map.2 fun client _ => hclient client)
    refine .intro trivial ?_
    simp [ServerMachineConfig.toJson, Json.parts, hstring, hinteger, hclients]
  exact .intro trivial (List.forall_mem_map.2 fun config _ => hserver config)

/-- What has been saved as a text is loaded from it with one more `/` at each control
    directory. -/
theorem load_text (hconfigs : ∀ config ∈ configs, Producible config) (step : Nat) :
    ∃ text v, dump snprintf step (stored (save configs)) = .ok text ∧
      parse strtod text = .ok v ∧
      load v = .ok (configs.map (ServerMachineConfig.withSlashes 1)) := by
  have hstored : Everywhere (fun w => InOrder w ∧ Portable strtod snprintf w)
      (stored (save configs)) :=
    everywhere_stored (fun _ => trivial) (fun _ => trivial) (portable_save configs)
  obtain ⟨text, hdump, hparse, -⟩ := parse_dump hstored step
  refine ⟨text, _, hdump, hparse, ?_⟩
  rw [save, stored, bottomUp_array]
  change load (reread (.array _)) = _
  rw [reread_array, load_array transparent_reread, load_array transparent_stored]
  exact load_save hconfigs

/-! ## Starting with a file -/

/-- What reading the text can give. The messages are left open, as they may contain bytes of the
    text that are no UTF-8. -/
def ReadAs (strtod : List UInt8 → Option ℚ) (text : List UInt8)
    (read : Except JsonException Json) : Prop :=
  match parse strtod text with
  | .ok v => read = .ok v
  | .error (.parseError id _ _) => ∃ what, read = .error (.parseError id what)
  | .error (.outOfRange id _) => ∃ what, read = .error (.outOfRange id what)
  | .error .outOfFuel => False

/-- The configuration file, with its text if there is one. What a failed attempt to write it
    leaves is open. -/
def configWorld (strtod : List UInt8 → Option ℚ) (snprintf : ℚ → List UInt8) :
    World MainOp.Ans (Option (List UInt8))
  | file, ⟨.openConfig, opened⟩, file' => opened = file.isSome ∧ file' = file
  | file, ⟨.readConfig, read⟩, file' => (∃ text, file = some text ∧ ReadAs strtod text read) ∧
      file' = file
  | _, ⟨.writeConfig config, written⟩, file' => written = true →
      ∃ text, dump snprintf 2 (stored config) = .ok text ∧ file' = some text
  | file, _, file' => file' = file

variable {plus : Int → Int → Int} {turns : Nat} {tr : List (Event MainOp.Ans)} {outcome : Outcome}
  {file file' : Option (List UInt8)}

/-- Once the configuration is read, the file is left alone. -/
theorem AfterReading.file_eq {read : Except JsonException Json}
    (h : AfterReading plus turns read tr outcome)
    (hfile : Evolves (configWorld strtod snprintf) file tr file') : file' = file := by
  refine hfile.preserves (I := (· = file)) (fun e he w w' hw hstep => ?_) rfl
  have howned := h.owned e he
  rcases e with ⟨op, x⟩
  cases op with
  | openConfig | readConfig | writeConfig => exact howned.elim
  | _ => exact Eq.trans hstep hw

/-- What the text begins with is what is read, or there is nothing to read. -/
theorem readAs_iff {read : Except JsonException Json} (h : ReadAs strtod text read) :
    (∃ v, read = .ok v ∧ BeginsWith strtod (skipByteOrderMark text) v) ∨
      (∀ v, ¬BeginsWith strtod (skipByteOrderMark text) v) ∧
        ((∃ what, read = .error (.parseError 101 what)) ∨
          ∃ what, read = .error (.outOfRange 406 what)) := by
  rw [ReadAs] at h
  cases hparse : parse strtod text with
  | ok v =>
    rw [hparse] at h
    exact .inl ⟨v, h, parse_eq_ok_iff.1 hparse⟩
  | error e =>
    rw [hparse] at h
    have hthrown := isThrown_parse hparse
    have hnone : ∀ v, ¬BeginsWith strtod (skipByteOrderMark text) v := by
      intro v hv
      have hok := parse_eq_ok_iff.2 hv
      rw [hparse] at hok
      cases hok
    refine .inr ⟨hnone, ?_⟩
    cases e with
    | parseError id byte what =>
      obtain ⟨what', rfl⟩ := h
      obtain rfl : id = 101 := hthrown
      exact .inl ⟨what', rfl⟩
    | outOfRange id what =>
      obtain ⟨what', rfl⟩ := h
      obtain rfl : id = 406 := hthrown
      exact .inr ⟨what', rfl⟩
    | outOfFuel => exact hthrown.elim

/-- With a file, the program goes on with the value that its text begins with. Without one, it
    gives up, or a number is too large. The file stays as it is. -/
theorem main_reads (h : Runs (main plus turns) tr outcome)
    (hfile : Evolves (configWorld strtod snprintf) (some text) tr file) :
    file = some text ∧
      ((∃ v tr', BeginsWith strtod (skipByteOrderMark text) v ∧
          tr = readEvents (.ok v) ++ tr' ∧ AfterReading plus turns (.ok v) tr' outcome) ∨
        (∀ v, ¬BeginsWith strtod (skipByteOrderMark text) v) ∧
          (outcome = .returned 1 ∨ ∃ what, outcome = .uncaught (.outOfRange 406 what))) := by
  rcases runs_main_cases h with ⟨written, rfl, -⟩ | ⟨read, tr', rfl, hafter⟩
  · obtain ⟨_, ⟨hopened, -⟩, -⟩ := evolves_cons_iff.1 hfile
    cases hopened
  · obtain ⟨file₁, hread, hfile⟩ := evolves_append_iff.1 hfile
    obtain ⟨file₂, ⟨-, rfl⟩, hread⟩ := evolves_cons_iff.1 hread
    obtain ⟨file₃, hlog, hread⟩ := evolves_cons_iff.1 hread
    obtain ⟨file₄, ⟨⟨text', htext, hread⟩, rfl⟩, hend⟩ := evolves_cons_iff.1 hread
    obtain rfl := evolves_nil_iff.1 hend
    obtain rfl : file₁ = some text := hlog
    obtain rfl := Option.some.inj htext
    refine ⟨hafter.file_eq hfile, ?_⟩
    rcases readAs_iff hread with ⟨v, rfl, hv⟩ | ⟨hnone, ⟨what, rfl⟩ | ⟨what, rfl⟩⟩
    · exact .inl ⟨v, tr', hv, rfl, hafter⟩
    · cases hafter with
      | parseError => exact .inr ⟨hnone, .inl rfl⟩
      | otherError hne => exact absurd rfl (hne _ _)
    · cases hafter with
      | otherError => exact .inr ⟨hnone, .inr ⟨what, rfl⟩⟩

/-- Events that leave the file alone. -/
theorem evolves_of_owned (h : ∀ e ∈ tr, MainOwned configs e.op) :
    Evolves (configWorld strtod snprintf) file tr file := by
  induction tr with
  | nil => exact .nil _
  | cons e tr ih =>
    obtain ⟨howned, htr⟩ := List.forall_mem_cons.1 h
    refine .cons ?_ (ih htr)
    rcases e with ⟨op, x⟩
    cases op with
    | openConfig | readConfig | writeConfig => exact howned.elim
    | _ => exact rfl

/-- With a text that can be parsed, the program can start. -/
theorem exists_start (hparse : parse strtod text = .ok v) :
    ∃ tr outcome, Runs (main plus 0) (readEvents (.ok v) ++ tr) outcome ∧
      Evolves (configWorld strtod snprintf) (some text) (readEvents (.ok v) ++ tr) (some text) := by
  obtain ⟨tr, r, hcreate⟩ := exists_runs nonempty_ans (createControllers 0 v.elements)
  have hread : ReadAs strtod text (.ok v) := by
    rw [ReadAs, hparse]
  have hstart : Evolves (configWorld strtod snprintf) (some text) (readEvents (.ok v))
      (some text) :=
    .cons ⟨rfl, rfl⟩ (.cons rfl (.cons ⟨⟨text, rfl, hread⟩, rfl⟩ (.nil _)))
  have hafter : ∃ outcome, AfterReading plus 0 (.ok v) tr outcome := by
    cases r with
    | error e => exact ⟨_, .notDecoded hcreate⟩
    | ok controllers =>
      have hloop : AfterReading plus 0 (.ok v) (tr ++ []) (.running ([] ++ controllers)) :=
        .loop hcreate (.pure _)
      exact ⟨_, List.append_nil tr ▸ hloop⟩
  obtain ⟨outcome, hafter⟩ := hafter
  exact ⟨tr, outcome, runs_main_iff.2 hafter,
    evolves_append_iff.2 ⟨_, hstart, evolves_of_owned hafter.owned⟩⟩

/-! ## Starting again -/

/-- The main loop keeps the servers. -/
theorem configs_mainLoop {done todo controllers : List Controlled}
    (h : Runs (mainLoop plus turns done todo) tr (.running controllers)) :
    controllers.map Prod.fst = (done ++ todo).map Prod.fst := by
  induction turns generalizing done todo tr with
  | zero =>
    obtain ⟨-, he⟩ := runs_pure_iff.1 h
    exact Outcome.running.inj he ▸ rfl
  | succ turns ih =>
    obtain ⟨stop, _, rfl, hturn⟩ := runs_perform_bind_iff.1 h
    cases stop with
    | true =>
      obtain ⟨-, he⟩ := runs_pure_iff.1 hturn
      cases he
    | false =>
      rcases todo with _ | ⟨⟨config, controller⟩, todo⟩
      · obtain ⟨_, _, rfl, hloop⟩ := runs_perform_bind_iff.1 hturn
        rw [ih hloop, List.nil_append, List.append_nil]
      · obtain ⟨_, controller', _, -, hloop, rfl⟩ := runs_bind_iff.1 hturn
        rw [ih hloop]
        simp

/-- The program is exited, or it controls these servers. -/
def Controls (configs : List ServerMachineConfig) (outcome : Outcome) : Prop :=
  outcome = .exited 0 ∨
    ∃ controllers, outcome = .running controllers ∧ controllers.map Prod.fst = configs

/-- If the servers can be loaded, they are what is controlled. -/
theorem AfterReading.controls (h : AfterReading plus turns (.ok v) tr outcome)
    (hload : load v = .ok configs) : Controls configs outcome := by
  cases h with
  | notDecoded hcreate =>
    rcases runs_createControllers hcreate with
      ⟨_, he, -⟩ | ⟨e, before, block, after, _, -, hsplit, hblock, -⟩
    · cases he
    · obtain ⟨config, hconfig⟩ := exists_mapM_iff.1 ⟨configs, hload⟩ block
        (hsplit ▸ List.mem_append_cons_self)
      rw [hblock] at hconfig
      cases hconfig
  | loop hcreate hloop =>
    have hconfigs := Except.ok.inj ((load_of_runs hcreate).symm.trans hload)
    rcases runs_mainLoop hloop with hexited | ⟨controllers, rfl⟩
    · exact .inl hexited
    · exact .inr ⟨controllers, rfl, (configs_mainLoop hloop).trans hconfigs⟩

/-- The daemon is started again and again. Each time, it runs for some turns at most. -/
inductive Starts (plus : Int → Int → Int) (strtod : List UInt8 → Option ℚ)
    (snprintf : ℚ → List UInt8) :
    Option (List UInt8) → List Outcome → Option (List UInt8) → Prop
  | nil (file : Option (List UInt8)) : Starts plus strtod snprintf file [] file
  | cons {file file' file'' : Option (List UInt8)} {turns : Nat} {tr : List (Event MainOp.Ans)}
      {outcome : Outcome} {outcomes : List Outcome} : Runs (main plus turns) tr outcome →
      Evolves (configWorld strtod snprintf) file tr file' →
      Starts plus strtod snprintf file' outcomes file'' →
      Starts plus strtod snprintf file (outcome :: outcomes) file''

variable {outcomes : List Outcome}

/-- The daemon controls the servers that have been saved, with one more `/` at each control
    directory, at every start. The file stays as it is. -/
theorem restarts (hconfigs : ∀ config ∈ configs, Producible config)
    (htext : dump snprintf 2 (stored (save configs)) = .ok text)
    (h : Starts plus strtod snprintf (some text) outcomes file) :
    file = some text ∧
      ∀ outcome ∈ outcomes, Controls (configs.map (ServerMachineConfig.withSlashes 1)) outcome := by
  obtain ⟨text', v, hdump, hparse, hload⟩ := @load_text strtod snprintf configs hconfigs 2
  obtain rfl := Except.ok.inj (htext.symm.trans hdump)
  generalize hstart : some text = start at h
  induction h with
  | nil => exact ⟨rfl, fun _ hmem => absurd hmem List.not_mem_nil⟩
  | cons hrun hfile _ ih =>
    subst hstart
    obtain ⟨rfl, ⟨v', tr', hv', -, hafter⟩ | ⟨hnone, -⟩⟩ := main_reads hrun hfile
    · obtain rfl := Except.ok.inj (hparse.symm.trans (parse_eq_ok_iff.2 hv'))
      obtain ⟨hlast, houtcomes⟩ := ih rfl
      exact ⟨hlast, List.forall_mem_cons.2 ⟨hafter.controls hload, houtcomes⟩⟩
    · exact absurd (parse_eq_ok_iff.1 hparse) (hnone v)

/-- After a first start without a file, at which the example was written, the daemon controls
    the server of the example. -/
theorem restarts_first (h : Runs (main plus turns) (exampleEvents true) outcome)
    (hfile : Evolves (configWorld strtod snprintf) none (exampleEvents true) file)
    (hstarts : Starts plus strtod snprintf file outcomes file') :
    outcome = .returned 1 ∧ ∀ outcome ∈ outcomes,
      Controls [{ exampleServerConfig with controlDir := "/share/lang-nas16//" }] outcome := by
  refine ⟨?_, ?_⟩
  · rcases runs_main_cases h with ⟨_, -, rfl⟩ | ⟨_, _, he, -⟩
    · rfl
    · cases (List.cons.inj he).1
  · obtain ⟨_, ⟨-, rfl⟩, hfile⟩ := evolves_cons_iff.1 hfile
    obtain ⟨_, rfl, hfile⟩ := evolves_cons_iff.1 hfile
    obtain ⟨_, hwritten, hfile⟩ := evolves_cons_iff.1 hfile
    obtain ⟨text, hdump, rfl⟩ := hwritten rfl
    obtain ⟨_, rfl, hend⟩ := evolves_cons_iff.1 hfile
    obtain rfl := evolves_nil_iff.1 hend
    exact (restarts producible_example hdump hstarts).2

end Hostcontrold
