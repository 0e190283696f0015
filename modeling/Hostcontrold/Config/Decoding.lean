import Hostcontrold.Config

/-!
# Decoding and encoding

Which values can be decoded: a *server block* is an object with the eight members
that are looked for, each of its type (`ServerBlock`), the clients being an array
of *client blocks* (`ClientBlock`). The decoder accepts these and no others
(`ServerMachineConfig.exists_fromJson_iff`).

Decoding what has been encoded gives back every field, but for the `/` appended to
the control directory (`ServerMachineConfig.fromJson_toJson`). The interval and the
timeout are stored with 64 bits, which is what the decoder produces (`InRange`).
-/

namespace Hostcontrold

/-- A list of conversions succeeds if and only if each of them does. -/
theorem mapM_eq_ok_iff {ε α β : Type} {f : α → Except ε β} {l : List α} {l' : List β} :
    l.mapM f = .ok l' ↔ List.Forall₂ (fun a b => f a = .ok b) l l' := by
  refine ⟨forall₂_of_mapM, ?_⟩
  intro h
  induction h with
  | nil => rfl
  | cons hab _ ih =>
    rw [List.mapM_cons]
    exact bind_eq_ok_iff.2 ⟨_, hab, bind_eq_ok_iff.2 ⟨_, ih, rfl⟩⟩

theorem exists_mapM_iff {ε α β : Type} {f : α → Except ε β} {l : List α} :
    (∃ l', l.mapM f = .ok l') ↔ ∀ a ∈ l, ∃ b, f a = .ok b := by
  simp only [mapM_eq_ok_iff]
  induction l with
  | nil => exact ⟨fun _ _ ha => absurd ha List.not_mem_nil, fun _ => ⟨[], .nil⟩⟩
  | cons a l ih =>
    rw [List.forall_mem_cons, ← ih]
    constructor
    · rintro ⟨_, _ | ⟨hab, hl⟩⟩
      exact ⟨⟨_, hab⟩, ⟨_, hl⟩⟩
    · rintro ⟨⟨b, hab⟩, l', hl⟩
      exact ⟨b :: l', .cons hab hl⟩

/-! ## Valid blocks -/

namespace Json

/-- The member of an object with a given key, if there is one. -/
def member? (key : String) : Json → Option Json
  | .object members => members.lookup key
  | _ => none

def IsString : Json → Prop
  | .string _ => True
  | _ => False

def IsNumber : Json → Prop
  | .numberInteger _ | .numberUnsigned _ | .numberFloat _ => True
  | _ => False

/-- An array of values satisfying `P`. -/
def IsArray (P : Json → Prop) : Json → Prop
  | .array elements => ∀ json ∈ elements, P json
  | _ => False

/-- An object with a member satisfying `P`. -/
def Has (key : String) (P : Json → Prop) (json : Json) : Prop :=
  ∃ value, json.member? key = some value ∧ P value

variable {json value : Json} {key : String}

theorem atKey_eq_ok_iff : json.atKey key = .ok value ↔ json.member? key = some value := by
  cases json with
  | object members => cases h : members.lookup key <;> simp [atKey, member?, h]
  | _ => simp [atKey, member?]

theorem exists_getString_iff : (∃ s, json.getString = .ok s) ↔ json.IsString := by
  cases json <;> simp [getString, IsString]

theorem exists_getInt64_iff : (∃ i, json.getInt64 = .ok i) ↔ json.IsNumber := by
  cases json <;> simp [getInt64, IsNumber]

theorem exists_getVector_iff {T : Type} {get : Json → Except JsonException T} {P : Json → Prop}
    (hget : ∀ json, (∃ a, get json = .ok a) ↔ P json) :
    (∃ l, json.getVector get = .ok l) ↔ json.IsArray P := by
  cases json with
  | array elements => simp only [getVector, IsArray, exists_mapM_iff, hget]
  | _ => simp [getVector, IsArray]

/-- A field is decoded if there is such a member, of the type of the field. -/
theorem exists_field_iff {T : Type} {get : Json → Except JsonException T} {P : Json → Prop}
    (hget : ∀ json, (∃ a, get json = .ok a) ↔ P json) :
    (∃ a, (json.atKey key >>= get) = .ok a) ↔ json.Has key P := by
  simp only [bind_eq_ok_iff, atKey_eq_ok_iff, Has]
  constructor
  · rintro ⟨a, value, hvalue, ha⟩
    exact ⟨value, hvalue, (hget value).1 ⟨a, ha⟩⟩
  · rintro ⟨value, hvalue, hP⟩
    obtain ⟨a, ha⟩ := (hget value).2 hP
    exact ⟨a, value, hvalue, ha⟩

end Json

/-- A value that can be decoded as a client. -/
structure ClientBlock (json : Json) : Prop where
  name : json.Has "name" Json.IsString
  ip : json.Has "ip" Json.IsString

/-- A value that can be decoded as a server. -/
structure ServerBlock (json : Json) : Prop where
  name : json.Has "name" Json.IsString
  ip : json.Has "ip" Json.IsString
  mac : json.Has "mac" Json.IsString
  sshUser : json.Has "ssh_user" Json.IsString
  controlDir : json.Has "control_dir" Json.IsString
  controlInterval : json.Has "control_interval_sec" Json.IsNumber
  shutdownTimeout : json.Has "shutdown_timeout_sec" Json.IsNumber
  clients : json.Has "clients" (Json.IsArray ClientBlock)

/-- A sequence starting with a conversion can succeed if the conversion can, and
    the rest can whatever it gives. -/
theorem exists_bind_iff {ε α β : Type} {x : Except ε α} {f : α → Except ε β} {q : Prop}
    (hf : ∀ a, (∃ b, f a = .ok b) ↔ q) :
    (∃ b, (x >>= f) = .ok b) ↔ (∃ a, x = .ok a) ∧ q := by
  simp only [bind_eq_ok_iff]
  constructor
  · rintro ⟨b, a, hx, hb⟩
    exact ⟨⟨a, hx⟩, (hf a).1 ⟨b, hb⟩⟩
  · rintro ⟨⟨a, hx⟩, hq⟩
    obtain ⟨b, hb⟩ := (hf a).2 hq
    exact ⟨b, a, hx, hb⟩

theorem exists_pure_iff {ε α : Type} {a : α} : (∃ b, (pure a : Except ε α) = .ok b) ↔ True :=
  iff_of_true ⟨a, rfl⟩ trivial

variable {json : Json}

theorem ClientMachineConfig.exists_fromJson_iff (json : Json) :
    (∃ config, fromJson json = .ok config) ↔ ClientBlock json := by
  have hstring {key : String} := @Json.exists_field_iff json key _ _ _ @Json.exists_getString_iff
  have hfields : (∃ config, fromJson json = .ok config) ↔ _ :=
    exists_bind_iff fun _ => exists_bind_iff fun _ => exists_pure_iff
  rw [hfields, hstring, hstring]
  exact ⟨fun ⟨name, ip, _⟩ => ⟨name, ip⟩, fun h => ⟨h.name, h.ip, trivial⟩⟩

/-- The server blocks are decoded, and no other values. -/
theorem ServerMachineConfig.exists_fromJson_iff (json : Json) :
    (∃ config, fromJson json = .ok config) ↔ ServerBlock json := by
  have hstring {key : String} := @Json.exists_field_iff json key _ _ _ @Json.exists_getString_iff
  have hnumber {key : String} := @Json.exists_field_iff json key _ _ _ @Json.exists_getInt64_iff
  have hclients {key : String} := @Json.exists_field_iff json key _ _ _
    fun json => @Json.exists_getVector_iff json _ _ _ ClientMachineConfig.exists_fromJson_iff
  have hfields : (∃ config, fromJson json = .ok config) ↔ _ :=
    exists_bind_iff fun _ => exists_bind_iff fun _ => exists_bind_iff fun _ =>
      exists_bind_iff fun _ => exists_bind_iff fun _ => exists_bind_iff fun _ =>
        exists_bind_iff fun _ => exists_bind_iff fun _ => exists_pure_iff
  rw [hfields, hstring, hstring, hstring, hstring, hstring, hnumber, hnumber, hclients]
  constructor
  · rintro ⟨name, ip, mac, sshUser, controlDir, controlInterval, shutdownTimeout, clients, _⟩
    exact ⟨name, ip, mac, sshUser, controlDir, controlInterval, shutdownTimeout, clients⟩
  · intro h
    exact ⟨h.name, h.ip, h.mac, h.sshUser, h.controlDir, h.controlInterval, h.shutdownTimeout,
      h.clients, trivial⟩

/-! ## Decoding an encoding -/

/-- A number of seconds that is stored in 64 bits. -/
def InRange (seconds : Int) : Prop := -2 ^ 63 ≤ seconds ∧ seconds < 2 ^ 63

theorem inRange_toInt (i : Int64) : InRange i.toInt := ⟨Int64.le_toInt i, Int64.toInt_lt i⟩

theorem inRange_truncate (q : ℚ) : InRange (Json.truncate q) := by
  rw [Json.truncate]
  split_ifs with h
  · exact h
  · exact ⟨Int.le_refl _, by decide⟩

theorem Json.inRange_getInt64 {seconds : Int} (h : json.getInt64 = .ok seconds) :
    InRange seconds := by
  cases json with
  | numberUnsigned n => exact Except.ok.inj h ▸ inRange_toInt _
  | numberInteger i => exact Except.ok.inj h ▸ inRange_toInt i
  | numberFloat q => exact Except.ok.inj h ▸ inRange_truncate q
  | _ => cases h

theorem toInt_ofInt {seconds : Int} (h : InRange seconds) :
    (Int64.ofInt seconds).toInt = seconds :=
  Int64.toInt_ofInt_of_le h.1 h.2

/-- What is decoded fits into 64 bits. -/
theorem ServerMachineConfig.inRange_of_fromJson {config : ServerMachineConfig}
    (h : fromJson json = .ok config) :
    InRange config.controlInterval ∧ InRange config.shutdownTimeout := by
  obtain ⟨-, hinterval, htimeout⟩ := of_fromJson h
  obtain ⟨_, -, hinterval⟩ := bind_eq_ok_iff.1 hinterval
  obtain ⟨_, -, htimeout⟩ := bind_eq_ok_iff.1 htimeout
  exact ⟨Json.inRange_getInt64 hinterval, Json.inRange_getInt64 htimeout⟩

theorem ClientMachineConfig.fromJson_toJson (config : ClientMachineConfig) :
    fromJson config.toJson = .ok config := rfl

/-- The clients are decoded as they were. -/
theorem mapM_clients (clients : List ClientMachineConfig) :
    (clients.map ClientMachineConfig.toJson).mapM ClientMachineConfig.fromJson = .ok clients := by
  rw [mapM_eq_ok_iff, List.forall₂_map_left_iff]
  exact List.forall₂_same.2 fun config _ => config.fromJson_toJson

/-- Decoding what has been encoded appends a `/` to the control directory, and
    changes nothing else. -/
theorem ServerMachineConfig.fromJson_toJson {config : ServerMachineConfig}
    (hinterval : InRange config.controlInterval) (htimeout : InRange config.shutdownTimeout) :
    fromJson config.toJson = .ok { config with controlDir := config.controlDir ++ "/" } := by
  have hdecoded : fromJson config.toJson = (do
      let clients ← (config.clients.map ClientMachineConfig.toJson).mapM
        ClientMachineConfig.fromJson
      return { config with
        controlDir := config.controlDir ++ "/"
        controlInterval := (Int64.ofInt config.controlInterval).toInt
        shutdownTimeout := (Int64.ofInt config.shutdownTimeout).toInt
        clients }) := rfl
  rw [hdecoded, mapM_clients, toInt_ofInt hinterval, toInt_ofInt htimeout]
  rfl

end Hostcontrold
