import Mathlib.Algebra.Group.Int.Defs
import Mathlib.Algebra.Group.Nat.Defs
import Mathlib.Data.List.Forall2
import Mathlib.Data.Rat.Init

/-!
# The configuration

The configuration file is a JSON document, a list of *server blocks*. Each
block is decoded into a `ServerMachineConfig`, with the hosts whose presence
keeps the server running as `ClientMachineConfig`s.

`Json` is the value type of the JSON library. Decoding fails with one of the
exceptions of the library: `atKey` throws on a missing key, or on a value that is
no object, and the conversions `get` throw on a value of the wrong type. An
integer field accepts every kind of number and is cast to 64 bits. Parse errors
are exceptions of the library, too; decoding does not throw them.

The decoder does not check anything else. It changes one field: a `/` is
appended to the control directory, so that it can be prepended to file names.
-/

namespace Hostcontrold

/-! ## JSON values -/

/-- A JSON value as the library stores it. An integer literal is unsigned
    unless it has a sign. -/
inductive Json
  | null
  | boolean (b : Bool)
  | numberInteger (i : Int64)
  | numberUnsigned (n : UInt64)
  | numberFloat (q : ℚ)
  | string (s : String)
  | array (elements : List Json)
  | object (members : List (String × Json))

/-- The exceptions of the library, with their identifiers. A number that is too
    large for the library is out of range, not a parse error. -/
inductive JsonException
  | parseError (id : Nat) (what : String)
  | typeError (id : Nat) (what : String)
  | outOfRange (id : Nat) (what : String)
  deriving DecidableEq, Repr

/-- `what()`: the message, after the name of the exception. -/
def JsonException.what : JsonException → String
  | .parseError id what => "[json.exception.parse_error." ++ toString id ++ "] " ++ what
  | .typeError id what => "[json.exception.type_error." ++ toString id ++ "] " ++ what
  | .outOfRange id what => "[json.exception.out_of_range." ++ toString id ++ "] " ++ what

namespace Json

/-- The name of the type of a value, as used in the messages. -/
def typeName : Json → String
  | .null => "null"
  | .boolean _ => "boolean"
  | .string _ => "string"
  | .array _ => "array"
  | .object _ => "object"
  | _ => "number"

/-- `at`: the member of an object with a given key. -/
def atKey (key : String) : Json → Except JsonException Json
  | .object members =>
    match members.lookup key with
    | some value => .ok value
    | none => .error (.outOfRange 403 ("key '" ++ key ++ "' not found"))
  | json => .error (.typeError 304 ("cannot use at() with " ++ json.typeName))

/-- `get<std::string>`. -/
def getString : Json → Except JsonException String
  | .string s => .ok s
  | json => .error (.typeError 302 ("type must be string, but is " ++ json.typeName))

/-- The conversion of a floating point number to 64 bits, towards zero. Out of
    range it is undefined; the processor then gives the smallest integer. -/
def truncate (q : ℚ) : Int :=
  let i := q.num.tdiv q.den
  if -2 ^ 63 ≤ i ∧ i < 2 ^ 63 then i else -2 ^ 63

/-- `get<int64_t>`: every number is cast to 64 bits, signed. -/
def getInt64 : Json → Except JsonException Int
  | .numberUnsigned n => .ok n.toInt64.toInt
  | .numberInteger i => .ok i.toInt
  | .numberFloat q => .ok (truncate q)
  | json => .error (.typeError 302 ("type must be number, but is " ++ json.typeName))

/-- `get<std::vector<T>>`, given `get<T>`. -/
def getVector {T : Type} (get : Json → Except JsonException T) :
    Json → Except JsonException (List T)
  | .array elements => elements.mapM get
  | json => .error (.typeError 302 ("type must be array, but is " ++ json.typeName))

end Json

namespace Json

/-- The values a range-based loop over a JSON value runs through: the elements of
    an array, or the values of an object. Null is empty, and any other value runs
    through itself. -/
def elements : Json → List Json
  | .null => []
  | .array elements => elements
  | .object members => members.map Prod.snd
  | json => [json]

end Json

/-! ## Server blocks -/

/-- A client of a server: a host whose presence keeps the server running. -/
structure ClientMachineConfig where
  name : String
  ip : String
  deriving DecidableEq, Repr

/-- A controlled server. The interval and the timeout are in seconds. -/
structure ServerMachineConfig where
  name : String
  ip : String
  mac : String
  sshUser : String
  controlDir : String
  controlInterval : Int
  shutdownTimeout : Int
  clients : List ClientMachineConfig
  deriving DecidableEq, Repr

/-- `from_json` of a client. -/
def ClientMachineConfig.fromJson (json : Json) : Except JsonException ClientMachineConfig := do
  let name ← json.atKey "name" >>= Json.getString
  let ip ← json.atKey "ip" >>= Json.getString
  return { name, ip }

/-- `from_json` of a server block. -/
def ServerMachineConfig.fromJson (json : Json) : Except JsonException ServerMachineConfig := do
  let name ← json.atKey "name" >>= Json.getString
  let ip ← json.atKey "ip" >>= Json.getString
  let mac ← json.atKey "mac" >>= Json.getString
  let sshUser ← json.atKey "ssh_user" >>= Json.getString
  let controlDir := (← json.atKey "control_dir" >>= Json.getString) ++ "/"
  let controlInterval ← json.atKey "control_interval_sec" >>= Json.getInt64
  let shutdownTimeout ← json.atKey "shutdown_timeout_sec" >>= Json.getInt64
  let clients ← json.atKey "clients" >>= Json.getVector ClientMachineConfig.fromJson
  return { name, ip, mac, sshUser, controlDir, controlInterval, shutdownTimeout, clients }

/-- `to_json` of a client. -/
def ClientMachineConfig.toJson (config : ClientMachineConfig) : Json :=
  .object [("name", .string config.name), ("ip", .string config.ip)]

/-- `to_json` of a server block. -/
def ServerMachineConfig.toJson (config : ServerMachineConfig) : Json :=
  .object [("name", .string config.name), ("ip", .string config.ip), ("mac", .string config.mac),
    ("ssh_user", .string config.sshUser), ("control_dir", .string config.controlDir),
    ("control_interval_sec", .numberInteger (Int64.ofInt config.controlInterval)),
    ("shutdown_timeout_sec", .numberInteger (Int64.ofInt config.shutdownTimeout)),
    ("clients", .array (config.clients.map ClientMachineConfig.toJson))]

/-- A sequence of conversions succeeds if each of them does. -/
theorem bind_eq_ok_iff {ε α β : Type} {x : Except ε α} {f : α → Except ε β} {b : β} :
    (x >>= f) = .ok b ↔ ∃ a, x = .ok a ∧ f a = .ok b := by
  cases x with
  | error e => exact ⟨nofun, fun ⟨_, h, _⟩ => nomatch h⟩
  | ok a => exact ⟨fun h => ⟨a, rfl, h⟩, fun ⟨_, h, h'⟩ => Except.ok.inj h ▸ h'⟩

/-- A list of conversions succeeds if each of them does. -/
theorem forall₂_of_mapM {ε α β : Type} {f : α → Except ε β} {l : List α} {l' : List β}
    (h : l.mapM f = .ok l') : List.Forall₂ (fun a b => f a = .ok b) l l' := by
  induction l generalizing l' with
  | nil =>
    obtain rfl := Except.ok.inj (List.mapM_nil.symm.trans h)
    exact .nil
  | cons a l ih =>
    rw [List.mapM_cons] at h
    obtain ⟨b, hb, h⟩ := bind_eq_ok_iff.1 h
    obtain ⟨l', hl, h⟩ := bind_eq_ok_iff.1 h
    obtain rfl := Except.ok.inj h
    exact .cons hb (ih hl)

/-- What a decoded server block contains. -/
theorem ServerMachineConfig.of_fromJson {json : Json} {config : ServerMachineConfig}
    (h : fromJson json = .ok config) :
    (∃ dir, config.controlDir = dir ++ "/") ∧
      (json.atKey "control_interval_sec" >>= Json.getInt64) = .ok config.controlInterval ∧
      (json.atKey "shutdown_timeout_sec" >>= Json.getInt64) = .ok config.shutdownTimeout := by
  obtain ⟨name, -, h⟩ := bind_eq_ok_iff.1 h
  obtain ⟨ip, -, h⟩ := bind_eq_ok_iff.1 h
  obtain ⟨mac, -, h⟩ := bind_eq_ok_iff.1 h
  obtain ⟨sshUser, -, h⟩ := bind_eq_ok_iff.1 h
  obtain ⟨dir, -, h⟩ := bind_eq_ok_iff.1 h
  obtain ⟨interval, hinterval, h⟩ := bind_eq_ok_iff.1 h
  obtain ⟨timeout, htimeout, h⟩ := bind_eq_ok_iff.1 h
  obtain ⟨clients, -, h⟩ := bind_eq_ok_iff.1 h
  obtain rfl := Except.ok.inj h
  exact ⟨⟨dir, rfl⟩, hinterval, htimeout⟩

end Hostcontrold
