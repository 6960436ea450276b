import MacosAuth.Helper.Request
import Mathlib.Data.Finmap

/-!
# Preparing a configuration

`prepare_config` edits a TOML table: it sets the paths of an installation, leaves all
other settings as they are, and prints the table. What it prints is read back and
validated before it is returned.
-/

namespace MacosAuth
namespace Helper

open Codec
open Protocol (utf8)
open Effect Effect.Program

/-! ## TOML tables -/

/-- A value of TOML. Floats are kept as bits, dates as they are written. -/
inductive TomlValue
  | string (text : String)
  | integer (value : Int64)
  | float (bits : UInt64)
  | boolean (value : Bool)
  | datetime (text : String)
  | array (values : List TomlValue)
  | table (entries : List (String × TomlValue))

mutual

/-- Structural equality. -/
def TomlValue.agrees : TomlValue -> TomlValue -> Bool
  | .string left, .string right => left == right
  | .integer left, .integer right => left == right
  | .float left, .float right => left == right
  | .boolean left, .boolean right => left == right
  | .datetime left, .datetime right => left == right
  | .array left, .array right => TomlValue.agreeAll left right
  | .table left, .table right => TomlValue.agreeEntries left right
  | _, _ => false

def TomlValue.agreeAll : List TomlValue -> List TomlValue -> Bool
  | [], [] => true
  | value :: rest, other :: others => value.agrees other && TomlValue.agreeAll rest others
  | _, _ => false

def TomlValue.agreeEntries :
    List (String × TomlValue) -> List (String × TomlValue) -> Bool
  | [], [] => true
  | (key, value) :: rest, (otherKey, other) :: others =>
      key == otherKey && value.agrees other && TomlValue.agreeEntries rest others
  | _, _ => false

end

namespace TomlValue

mutual

theorem agrees_iff : (left right : TomlValue) -> (left.agrees right = true ↔ left = right)
  | .string _, right | .integer _, right | .float _, right | .boolean _, right
  | .datetime _, right => by
      cases right <;> simp [agrees]
  | .array left, right => by
      cases right with
      | array right => simp [agrees, agreeAll_iff left right]
      | _ => simp [agrees]
  | .table left, right => by
      cases right with
      | table right => simp [agrees, agreeEntries_iff left right]
      | _ => simp [agrees]

theorem agreeAll_iff : (left right : List TomlValue) -> (agreeAll left right = true ↔ left = right)
  | [], right => by
      cases right <;> simp [agreeAll]
  | value :: rest, right => by
      cases right with
      | nil => simp [agreeAll]
      | cons other others => simp [agreeAll, agrees_iff value other, agreeAll_iff rest others]

theorem agreeEntries_iff :
    (left right : List (String × TomlValue)) -> (agreeEntries left right = true ↔ left = right)
  | [], right => by
      cases right <;> simp [agreeEntries]
  | (key, value) :: rest, right => by
      cases right with
      | nil => simp [agreeEntries]
      | cons entry others =>
          simp [agreeEntries, agrees_iff value entry.2, agreeEntries_iff rest others, Prod.ext_iff]

end

end TomlValue

instance : DecidableEq TomlValue :=
  fun left right => decidable_of_iff _ (TomlValue.agrees_iff left right)

/-- `toml::Table`. -/
abbrev Table := Finmap fun _ : String => TomlValue

/-- What the helper takes from the TOML crate to edit tables. -/
structure Toml where
  /-- `toml::from_str::<toml::Table>`. -/
  parse : String -> Option Table
  /-- `toml::to_string_pretty`. -/
  print : Table -> Option String

/-! ## The fields of a configuration -/

/-- An optional field that is a string. A missing field is no error. -/
def stringField (table : Table) (field : String) : Option (Option String) :=
  match table.lookup field with
  | none => some none
  | some (.string text) => some (some text)
  | some _ => none

def pathField (table : Table) (field : String) : Option (Option Bytes) :=
  (stringField table field).map (Option.map utf8)

/-- An optional field of type `u64`. -/
def u64Field (table : Table) (field : String) : Option (Option UInt64) :=
  match table.lookup field with
  | none => some none
  | some (.integer value) => if 0 ≤ value then some (some value.toUInt64) else none
  | some _ => none

/-- The derived `Deserialize` of `HelperConfig`. Other fields are ignored. -/
def HelperConfig.ofTable (table : Table) : Option HelperConfig := do
  let socketPath ← pathField table "socket_path"
  let hostKeyFile ← pathField table "host_key_file"
  let agentPubkeyFile ← pathField table "agent_pubkey_file"
  let keyId ← stringField table "key_id"
  let hostId ← stringField table "host_id"
  let hostname ← stringField table "hostname"
  let service ← stringField table "service"
  let timeoutMs ← u64Field table "timeout_ms"
  let allowedFutureSkewMs ← u64Field table "allowed_future_skew_ms"
  let replayCacheDir ← pathField table "replay_cache_dir"
  return {
    socketPath := socketPath
    hostKeyFile := hostKeyFile
    agentPubkeyFile := agentPubkeyFile
    keyId := keyId
    hostId := hostId
    hostname := hostname
    service := service
    timeoutMs := timeoutMs
    allowedFutureSkewMs := allowedFutureSkewMs
    replayCacheDir := replayCacheDir
  }

/-- What is relied on: a printed table is read back as it was, and a configuration is
read from the table of its text. -/
structure Toml.Lawful (toml : Toml) (crates : Crates) : Prop where
  parse_print {table : Table} {text : String} :
    toml.print table = some text -> toml.parse text = some table
  configFromToml (text : String) :
    crates.configFromToml text = (toml.parse text).bind HelperConfig.ofTable

/-! ## Editing -/

structure PrepareConfigArgs where
  source : Option Bytes
  socket : Bytes
  hostKeyFile : Bytes
  agentPubkeyFile : Bytes
  hostId : Option String
  hostname : Option String
  replayCacheDir : Option Bytes

/-- Absolute and without `..`. -/
def isPlainAbsolute (path : Bytes) : Bool :=
  isAbsolute path && !(pathComponents path).contains .parentDir

def checkPath (field : String) (path : Bytes) : Except HelperError Unit :=
  if isPlainAbsolute path then .ok ()
  else .error (.message (field ++ " must be absolute without parent components"))

/-- Check a path and set a field to it. -/
def insertPath (field : String) (path : Bytes) (table : Table) : Except HelperError Table := do
  checkPath field path
  match decodeUtf8 path with
  | some text => return table.insert field (.string text)
  | none => .error (.message "path is not UTF-8")

/-- Set a field if there is an argument for it. -/
def insertSetting (field : String) (setting : Option String) (table : Table) : Table :=
  match setting with
  | some text => table.insert field (.string text)
  | none => table

/-- Move the replay cache, if the table has one. -/
def relocateReplayCache (path : Option Bytes) (table : Table) : Except HelperError Table :=
  if "replay_cache_dir" ∈ table then
    match path with
    | some path => insertPath "replay_cache_dir" path table
    | none =>
        .error (.message "existing replay cache requires --replay-cache-dir relocation")
  else
    .ok table

/-- The changes that `prepare_config` makes to its source table. -/
def editTable (args : PrepareConfigArgs) (table : Table) : Except HelperError Table := do
  let located ← insertPath "socket_path" args.socket table
  let keyed ← insertPath "host_key_file" args.hostKeyFile located
  let pinned ← insertPath "agent_pubkey_file" args.agentPubkeyFile keyed
  relocateReplayCache args.replayCacheDir
    (insertSetting "hostname" args.hostname (insertSetting "host_id" args.hostId pinned))

/-! ## Validation -/

def requirePath (field : String) (path : Option Bytes) : Except HelperError Unit :=
  match path with
  | none => .error (.message (field ++ " is required"))
  | some path => checkPath field path

def requireSetting (field : String) (setting : Option String) : Except HelperError Unit :=
  if setting.all fun text => trim text.toList == [] then
    .error (.message (field ++ " is required and must not be empty"))
  else
    .ok ()

/-- The part of `validate_config_fields` without the deadline. -/
def checkFields (config : HelperConfig) : Except HelperError Unit := do
  requirePath "socket_path" config.socketPath
  requirePath "host_key_file" config.hostKeyFile
  requirePath "agent_pubkey_file" config.agentPubkeyFile
  requireSetting "host_id" config.hostId
  requireSetting "hostname" config.hostname
  requireSetting "key_id" (some (config.keyId.getD "host-key-1"))
  requireSetting "service" (some (config.service.getD "sudo"))

def checkBudget (timeoutMs : UInt64) : Routine HelperError Unit := do
  let now ← unixTimeMs
  let _ ← operationBudget timeoutMs now
  pure ()

def validateConfigFields (config : HelperConfig) : Routine HelperError Unit := do
  .done (checkFields config)
  checkBudget (config.timeoutMs.getD 15000)

/-! ## The command -/

/-- `prepare_config` after it has read its source. -/
def prepareTable (crates : Crates) (toml : Toml) (args : PrepareConfigArgs) (table : Table) :
    Routine HelperError String := do
  let edited ← .done (editTable args table)
  match toml.print edited with
  | none => fail .toml
  | some contents =>
      match crates.configFromToml contents with
      | none => fail .toml
      | some config => do
          validateConfigFields config
          return contents

def prepareConfig (crates : Crates) (toml : Toml) (args : PrepareConfigArgs) :
    Routine HelperError String :=
  match args.source with
  | none => prepareTable crates toml args ∅
  | some path => do
      let contents ← readTrustedFile path false false
      match toml.parse contents with
      | none => fail .toml
      | some table => prepareTable crates toml args table

/-! ## What editing changes -/

theorem checkPath_eq_ok_iff
    {field : String}
    {path : Bytes}
    {result : Unit} :
    checkPath field path = .ok result ↔ isPlainAbsolute path = true := by
  unfold checkPath
  split
  · rename_i plain
    exact iff_of_true rfl plain
  · rename_i refused
    exact iff_of_false (by simp) refused

theorem insertPath_eq_ok_iff
    {field : String}
    {path : Bytes}
    {table edited : Table} :
    insertPath field path table = .ok edited ↔
      isPlainAbsolute path = true ∧
        ∃ text, decodeUtf8 path = some text ∧ edited = table.insert field (.string text) := by
  unfold insertPath
  rw [Protocol.bind_eq_ok]
  simp only [checkPath_eq_ok_iff]
  constructor
  · rintro ⟨_, plain, decoded⟩
    split at decoded
    · rename_i text decodes
      exact ⟨plain, text, decodes, (Except.ok.inj decoded).symm⟩
    · exact absurd decoded (by simp)
  · rintro ⟨plain, text, decodes, rfl⟩
    refine ⟨(), plain, ?_⟩
    rw [decodes]
    rfl

end Helper
end MacosAuth
