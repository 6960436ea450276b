import MacosAuth.Agent.Hosts
import MacosAuth.Effect.Contract

/-!
# The config file of the agent

The `hosts` command reads the config, edits its list of hosts and replaces the file:
it writes a new file next to the old one, compares the identity of the old file with
one that it has taken before, and renames the new file over the old one.
-/

namespace MacosAuth
namespace Agent
namespace ConfigFile

open Codec
open Effect Effect.Program

/-- What `fstat` and `fstatat` report. -/
structure Stat where
  device : Nat
  inode : Nat
  mode : UInt16
  uid : UInt32
  gid : UInt32
  deriving DecidableEq

/-- Outcome of `write`. A failure is any other result that is not positive, with the
error number that is then set. -/
inductive WriteResult (bytes : Bytes)
  | wrote (count : { count : Nat // 0 < count ∧ count ≤ bytes.length })
  | interrupted
  | failed (code : Nat)

/-- The calls of the command. All files are opened without following symbolic links,
and the replacement is created exclusively with mode `0o600`. -/
inductive Call
  | openFile (path : String)
  | openDirectory (path : String)
  | openat (parent : Nat) (name : String)
  | createat (parent : Nat) (name : String)
  | fstat (fd : Nat)
  | fstatat (parent : Nat) (name : String)
  /-- `FileHandle.readToEnd`, which reports the end of the file as no data. -/
  | readToEnd (fd : Nat)
  | write (fd : Nat) (bytes : Bytes)
  | fchown (fd : Nat) (uid gid : UInt32)
  | fchmod (fd : Nat) (mode : UInt16)
  | fsync (fd : Nat)
  | close (fd : Nat)
  | renameat (parent : Nat) (source target : String)
  | unlinkat (parent : Nat) (name : String)
  deriving DecidableEq

/-- Errors are numbers. -/
@[reducible] def Call.Answer : Call -> Type
  | .openFile _ => Except Nat Nat
  | .openDirectory _ => Except Nat Nat
  | .openat _ _ => Except Nat Nat
  | .createat _ _ => Except Nat Nat
  | .fstat _ => Except Nat Stat
  | .fstatat _ _ => Except Nat Stat
  | .readToEnd _ => Option Bytes
  | .write _ bytes => WriteResult bytes
  | .fchown _ _ _ => Except Nat Unit
  | .fchmod _ _ => Except Nat Unit
  | .fsync _ => Except Nat Unit
  | .close _ => Except Nat Unit
  | .renameat _ _ _ => Except Nat Unit
  | .unlinkat _ _ => Except Nat Unit

inductive Failure
  | agent (error : AgentError)
  /-- Errors of the JSON coders. -/
  | coding
  /-- Errors of the file handle. -/
  | handle
  deriving DecidableEq

/-- A part of the command. -/
abbrev Routine := Effect.Program Call Call.Answer Failure

/-- An answered call of the command. -/
abbrev FileEvent := Effect.Event Call Call.Answer

/-- End with an error of the agent. -/
def raise {α : Type} (error : AgentError) : Routine α :=
  .fail (.agent error)

/-- Turn a result with an error of the agent into a routine. -/
def liftExcept {α : Type} (result : Except AgentError α) : Routine α :=
  .done (result.mapError .agent)

/-- What the command takes from libraries. -/
structure Platform (Key : Type) where
  keys : KeyPlatform Key
  /-- `JSONDecoder().decode`. -/
  configFromJson : Bytes -> Option AgentConfig
  /-- `JSONEncoder().encode`, pretty-printed with sorted keys. -/
  configToJson : AgentConfig -> Option Bytes
  strerror : Nat -> String
  /-- `url.lastPathComponent`. -/
  lastPathComponent : String -> String
  /-- `url.deletingLastPathComponent().resolvingSymlinksInPath().path`. -/
  parentPath : String -> String

/-- One run of the command: what it is to do, the user that runs it, and the value of
`UUID().uuidString` that it draws. -/
structure Process where
  command : KeyPlatform.HostsCommand
  effectiveUID : UInt32
  uuid : String

/-! ## Reading -/

/-- `String(mode, radix: 8)`. -/
def octal (mode : UInt16) : String :=
  String.ofList (Nat.toDigits 8 mode.toNat)

def validateFileMetadata
    (st : Stat)
    (label : String)
    (privateMaterial : Bool)
    (effectiveUID : UInt32) : Except AgentError Unit :=
  if st.mode &&& 0xf000 ≠ 0x8000 then
    .error (.invalidPayload (label ++ " is not a regular file"))
  else if st.uid ≠ effectiveUID ∧ st.uid ≠ 0 then
    .error (.invalidPayload (label ++ " must be owned by the effective user or root"))
  else if st.mode &&& (if privateMaterial then 0x3f else 0x12) ≠ 0 then
    .error (.invalidPayload (label ++ " has unsafe permissions: " ++ octal (st.mode &&& 0x1ff)))
  else
    .ok ()

def sameFile (lhs rhs : Stat) : Bool :=
  lhs.device == rhs.device && lhs.inode == rhs.inode &&
    lhs.mode &&& 0xf000 == rhs.mode &&& 0xf000

variable {Key : Type} (platform : Platform Key)

def openSafeFile
    (path label : String)
    (privateMaterial : Bool)
    (effectiveUID : UInt32) : Routine Nat := do
  let opened : Except Nat Nat ← perform (Call.openFile path)
  match opened with
  | .error code => raise (.io ("open " ++ label ++ ": " ++ platform.strerror code))
  | .ok fd => do
      let status : Except Nat Stat ← perform (Call.fstat fd)
      let checked : Except Failure Unit := match status with
        | .error code =>
            .error (.agent (.io ("fstat " ++ label ++ ": " ++ platform.strerror code)))
        | .ok st => (validateFileMetadata st label privateMaterial effectiveUID).mapError .agent
      match checked with
      | .ok _ => return fd
      | .error error => do
          let _ : Except Nat Unit ← perform (Call.close fd)
          fail error

/-- The part of `readSafeFile` that has an open handle. -/
def readHandle (fd : Nat) (label : String) : Routine (Bytes × Stat) := do
  let status : Except Nat Stat ← perform (Call.fstat fd)
  match status with
  | .error code => raise (.io ("fstat " ++ label ++ ": " ++ platform.strerror code))
  | .ok st => do
      let data : Option Bytes ← perform (Call.readToEnd fd)
      match data with
      | none => fail .handle
      | some bytes => return (bytes, st)

/-- Close a descriptor, whatever comes of it. -/
def closing (fd : Nat) : Routine Unit := do
  let _ : Except Nat Unit ← perform (Call.close fd)
  return ()

def readSafeFile
    (path label : String)
    (privateMaterial : Bool)
    (effectiveUID : UInt32) : Routine (Bytes × Stat) := do
  let fd ← openSafeFile platform path label privateMaterial effectiveUID
  (readHandle platform fd label).ensuring (closing fd)

def loadAgentConfig (path : String) (effectiveUID : UInt32) : Routine AgentConfig := do
  let (data, metadata) ← readSafeFile platform path "agent config" false effectiveUID
  match platform.configFromJson data with
  | none => fail .coding
  | some config =>
      if config.agentKeyHex.isSome then do
        liftExcept (validateFileMetadata metadata "agent config with inline private key" true
          effectiveUID)
        return config
      else
        return config

/-! ## Replacing -/

/-- `writeAll`, for a number of rounds. -/
def writeAll (fd : Nat) : Nat -> Bytes -> Routine Unit
  | 0, _ => .exhausted
  | rounds + 1, data =>
      if data = [] then
        return ()
      else do
        let result : WriteResult data ← perform (Call.write fd data)
        match result with
        | .interrupted => writeAll fd rounds data
        | .failed code => raise (.io ("write: " ++ platform.strerror code))
        | .wrote count => writeAll fd rounds (data.drop count.val)

/-- The guard that sets owner and mode of the replacement and writes it to disk. -/
def secureReplacement (fd : Nat) (metadata : Stat) (privateMaterial : Bool) : Routine Unit := do
  let owned : Except Nat Unit ← perform (Call.fchown fd metadata.uid metadata.gid)
  match owned with
  | .error code => raise (.io ("secure config replacement: " ++ platform.strerror code))
  | .ok _ => do
      let mode := metadata.mode &&& (if privateMaterial then 0x180 else 0x1ff)
      let narrowed : Except Nat Unit ← perform (Call.fchmod fd mode)
      match narrowed with
      | .error code => raise (.io ("secure config replacement: " ++ platform.strerror code))
      | .ok _ => do
          let synced : Except Nat Unit ← perform (Call.fsync fd)
          match synced with
          | .error code => raise (.io ("secure config replacement: " ++ platform.strerror code))
          | .ok _ => return ()

/-- Compare the identity of the config with that of the original, and rename the
replacement over it. -/
def install
    (parent : Nat)
    (name replacement : String)
    (metadata : Stat) : Routine Unit := do
  let status : Except Nat Stat ← perform (Call.fstatat parent name)
  match status with
  | .error _ => raise (.io "config changed during replacement")
  | .ok current =>
      if sameFile metadata current then do
        let renamed : Except Nat Unit ← perform (Call.renameat parent replacement name)
        match renamed with
        | .error code => raise (.io ("replace config: " ++ platform.strerror code))
        | .ok _ => do
            let synced : Except Nat Unit ← perform (Call.fsync parent)
            match synced with
            | .error code => raise (.io ("sync config directory: " ++ platform.strerror code))
            | .ok _ => return ()
      else
        raise (.io "config changed during replacement")

/-- The part of `replaceConfigFile` that has created the replacement. -/
def fillAndInstall
    (rounds : Nat)
    (parent fd : Nat)
    (name replacement : String)
    (data : Bytes)
    (metadata : Stat)
    (privateMaterial : Bool) : Routine Unit := do
  let filled : Except Failure Unit ← attempt do
    writeAll platform fd rounds data
    secureReplacement platform fd metadata privateMaterial
  match filled with
  | .error error => do
      -- the descriptor is still marked as open
      closing fd
      fail error
  | .ok _ => do
      let closed : Except Nat Unit ← perform (Call.close fd)
      match closed with
      | .error code => raise (.io ("close config replacement: " ++ platform.strerror code))
      | .ok _ => install platform parent name replacement metadata

/-- Remove the name of the replacement, if it is still there. -/
def removeReplacement (parent : Nat) (replacement : String) : Routine Unit := do
  let _ : Except Nat Unit ← perform (Call.unlinkat parent replacement)
  return ()

def replacementName (name uuid : String) : String :=
  "." ++ name ++ ".replacement." ++ uuid

/-- The part of `replaceConfigFile` that has opened the original. -/
def replaceOriginal
    (rounds : Nat)
    (parent original : Nat)
    (name : String)
    (data : Bytes)
    (privateMaterial : Bool)
    (process : Process) : Routine Unit := do
  let status : Except Nat Stat ← perform (Call.fstat original)
  match status with
  | .error code => raise (.io ("stat config: " ++ platform.strerror code))
  | .ok metadata => do
      liftExcept (validateFileMetadata metadata "agent config" false process.effectiveUID)
      let replacement := replacementName name process.uuid
      let created : Except Nat Nat ← perform (Call.createat parent replacement)
      match created with
      | .error code => raise (.io ("create config replacement: " ++ platform.strerror code))
      | .ok fd =>
          (fillAndInstall platform rounds parent fd name replacement data metadata
            privateMaterial).ensuring (removeReplacement parent replacement)

/-- The guard on the config directory. -/
def trustedDirectory (status : Except Nat Stat) (effectiveUID : UInt32) : Bool :=
  match status with
  | .error _ => false
  | .ok directory =>
      (directory.uid == effectiveUID || directory.uid == 0) && directory.mode &&& 0x12 == 0

/-- The part of `replaceConfigFile` that has opened the config directory. -/
def replaceInDirectory
    (rounds : Nat)
    (parent : Nat)
    (name : String)
    (data : Bytes)
    (privateMaterial : Bool)
    (process : Process) : Routine Unit := do
  let directory : Except Nat Stat ← perform (Call.fstat parent)
  if trustedDirectory directory process.effectiveUID then do
    let opened : Except Nat Nat ← perform (Call.openat parent name)
    match opened with
    | .error code => raise (.io ("open config: " ++ platform.strerror code))
    | .ok original =>
        (replaceOriginal platform rounds parent original name data privateMaterial
          process).ensuring (closing original)
  else
    raise (.io ("config directory must be owned by the effective user or root and not " ++
      "group/world writable"))

def replaceConfigFile
    (rounds : Nat)
    (path : String)
    (data : Bytes)
    (privateMaterial : Bool)
    (process : Process) : Routine Unit := do
  let opened : Except Nat Nat ← perform (Call.openDirectory (platform.parentPath path))
  match opened with
  | .error code => raise (.io ("open config directory: " ++ platform.strerror code))
  | .ok parent =>
      (replaceInDirectory platform rounds parent (platform.lastPathComponent path) data
        privateMaterial process).ensuring (closing parent)

def writeAgentConfig
    (rounds : Nat)
    (config : AgentConfig)
    (path : String)
    (process : Process) : Routine Unit :=
  match platform.configToJson config with
  | none => fail .coding
  | some data =>
      replaceConfigFile platform rounds path data config.agentKeyHex.isSome process

/-- The editing subcommands of `hosts`: load, edit and write back. -/
def runHosts (rounds : Nat) (path : String) (process : Process) : Routine Unit := do
  let config ← loadAgentConfig platform path process.effectiveUID
  let edited ← liftExcept (platform.keys.runHosts config process.command)
  writeAgentConfig platform rounds edited path process

end ConfigFile
end Agent
end MacosAuth
