import MacosAuth.Helper.Replay

/-!
# Requesting an authentication

`run_request` loads the configuration and the keys, signs a request, sends it to the
agent and judges what comes back. Every outcome is an exit code; errors without an exit
code of their own end the process with code 1.
-/

namespace MacosAuth
namespace Helper

open Codec
open Protocol (utf8 nonceLen supportedVersion ProtocolError AuthRequestBody
  SignedAuthRequest SignedAuthResponse Decision)
open Effect Effect.Program

structure HelperConfig where
  socketPath : Option Bytes
  hostKeyFile : Option Bytes
  agentPubkeyFile : Option Bytes
  keyId : Option String
  hostId : Option String
  hostname : Option String
  service : Option String
  timeoutMs : Option UInt64
  allowedFutureSkewMs : Option UInt64
  replayCacheDir : Option Bytes
  deriving DecidableEq

/-- `HelperConfig::default()`. -/
def HelperConfig.empty : HelperConfig :=
  ⟨none, none, none, none, none, none, none, none, none, none⟩

structure RequestArgs where
  requireRootOwned : Bool
  config : Option Bytes
  socket : Option Bytes
  keyHex : Option String
  keyFile : Option Bytes
  agentPubkeyHex : Option String
  agentPubkeyFile : Option Bytes
  keyId : Option String
  hostId : Option String
  hostname : Option String
  service : Option String
  user : String
  ruser : Option String
  rhost : Option String
  tty : Option String
  sudoCommand : Option String
  timeoutMs : Option UInt64
  allowedFutureSkewMs : Option UInt64
  replayCacheDir : Option Bytes
  deriving DecidableEq

/-- What the helper takes from other crates. Writing a request as JSON does not fail;
reading a configuration or a response may. -/
structure Crates where
  /-- `Sha256::digest`. -/
  digest : Bytes -> Bytes
  /-- `toml::from_str`. -/
  configFromToml : String -> Option HelperConfig
  /-- `serde_json::to_vec`. -/
  requestToJson : SignedAuthRequest -> Bytes
  /-- `serde_json::from_slice`. -/
  responseFromJson : Bytes -> Option SignedAuthResponse
  /-- `VerifyingKey::from_bytes` accepts these 32 bytes. -/
  isVerifyingKey : Bytes -> Bool

/-! ## Configuration and keys -/

def hexValue (byte : UInt8) : Option UInt8 :=
  if 0x30 ≤ byte ∧ byte ≤ 0x39 then some (byte - 0x30)
  else if 0x41 ≤ byte ∧ byte ≤ 0x46 then some (byte - 0x37)
  else if 0x61 ≤ byte ∧ byte ≤ 0x66 then some (byte - 0x57)
  else none

/-- `hex::decode`. -/
def hexDecode : Bytes -> Option Bytes
  | [] => some []
  | [_] => none
  | high :: low :: rest => do
      let highValue ← hexValue high
      let lowValue ← hexValue low
      let decoded ← hexDecode rest
      return (highValue * 16 + lowValue) :: decoded

def readTrustedFile (path : Bytes) (rootOwned isPrivate : Bool) :
    Routine HelperError String := do
  let file ← (Trust.openPath path rootOwned false isPrivate).mapError .io
  let contents ← (readToString file (maxFrameLen + 1)).mapError .io
  if maxFrameLen < (utf8 contents).length then
    fail (.message "trusted file is too large")
  else
    return contents

def loadHelperConfig (crates : Crates) (path : Option Bytes) (rootOwned : Bool) :
    Routine HelperError HelperConfig :=
  match path with
  | none => pure .empty
  | some path => do
      let contents ← readTrustedFile path rootOwned false
      match crates.configFromToml contents with
      | some config => pure config
      | none => fail .toml

/-- The loop of `read_key_material` over the lines of a key file. -/
def keyLine : List (List Char) -> Option (List Char)
  | [] => none
  | rawLine :: rest =>
      let line := trim rawLine
      if line = [] ∨ line.head? = some '#' then
        keyLine rest
      else if '=' ∈ line then
        some (trim ((line.dropWhile (· ≠ '=')).tail))
      else
        some line

/-- `Path::display`, for paths in UTF-8. -/
def displayPath (path : Bytes) : String :=
  (decodeUtf8 path).getD ""

def readKeyMaterial (path : Bytes) (rootOwned isPrivate : Bool) :
    Routine HelperError (List Char) := do
  let contents ← readTrustedFile path rootOwned isPrivate
  match keyLine (lines contents.toList) with
  | some material => pure material
  | none =>
      fail (.message ("key file " ++ displayPath path ++ " does not contain key material"))

def decodeKey (material : List Char) (label : String) : Except HelperError Bytes :=
  match hexDecode (utf8 (String.ofList material)) with
  | none => .error .hex
  | some bytes =>
      if bytes.length = 32 then .ok bytes
      else .error (.message (label ++ " must be exactly 32 bytes"))

def loadSigningKey (keyHex : Option String) (keyFile : Option Bytes) (rootOwned : Bool) :
    Routine HelperError Bytes :=
  match keyHex, keyFile with
  | some keyHex, none =>
      if rootOwned then
        fail (.message "production requires a trusted private key file, not inline hex")
      else
        .done (decodeKey (trim keyHex.toList) "Ed25519 private key")
  | none, some path => do
      let material ← readKeyMaterial path rootOwned true
      .done (decodeKey (trim material) "Ed25519 private key")
  | none, none => fail (.message "missing private key; provide --key-hex or --key-file")
  | some _, some _ => fail (.message "provide only one of --key-hex or --key-file")

def loadPublicKey
    (keyHex : Option String)
    (keyFile : Option Bytes)
    (label : String)
    (rootOwned : Bool) : Routine HelperError Bytes :=
  match keyHex, keyFile with
  | some keyHex, none =>
      if rootOwned then
        fail (.message "production requires a trusted public key file, not inline hex")
      else
        .done (decodeKey (trim keyHex.toList) label)
  | none, some path => do
      let material ← readKeyMaterial path rootOwned false
      .done (decodeKey material label)
  | none, none => fail (.message ("missing " ++ label ++ "; provide hex or file"))
  | some _, some _ => fail (.message ("provide only one " ++ label ++ " source"))

/-! ## The request -/

/-- The largest monotonic time that can be represented, in nanoseconds. -/
def instantLimit : Nat := 2 ^ 63 * 1000000000

/-- The deadline of the operation and the expiry of the request. -/
def operationBudget (timeoutMs nowMs : UInt64) : Routine HelperError (Nat × UInt64) := do
  if timeoutMs = 0 then
    fail (.message "timeout_ms must be positive")
  else if UInt64.size ≤ nowMs.toNat + timeoutMs.toNat then
    fail (.message "timeout_ms overflows request expiry")
  else
    let now : Nat ← perform Call.instant
    if instantLimit ≤ now + timeoutMs.toNat * 1000000 then
      fail (.message "timeout_ms overflows operation deadline")
    else
      return (now + timeoutMs.toNat * 1000000, nowMs + timeoutMs)

structure RequestContext where
  keyId : String
  hostId : String
  hostname : String
  service : String
  user : String
  ruser : Option String
  rhost : Option String
  tty : Option String
  sudoCommand : Option String

def buildRequest (nowMs : UInt64) (context : RequestContext) :
    Routine HelperError AuthRequestBody := do
  let nonce ← perform (Call.fillBytes nonceLen)
  let pid : UInt32 ← perform Call.processId
  return {
    protocolVersion := supportedVersion
    requestId := "req-" ++ nowMs.toNat.repr ++ "-" ++ pid.toNat.repr
    nonce := nonce.val
    createdAtMs := nowMs
    expiresAtMs := nowMs + 30000
    linuxHostId := context.hostId
    linuxHostname := context.hostname
    pamService := context.service
    pamUser := context.user
    pamRuser := context.ruser
    pamRhost := context.rhost
    pamTty := context.tty
    sudoCommand := context.sudoCommand
    clientPid := some pid
    keyId := context.keyId
    alg := .ed25519
  }

/-- `AuthRequestBody::sign`. -/
def signRequest (body : AuthRequestBody) (signingKey : Bytes) :
    Routine HelperError SignedAuthRequest := do
  match body.canonicalBytes with
  | .error error => fail (.protocol error)
  | .ok bytes => do
      let signature : Bytes ← perform (Call.sign signingKey bytes)
      return { body := body, signature := signature }

/-- Everything that `run_request` has settled when it turns to the agent. -/
structure Prepared where
  request : SignedAuthRequest
  agentPubkey : Bytes
  socket : Bytes
  deadline : Nat
  allowedFutureSkewMs : UInt64
  replayCache : Option File

/-- A failure that ends `run_request` with the exit code of unsafe configurations. -/
def orUnsafeConfig {α ε : Type} (routine : Routine ε α) : Routine Stop α :=
  routine.mapError fun _ => .exit exitUnsafeConfig

def requireSome {α : Type} : Option α -> Routine Stop α
  | some value => pure value
  | none => fail (.exit exitUnsafeConfig)

/-- The directory of the replay cache, if one is configured. -/
def openReplayCache (path : Option Bytes) (rootOwned : Bool) : Routine IoError (Option File) :=
  match path with
  | none => pure none
  | some path => do
      let directory ← Trust.openPath path rootOwned true true
      return some directory

/-- The part of `run_request` up to the signed request. -/
def prepareRequest (crates : Crates) (args : RequestArgs) : Routine Stop Prepared := do
  let config ← orUnsafeConfig (loadHelperConfig crates args.config args.requireRootOwned)
  let signingKey ← orUnsafeConfig (loadSigningKey args.keyHex
    (args.keyFile <|> config.hostKeyFile) args.requireRootOwned)
  let agentPubkey ← orUnsafeConfig (loadPublicKey args.agentPubkeyHex
    (args.agentPubkeyFile <|> config.agentPubkeyFile) "agent public key"
    args.requireRootOwned)
  let socket ← requireSome ((args.socket <|> config.socketPath).filter isAbsolute)
  let keyId := (args.keyId <|> config.keyId).getD "host-key-1"
  let hostId ← requireSome (args.hostId <|> config.hostId)
  let hostname ← requireSome (args.hostname <|> config.hostname)
  let service := (args.service <|> config.service).getD "sudo"
  let timeoutMs := (args.timeoutMs <|> config.timeoutMs).getD 15000
  let allowedFutureSkewMs :=
    (args.allowedFutureSkewMs <|> config.allowedFutureSkewMs).getD 30000
  let replayCache ← orUnsafeConfig (openReplayCache
    (args.replayCacheDir <|> config.replayCacheDir) args.requireRootOwned)
  let now ← unixTimeMs.mapError .failed
  let budget ← orUnsafeConfig (operationBudget timeoutMs now)
  if [keyId, hostId, hostname, service, args.user].any fun value => trim value.toList == [] then
    fail (.exit exitUnsafeConfig)
  else
    let body ← (buildRequest now {
      keyId := keyId
      hostId := hostId
      hostname := hostname
      service := service
      user := args.user
      ruser := args.ruser
      rhost := args.rhost
      tty := args.tty
      sudoCommand := args.sudoCommand
    }).mapError .failed
    let request ← (signRequest { body with expiresAtMs := budget.2 } signingKey).mapError .failed
    return {
      request := request
      agentPubkey := agentPubkey
      socket := socket
      deadline := budget.1
      allowedFutureSkewMs := allowedFutureSkewMs
      replayCache := replayCache
    }

/-! ## The response -/

def verifyEd25519 (crates : Crates) (publicKey message signature : Bytes) :
    Routine ProtocolError Unit := do
  if publicKey.length ≠ 32 ∨ crates.isVerifyingKey publicKey = false then
    fail .invalidPublicKey
  else if signature.length ≠ 64 then
    fail .invalidSignatureLength
  else
    let valid : Bool ← perform (Call.verify publicKey message signature)
    if valid then pure () else fail .signatureVerificationFailed

/-- `SignedAuthResponse::verify`. -/
def verifyResponse (crates : Crates) (response : SignedAuthResponse) (publicKey : Bytes) :
    Routine ProtocolError Unit := do
  let bytes ← .done response.body.canonicalBytes
  verifyEd25519 crates publicKey bytes response.signature

/-- `SignedAuthResponse::verify_for_request`. -/
def verifyForRequest
    (crates : Crates)
    (response : SignedAuthResponse)
    (request : AuthRequestBody)
    (publicKey : Bytes) : Routine ProtocolError Unit := do
  verifyResponse crates response publicKey
  .done (response.body.verifyBinding crates.digest request)

def transportExit : TransportError -> Nat
  | .timeout => exitUnavailable
  | _ => exitProtocol

def exitCodeForDecision : Decision -> Nat
  | .approved => exitApproved
  | .denied => exitDenied
  | .unavailable => exitUnavailable
  | .cancelled => exitCancelled
  | .failed => exitFailed

/-- `read_json_frame` for a response. -/
def readResponse (crates : Crates) (deadline rounds : Nat) :
    Routine TransportError SignedAuthResponse := do
  let payload ← readFrame deadline rounds
  match crates.responseFromJson payload with
  | some response => pure response
  | none => fail .json

/-- The exchange with the agent. -/
def exchange (crates : Crates) (rounds : Nat) (prepared : Prepared) :
    Routine Stop SignedAuthResponse := do
  (connectStream prepared.socket prepared.deadline rounds).mapError fun _ =>
    .exit exitUnavailable
  (writeFrame prepared.deadline rounds (crates.requestToJson prepared.request)).mapError
    fun error => .exit (transportExit error)
  (readResponse crates prepared.deadline rounds).mapError fun error =>
    .exit (transportExit error)

/-- The last check of `run_request`. The wall clock is read only before the deadline. -/
def checkStillFresh (prepared : Prepared) : Routine Stop Unit := do
  let inTime ← (checkDeadline prepared.deadline).attempt
  if inTime = .ok () then do
    let now ← unixTimeMs.mapError .failed
    if prepared.request.body.verifyFreshness now prepared.allowedFutureSkewMs = .ok () then
      pure ()
    else
      fail (.exit exitUnavailable)
  else
    fail (.exit exitUnavailable)

/-- The part of `run_request` that judges a response. -/
def judgeResponse
    (crates : Crates)
    (rounds : Nat)
    (prepared : Prepared)
    (response : SignedAuthResponse) : Routine Stop Nat := do
  (verifyForRequest crates response prepared.request.body prepared.agentPubkey).mapError
    fun _ => .exit exitTamper
  screenResponse crates.digest rounds prepared.deadline prepared.request
    prepared.allowedFutureSkewMs prepared.replayCache response
  checkStillFresh prepared
  return exitCodeForDecision response.body.decision

def runRequest (crates : Crates) (rounds : Nat) (args : RequestArgs) : Routine Stop Nat := do
  let prepared ← prepareRequest crates args
  let response ← exchange crates rounds prepared
  judgeResponse crates rounds prepared response

/-- The exit code of the process. -/
def exitCode : Except Stop Nat -> Nat
  | .ok code => code
  | .error (.exit code) => code
  | .error (.failed _) => 1

end Helper
end MacosAuth
