import MacosAuth.Effect.Equality
import MacosAuth.Helper.Request

/-!
# Settings of a request

`run_request` merges its arguments with the configuration, one setting at a time, and
works with the merged settings from then on. Two configurations with the same merged
settings are therefore treated alike. They differ in what the command line does not
override, and in one thing that it should override: a key given in hexadecimal does not
replace a key file of the configuration but is in conflict with it.
-/

namespace MacosAuth
namespace Helper

open Codec
open Effect Effect.Program

/-! ## Merging -/

/-- What `run_request` takes from the configuration where the arguments are silent. -/
structure Settings where
  hostKeyFile : Option Bytes
  agentPubkeyFile : Option Bytes
  socket : Option Bytes
  keyId : String
  hostId : Option String
  hostname : Option String
  service : String
  timeoutMs : UInt64
  allowedFutureSkewMs : UInt64
  replayCacheDir : Option Bytes
  deriving DecidableEq

/-- The arguments come first, then the configuration, then the defaults. -/
def merge (args : RequestArgs) (config : HelperConfig) : Settings where
  hostKeyFile := args.keyFile <|> config.hostKeyFile
  agentPubkeyFile := args.agentPubkeyFile <|> config.agentPubkeyFile
  socket := args.socket <|> config.socketPath
  keyId := (args.keyId <|> config.keyId).getD "host-key-1"
  hostId := args.hostId <|> config.hostId
  hostname := args.hostname <|> config.hostname
  service := (args.service <|> config.service).getD "sudo"
  timeoutMs := (args.timeoutMs <|> config.timeoutMs).getD 15000
  allowedFutureSkewMs := (args.allowedFutureSkewMs <|> config.allowedFutureSkewMs).getD 30000
  replayCacheDir := args.replayCacheDir <|> config.replayCacheDir

/-- The preparation of a request after both keys have been loaded. -/
def prepareKeyed (args : RequestArgs) (settings : Settings) (signingKey agentPubkey : Bytes) :
    Routine Stop Prepared := do
  let socket ← requireSome (settings.socket.filter isAbsolute)
  let hostId ← requireSome settings.hostId
  let hostname ← requireSome settings.hostname
  let replayCache ← orUnsafeConfig (openReplayCache settings.replayCacheDir args.requireRootOwned)
  let now ← unixTimeMs.mapError .failed
  let budget ← orUnsafeConfig (operationBudget settings.timeoutMs now)
  if [settings.keyId, hostId, hostname, settings.service, args.user].any
      fun value => trim value.toList == [] then
    fail (.exit exitUnsafeConfig)
  else
    let body ← (buildRequest now {
      keyId := settings.keyId
      hostId := hostId
      hostname := hostname
      service := settings.service
      user := args.user
      ruser := args.ruser
      rhost := args.rhost
      tty := args.tty
      sudoCommand := args.sudoCommand
    }).mapError .failed
    let request ← (signRequest { body with expiresAtMs := budget.2 } signingKey).mapError .failed
    return {
      request := request
      agentPubkey := agentPubkey
      socket := socket
      deadline := budget.1
      allowedFutureSkewMs := settings.allowedFutureSkewMs
      replayCache := replayCache
    }

/-- The preparation after the private key has been loaded. -/
def preparePinned (args : RequestArgs) (settings : Settings) (signingKey : Bytes) :
    Routine Stop Prepared := do
  let agentPubkey ← orUnsafeConfig (loadPublicKey args.agentPubkeyHex settings.agentPubkeyFile
    "agent public key" args.requireRootOwned)
  prepareKeyed args settings signingKey agentPubkey

/-- The preparation with merged settings. -/
def prepareWith (args : RequestArgs) (settings : Settings) : Routine Stop Prepared := do
  let signingKey ← orUnsafeConfig (loadSigningKey args.keyHex settings.hostKeyFile
    args.requireRootOwned)
  preparePinned args settings signingKey

/-- What follows the preparation. -/
def proceed (crates : Crates) (rounds : Nat) (prepared : Prepared) : Routine Stop Nat := do
  let response ← exchange crates rounds prepared
  judgeResponse crates rounds prepared response

/-- `run_request` after it has loaded the configuration. -/
def runWith (crates : Crates) (rounds : Nat) (args : RequestArgs) (settings : Settings) :
    Routine Stop Nat :=
  prepareWith args settings >>= proceed crates rounds

/-- The configuration matters through the merged settings only. -/
theorem runRequest_eq
    (crates : Crates)
    (rounds : Nat)
    (args : RequestArgs) :
    runRequest crates rounds args =
      orUnsafeConfig (loadHelperConfig crates args.config args.requireRootOwned) >>=
        fun config => runWith crates rounds args (merge args config) := by
  have prepares : prepareRequest crates args =
      orUnsafeConfig (loadHelperConfig crates args.config args.requireRootOwned) >>=
        fun config => prepareWith args (merge args config) := rfl
  change prepareRequest crates args >>= proceed crates rounds = _
  rw [prepares, bind_assoc]
  rfl

end Helper
end MacosAuth
