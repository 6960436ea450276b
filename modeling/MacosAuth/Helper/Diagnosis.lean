import MacosAuth.Helper.Settings
import MacosAuth.Helper.TrustedFiles

/-!
# The check that has refused

Before it exits with the code of unsafe configurations, `run_request` prints which of its
checks has failed, and with what error. Here the preparation of a request keeps both. Without
them it is the preparation of the other modules.
-/

namespace MacosAuth
namespace Helper

open Codec
open Protocol (utf8)
open Effect Effect.Program

/-- The checks of `run_request` up to the signed request, in their order. -/
inductive Check
  | config
  | hostKey
  | agentKey
  | socket
  | hostId
  | hostname
  | replayCache
  | budget
  | identity
  deriving DecidableEq

/-- What is printed after `unsafe or invalid config: `, up to the error. -/
def Check.message : Check -> String
  | .config => "failed to load config: "
  | .hostKey => "failed to load host private key: "
  | .agentKey => "failed to load agent public key: "
  | .socket => "socket path must be present and absolute"
  | .hostId => "missing host id; provide --host-id or host_id in config"
  | .hostname => "missing hostname; provide --hostname or hostname in config"
  | .replayCache => "replay cache: "
  | .budget => ""
  | .identity => "request identity fields must not be empty"

/-- What is printed tells the checks apart. -/
theorem Check.message_injective : Function.Injective Check.message := by
  intro first second same
  cases first <;> cases second <;> first | rfl | exact absurd same (by decide)

/-- How a run ends early: a check has failed, some of them with an error, or it stops later. -/
inductive Report
  | refused (check : Check) (error : Option HelperError)
  | stopped (stop : Stop)
  deriving DecidableEq

/-- What remains of a report in the exit code. -/
def Report.stop : Report -> Stop
  | .refused _ _ => .exit exitUnsafeConfig
  | .stopped stop => stop

def orRefused {α : Type} (check : Check) (part : Routine HelperError α) : Routine Report α :=
  part.mapError fun error => .refused check (some error)

def requireGiven {α : Type} (check : Check) : Option α -> Routine Report α
  | some value => pure value
  | none => fail (.refused check none)

/-! ## The preparation -/

/-- The preparation of a request after both keys have been loaded. -/
def diagnoseKeyed (args : RequestArgs) (settings : Settings) (signingKey agentPubkey : Bytes) :
    Routine Report Prepared := do
  let socket ← requireGiven .socket (settings.socket.filter isAbsolute)
  let hostId ← requireGiven .hostId settings.hostId
  let hostname ← requireGiven .hostname settings.hostname
  let replayCache ← orRefused .replayCache
    ((openReplayCache settings.replayCacheDir args.requireRootOwned).mapError .io)
  let now ← unixTimeMs.mapError fun error => .stopped (.failed error)
  let budget ← orRefused .budget (operationBudget settings.timeoutMs now)
  if [settings.keyId, hostId, hostname, settings.service, args.user].any
      fun value => trim value.toList == [] then
    fail (.refused .identity none)
  else
    let body ← (buildRequest now {
      keyId := settings.keyId
      hostId := hostId
      hostname := hostname
      service := settings.service
      user := args.user
      ruser := args.ruser
      rhost := args.rhost
      tty := args.tty
      sudoCommand := args.sudoCommand
    }).mapError fun error => .stopped (.failed error)
    let request ← (signRequest { body with expiresAtMs := budget.2 } signingKey).mapError
      fun error => .stopped (.failed error)
    return {
      request := request
      agentPubkey := agentPubkey
      socket := socket
      deadline := budget.1
      allowedFutureSkewMs := settings.allowedFutureSkewMs
      replayCache := replayCache
    }

/-- The preparation after the private key has been loaded. -/
def diagnosePinned (args : RequestArgs) (settings : Settings) (signingKey : Bytes) :
    Routine Report Prepared := do
  let agentPubkey ← orRefused .agentKey (loadPublicKey args.agentPubkeyHex
    settings.agentPubkeyFile "agent public key" args.requireRootOwned)
  diagnoseKeyed args settings signingKey agentPubkey

/-- The preparation with merged settings. -/
def diagnoseWith (args : RequestArgs) (settings : Settings) : Routine Report Prepared := do
  let signingKey ← orRefused .hostKey (loadSigningKey args.keyHex settings.hostKeyFile
    args.requireRootOwned)
  diagnosePinned args settings signingKey

/-- `run_request` after it has loaded the configuration. -/
def diagnoseRun (crates : Crates) (rounds : Nat) (args : RequestArgs) (settings : Settings) :
    Routine Report Nat := do
  let prepared ← diagnoseWith args settings
  (proceed crates rounds prepared).mapError .stopped

/-- `run_request` after it has tried to load the configuration. -/
def afterLoading (crates : Crates) (rounds : Nat) (args : RequestArgs) :
    Except HelperError HelperConfig -> Routine Report Nat
  | .ok config => diagnoseRun crates rounds args (merge args config)
  | .error error => fail (.refused .config (some error))

def diagnoseRequest (crates : Crates) (rounds : Nat) (args : RequestArgs) :
    Routine Report Nat := do
  let loaded ← (loadHelperConfig crates args.config args.requireRootOwned).attempt
  afterLoading crates rounds args loaded

/-! ## Without the report -/

theorem mapError_orRefused
    {α : Type}
    (check : Check)
    (part : Routine HelperError α) :
    (orRefused check part).mapError Report.stop = orUnsafeConfig part :=
  mapError_mapError _ _ _

theorem mapError_requireGiven
    {α : Type}
    (check : Check)
    (value : Option α) :
    (requireGiven check value).mapError Report.stop = requireSome value := by
  cases value <;> rfl

theorem mapError_diagnoseKeyed
    (args : RequestArgs)
    (settings : Settings)
    (signingKey agentPubkey : Bytes) :
    (diagnoseKeyed args settings signingKey agentPubkey).mapError Report.stop =
      prepareKeyed args settings signingKey agentPubkey := by
  unfold diagnoseKeyed prepareKeyed
  simp only [mapError_bind, mapError_requireGiven, mapError_orRefused, mapError_mapError,
    Report.stop]
  refine bind_congr fun socket _ => bind_congr fun hostId _ => bind_congr fun hostname _ => ?_
  have opens : orUnsafeConfig ((openReplayCache settings.replayCacheDir
      args.requireRootOwned).mapError HelperError.io) =
      orUnsafeConfig (openReplayCache settings.replayCacheDir args.requireRootOwned) :=
    mapError_mapError _ _ _
  rw [opens]
  refine bind_congr fun replayCache _ => bind_congr fun now _ => bind_congr fun budget _ => ?_
  split
  · rfl
  · simp only [mapError_bind, mapError_mapError, Report.stop]
    rfl

theorem mapError_diagnoseWith (args : RequestArgs) (settings : Settings) :
    (diagnoseWith args settings).mapError Report.stop = prepareWith args settings := by
  unfold diagnoseWith diagnosePinned prepareWith preparePinned
  simp only [mapError_bind, mapError_orRefused, mapError_diagnoseKeyed]

theorem mapError_diagnoseRun
    (crates : Crates)
    (rounds : Nat)
    (args : RequestArgs)
    (settings : Settings) :
    (diagnoseRun crates rounds args settings).mapError Report.stop =
      runWith crates rounds args settings := by
  have forgets (prepared : Prepared) :
      ((proceed crates rounds prepared).mapError Report.stopped).mapError Report.stop =
        proceed crates rounds prepared := by
    rw [mapError_mapError]
    exact mapError_id _
  unfold diagnoseRun runWith
  simp only [mapError_bind, mapError_diagnoseWith, forgets]

/-- The calls and the exit code are those of `run_request`. -/
theorem mapError_diagnoseRequest
    (crates : Crates)
    (rounds : Nat)
    (args : RequestArgs) :
    (diagnoseRequest crates rounds args).mapError Report.stop = runRequest crates rounds args := by
  have passes (error : HelperError) :
      afterLoading crates rounds args (.error error) = fail (.refused .config (some error)) :=
    rfl
  unfold diagnoseRequest
  rw [attempt_bind_eq _ passes, mapError_bind, mapError_mapError, runRequest_eq]
  simp only [afterLoading, mapError_diagnoseRun]
  rfl

/-! ## The text of a configuration -/

/-- What `load_helper_config` makes of what it has read. -/
def configOfContents (crates : Crates) (contents : String) : Except HelperError HelperConfig :=
  if maxFrameLen < (utf8 contents).length then
    .error (.message "trusted file is too large")
  else
    match crates.configFromToml contents with
    | some config => .ok config
    | none => .error .toml

/-- `load_helper_config` for a file with this text. Of a file that is too large, only the
beginning is read, which may end within a character. -/
def configOfText (crates : Crates) (text : String) : Except HelperError HelperConfig :=
  match decodeUtf8 ((utf8 text).take (maxFrameLen + 1)) with
  | some contents => configOfContents crates contents
  | none => .error (.io .notUtf8)

/-- A file of at most 1 MiB is read whole. -/
theorem configOfText_of_fits
    {crates : Crates}
    {text : String}
    (fits : (utf8 text).length ≤ maxFrameLen) :
    configOfText crates text = (crates.configFromToml text).elim (.error .toml) .ok := by
  unfold configOfText
  rw [List.take_of_length_le (by omega), decodeUtf8_utf8]
  dsimp only
  rw [configOfContents, if_neg (Nat.not_lt.mpr fits)]
  cases crates.configFromToml text <;> rfl

/-- Of a larger file, more than 1 MiB is read, unless that ends within a character. -/
theorem configOfText_of_large
    {crates : Crates}
    {text : String}
    (large : maxFrameLen < (utf8 text).length) :
    configOfText crates text =
      .error (if (decodeUtf8 ((utf8 text).take (maxFrameLen + 1))).isNone then
        .io .notUtf8
      else
        .message "trusted file is too large") := by
  unfold configOfText
  cases decoded : decodeUtf8 ((utf8 text).take (maxFrameLen + 1)) with
  | none => rfl
  | some contents =>
      have length : (utf8 contents).length = maxFrameLen + 1 := by
        rw [utf8_of_decodeUtf8 decoded, List.length_take]
        omega
      dsimp only
      rw [configOfContents, if_pos (by omega)]
      rfl

/-- What is loaded is a file that is read whole and has the settings of a configuration. -/
theorem configOfText_eq_ok_iff
    {crates : Crates}
    {text : String}
    {config : HelperConfig} :
    configOfText crates text = .ok config ↔
      (utf8 text).length ≤ maxFrameLen ∧ crates.configFromToml text = some config := by
  by_cases fits : (utf8 text).length ≤ maxFrameLen
  · rw [configOfText_of_fits fits]
    cases crates.configFromToml text with
    | none => simp
    | some other => simp [fits]
  · rw [configOfText_of_large (Nat.not_le.mp fits)]
    exact iff_of_false (by simp) fun loaded => fits loaded.1

/-- On a disk that has the text at a trusted path, this is what is loaded. -/
theorem reading_loadHelperConfig
    {disk : Disk}
    {past : List HelperEvent}
    {path : Bytes}
    {rootOwned : Bool}
    {file : File}
    {text : String}
    (crates : Crates)
    (passes : disk.Passes path rootOwned false false file)
    (contents : disk.contents file = utf8 text) :
    (loadHelperConfig crates (some path) rootOwned).Meets disk.reading past
      fun _ result => result = configOfText crates text := by
  unfold loadHelperConfig readTrustedFile configOfText
  rw [← contents]
  dsimp only
  rw [bind_assoc]
  refine Meets.mapError_bind (reading_openPath passes) ?_ fun _ _ failed => absurd failed (by simp)
  intro _ opened equal
  obtain rfl := Except.ok.inj equal
  rw [bind_assoc]
  refine Meets.mapError_bind (reading_readToString _) ?_ ?_
  · intro _ read equal
    cases decoded : decodeUtf8 ((disk.contents opened).take (maxFrameLen + 1)) with
    | none => exact absurd equal (by simp [decoded])
    | some text =>
        rw [decoded] at equal
        obtain rfl : read = text := Except.ok.inj equal
        dsimp only
        unfold configOfContents
        split
        · exact rfl
        · change Meets disk.reading (Program.bind (.done (.ok read)) _) _ _
          simp only [Program.bind]
          cases crates.configFromToml read with
          | none => exact rfl
          | some config => exact rfl
  · intro _ error equal
    cases decoded : decodeUtf8 ((disk.contents opened).take (maxFrameLen + 1)) with
    | none =>
        rw [decoded] at equal
        obtain rfl := Except.error.inj equal
        exact rfl
    | some text => exact absurd equal (by simp [decoded])

end Helper
end MacosAuth
