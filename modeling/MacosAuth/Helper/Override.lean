import MacosAuth.Helper.KeySources
import MacosAuth.Helper.PrepareConfig

/-!
# The command line against the configuration

Two configuration files that differ only in what the command line sets should be treated
alike. They are, with two exceptions. A file is loaded as a whole, so an overridden setting
can still keep it from being loaded. And a key given in hexadecimal does not replace a key
file of the configuration but is in conflict with it.
-/

namespace MacosAuth
namespace Helper

open Codec
open Protocol (utf8)
open Effect Effect.Program

/-! ## Overridden settings -/

/-- The settings of a configuration, and whether there is an argument for them. -/
def settingsOf (args : RequestArgs) : List (String × Bool) :=
  [ ("socket_path", args.socket.isSome),
    ("host_key_file", args.keyHex.isSome || args.keyFile.isSome),
    ("agent_pubkey_file", args.agentPubkeyHex.isSome || args.agentPubkeyFile.isSome),
    ("key_id", args.keyId.isSome),
    ("host_id", args.hostId.isSome),
    ("hostname", args.hostname.isSome),
    ("service", args.service.isSome),
    ("timeout_ms", args.timeoutMs.isSome),
    ("allowed_future_skew_ms", args.allowedFutureSkewMs.isSome),
    ("replay_cache_dir", args.replayCacheDir.isSome) ]

def Overrides (args : RequestArgs) (field : String) : Prop :=
  (field, true) ∈ settingsOf args

instance (args : RequestArgs) (field : String) : Decidable (Overrides args field) :=
  inferInstanceAs (Decidable (_ ∈ _))

/-- A configuration file that is TOML. -/
structure ConfigFile (parse : String -> Option Table) where
  text : String
  table : Table
  parsed : parse text = some table

variable {parse : String -> Option Table}

/-- The files differ only in settings for which there is an argument. -/
def DifferInOverridden (args : RequestArgs) (first second : ConfigFile parse) : Prop :=
  ∀ field, ¬Overrides args field -> first.table.lookup field = second.table.lookup field

/-- What a configuration has been read from. -/
structure ReadFrom (table : Table) (config : HelperConfig) : Prop where
  socketPath : pathField table "socket_path" = some config.socketPath
  hostKeyFile : pathField table "host_key_file" = some config.hostKeyFile
  agentPubkeyFile : pathField table "agent_pubkey_file" = some config.agentPubkeyFile
  keyId : stringField table "key_id" = some config.keyId
  hostId : stringField table "host_id" = some config.hostId
  hostname : stringField table "hostname" = some config.hostname
  service : stringField table "service" = some config.service
  timeoutMs : u64Field table "timeout_ms" = some config.timeoutMs
  allowedFutureSkewMs :
    u64Field table "allowed_future_skew_ms" = some config.allowedFutureSkewMs
  replayCacheDir : pathField table "replay_cache_dir" = some config.replayCacheDir

theorem readFrom_of_ofTable
    {table : Table}
    {config : HelperConfig}
    (typed : HelperConfig.ofTable table = some config) :
    ReadFrom table config := by
  simp only [HelperConfig.ofTable, Option.bind_eq_bind, Option.bind_eq_some_iff] at typed
  obtain ⟨_, socketPath, _, hostKeyFile, _, agentPubkeyFile, _, keyId, _, hostId, _, hostname,
    _, service, _, timeoutMs, _, allowedFutureSkewMs, _, replayCacheDir, built⟩ := typed
  obtain rfl := Option.some.inj built
  exact ⟨socketPath, hostKeyFile, agentPubkeyFile, keyId, hostId, hostname, service, timeoutMs,
    allowedFutureSkewMs, replayCacheDir⟩

section Fields

variable {first second : Table} {field : String}

theorem stringField_congr (same : first.lookup field = second.lookup field) :
    stringField first field = stringField second field := by
  unfold stringField
  rw [same]

theorem pathField_congr (same : first.lookup field = second.lookup field) :
    pathField first field = pathField second field := by
  unfold pathField
  rw [stringField_congr same]

theorem u64Field_congr (same : first.lookup field = second.lookup field) :
    u64Field first field = u64Field second field := by
  unfold u64Field
  rw [same]

end Fields

theorem eq_of_read
    {α : Type}
    {first second : Option α}
    {one two : α}
    (readOne : first = some one)
    (readTwo : second = some two)
    (same : first = second) :
    one = two := by
  rw [readOne, readTwo] at same
  exact Option.some.inj same

/-- The configurations differ only in settings for which there is an argument. -/
structure SameElsewhere (args : RequestArgs) (first second : HelperConfig) : Prop where
  socketPath : args.socket = none -> first.socketPath = second.socketPath
  hostKeyFile : args.keyHex = none -> args.keyFile = none ->
    first.hostKeyFile = second.hostKeyFile
  agentPubkeyFile : args.agentPubkeyHex = none -> args.agentPubkeyFile = none ->
    first.agentPubkeyFile = second.agentPubkeyFile
  keyId : args.keyId = none -> first.keyId = second.keyId
  hostId : args.hostId = none -> first.hostId = second.hostId
  hostname : args.hostname = none -> first.hostname = second.hostname
  service : args.service = none -> first.service = second.service
  timeoutMs : args.timeoutMs = none -> first.timeoutMs = second.timeoutMs
  allowedFutureSkewMs : args.allowedFutureSkewMs = none ->
    first.allowedFutureSkewMs = second.allowedFutureSkewMs
  replayCacheDir : args.replayCacheDir = none -> first.replayCacheDir = second.replayCacheDir

theorem DifferInOverridden.sameElsewhere
    {args : RequestArgs}
    {first second : ConfigFile parse}
    {one two : HelperConfig}
    (differ : DifferInOverridden args first second)
    (typedOne : HelperConfig.ofTable first.table = some one)
    (typedTwo : HelperConfig.ofTable second.table = some two) :
    SameElsewhere args one two := by
  have readOne := readFrom_of_ofTable typedOne
  have readTwo := readFrom_of_ofTable typedTwo
  have same (field : String) (silent : ¬Overrides args field) := differ field silent
  exact {
    socketPath := fun silent => eq_of_read readOne.socketPath readTwo.socketPath
      (pathField_congr (same _ (by simp [Overrides, settingsOf, silent])))
    hostKeyFile := fun noHex noFile => eq_of_read readOne.hostKeyFile readTwo.hostKeyFile
      (pathField_congr (same _ (by simp [Overrides, settingsOf, noHex, noFile])))
    agentPubkeyFile := fun noHex noFile =>
      eq_of_read readOne.agentPubkeyFile readTwo.agentPubkeyFile
        (pathField_congr (same _ (by simp [Overrides, settingsOf, noHex, noFile])))
    keyId := fun silent => eq_of_read readOne.keyId readTwo.keyId
      (stringField_congr (same _ (by simp [Overrides, settingsOf, silent])))
    hostId := fun silent => eq_of_read readOne.hostId readTwo.hostId
      (stringField_congr (same _ (by simp [Overrides, settingsOf, silent])))
    hostname := fun silent => eq_of_read readOne.hostname readTwo.hostname
      (stringField_congr (same _ (by simp [Overrides, settingsOf, silent])))
    service := fun silent => eq_of_read readOne.service readTwo.service
      (stringField_congr (same _ (by simp [Overrides, settingsOf, silent])))
    timeoutMs := fun silent => eq_of_read readOne.timeoutMs readTwo.timeoutMs
      (u64Field_congr (same _ (by simp [Overrides, settingsOf, silent])))
    allowedFutureSkewMs := fun silent =>
      eq_of_read readOne.allowedFutureSkewMs readTwo.allowedFutureSkewMs
        (u64Field_congr (same _ (by simp [Overrides, settingsOf, silent])))
    replayCacheDir := fun silent => eq_of_read readOne.replayCacheDir readTwo.replayCacheDir
      (pathField_congr (same _ (by simp [Overrides, settingsOf, silent]))) }

/-! ## Merging -/

theorem orElse_congr
    {α : Type}
    {given first second : Option α}
    (same : given = none -> first = second) :
    (given <|> first) = (given <|> second) := by
  cases given with
  | none => exact same rfl
  | some value => rfl

section Merging

variable {args : RequestArgs} {first second : HelperConfig}

theorem SameElsewhere.hostKeyFiles
    (same : SameElsewhere args first second)
    (noHex : args.keyHex = none) :
    (merge args first).hostKeyFile = (merge args second).hostKeyFile :=
  orElse_congr (same.hostKeyFile noHex)

theorem SameElsewhere.agentPubkeyFiles
    (same : SameElsewhere args first second)
    (noHex : args.agentPubkeyHex = none) :
    (merge args first).agentPubkeyFile = (merge args second).agentPubkeyFile :=
  orElse_congr (same.agentPubkeyFile noHex)

/-- Merging leaves no other difference than the key files. -/
theorem SameElsewhere.merge_eq (same : SameElsewhere args first second) :
    merge args second = { merge args first with
      hostKeyFile := (merge args second).hostKeyFile
      agentPubkeyFile := (merge args second).agentPubkeyFile } := by
  simp only [merge, orElse_congr same.socketPath, orElse_congr same.keyId,
    orElse_congr same.hostId, orElse_congr same.hostname, orElse_congr same.service,
    orElse_congr same.timeoutMs, orElse_congr same.allowedFutureSkewMs,
    orElse_congr same.replayCacheDir]

end Merging

/-! ## Reports of later checks -/

/-- The report is not about this check. -/
def NotAt (check : Check) (report : Report) : Prop :=
  ∀ error, report ≠ .refused check error

section Later

variable {check : Check} {α : Type}

theorem failsWith_orRefused
    {other : Check}
    (later : other ≠ check)
    (part : Routine HelperError α) :
    FailsWith (NotAt check) (orRefused other part) :=
  failsWith_mapError (fun _ _ same => later (Report.refused.inj same).1) part

theorem failsWith_requireGiven
    {other : Check}
    (later : other ≠ check)
    (value : Option α) :
    FailsWith (NotAt check) (requireGiven other value) := by
  cases value with
  | none => exact failsWith_fail fun _ same => later (Report.refused.inj same).1
  | some value => exact failsWith_pure value

theorem failsWith_proceed
    (crates : Crates)
    (rounds : Nat)
    (prepared : Prepared) :
    FailsWith (NotAt check) ((proceed crates rounds prepared).mapError .stopped) :=
  failsWith_mapError (fun _ _ => Report.noConfusion) _

/-- The checks after the keys are none of the earlier ones. -/
theorem failsWith_diagnoseKeyed
    (early : check ∈ [Check.config, .hostKey, .agentKey])
    (args : RequestArgs)
    (settings : Settings)
    (signingKey agentPubkey : Bytes) :
    FailsWith (NotAt check) (diagnoseKeyed args settings signingKey agentPubkey) := by
  have later (other : Check) (notEarly : other ∉ [Check.config, .hostKey, .agentKey]) :
      other ≠ check :=
    fun same => notEarly (same ▸ early)
  have stops (error : HelperError) : NotAt check (.stopped (.failed error)) :=
    fun _ => Report.noConfusion
  unfold diagnoseKeyed
  refine (failsWith_requireGiven (later _ (by decide)) _).bind fun socket => ?_
  refine (failsWith_requireGiven (later _ (by decide)) _).bind fun hostId => ?_
  refine (failsWith_requireGiven (later _ (by decide)) _).bind fun hostname => ?_
  refine (failsWith_orRefused (later _ (by decide)) _).bind fun cache => ?_
  refine (failsWith_mapError stops _).bind fun now => ?_
  refine (failsWith_orRefused (later _ (by decide)) _).bind fun budget => ?_
  split
  · exact failsWith_fail fun _ same => later .identity (by decide) (Report.refused.inj same).1
  · refine (failsWith_mapError stops _).bind fun body => ?_
    exact (failsWith_mapError stops _).bind fun request => failsWith_pure _

theorem failsWith_diagnosePinned
    (early : check ∈ [Check.config, .hostKey])
    (args : RequestArgs)
    (settings : Settings)
    (signingKey : Bytes) :
    FailsWith (NotAt check) (diagnosePinned args settings signingKey) := by
  refine (failsWith_orRefused ?_ _).bind fun agentPubkey => ?_
  · rintro rfl
    exact absurd early (by decide)
  · exact failsWith_diagnoseKeyed (List.mem_append_left [Check.agentKey] early) _ _ _ _

theorem failsWith_diagnoseRun
    (crates : Crates)
    (rounds : Nat)
    (args : RequestArgs)
    (settings : Settings) :
    FailsWith (NotAt .config) (diagnoseRun crates rounds args settings) := by
  refine FailsWith.bind ?_ fun prepared => failsWith_proceed crates rounds prepared
  refine (failsWith_orRefused (by decide) _).bind fun signingKey => ?_
  exact failsWith_diagnosePinned (by decide) _ _ _

end Later

/-! ## Conflicts in a run -/

section Conflicts

variable {α : Type} {load : Option String -> Option Bytes -> Routine HelperError Bytes}
variable {conflict : String} {check : Check} {hex : Option String} {first second : Option Bytes}

theorem LoadsKey.refused
    (loads : LoadsKey load conflict)
    (both : Conflict hex first)
    (next : Bytes -> Routine Report α) :
    orRefused check (load hex first) >>= next =
      fail (.refused check (some (.message conflict))) := by
  obtain ⟨given, named⟩ := both
  obtain ⟨hex, rfl⟩ := Option.isSome_iff_exists.mp given
  obtain ⟨path, rfl⟩ := Option.isSome_iff_exists.mp named
  rw [loads.both]
  rfl

/-- A text without a file is not refused as a conflict. -/
theorem LoadsKey.ne_refused
    (loads : LoadsKey load conflict)
    {next : Bytes -> Routine Report α}
    (later : ∀ key, FailsWith (NotAt check) (next key))
    (hex : String) :
    orRefused check (load (some hex) none) >>= next ≠
      fail (.refused check (some (.message conflict))) := by
  have fails : FailsWith (· ≠ .refused check (some (.message conflict)))
      (orRefused check (load (some hex) none) >>= next) := by
    refine FailsWith.bind ?_ fun key => ?_
    · refine (loads.failsWith hex).mapError fun error other same => other ?_
      exact Option.some.inj (Report.refused.inj same).2
    · exact (later key).mono fun report notAt => notAt _
  exact fails.ne_fail fun other => other rfl

/-- When loading a key from two pairs of sources has the same outcome, and other checks
follow, both pairs are in conflict or none is. -/
theorem LoadsKey.conflict_iff
    (loads : LoadsKey load conflict)
    {nextOne nextTwo : Bytes -> Routine Report α}
    (laterOne : ∀ key, FailsWith (NotAt check) (nextOne key))
    (laterTwo : ∀ key, FailsWith (NotAt check) (nextTwo key))
    (equal : orRefused check (load hex first) >>= nextOne =
      orRefused check (load hex second) >>= nextTwo) :
    Conflict hex first ↔ Conflict hex second := by
  cases hex with
  | none => exact iff_of_false (fun both => nomatch both.1) fun both => nomatch both.1
  | some hex =>
      cases first with
      | none =>
          cases second with
          | none => exact Iff.rfl
          | some path =>
              exact absurd (equal.trans (loads.refused ⟨rfl, rfl⟩ nextTwo))
                (loads.ne_refused laterOne hex)
      | some path =>
          cases second with
          | none =>
              exact absurd (equal.symm.trans (loads.refused ⟨rfl, rfl⟩ nextOne))
                (loads.ne_refused laterTwo hex)
          | some other => exact iff_of_true ⟨rfl, rfl⟩ ⟨rfl, rfl⟩

end Conflicts

/-! ## Two configurations -/

section Configurations

variable {crates : Crates} {rounds : Nat} {args : RequestArgs} {one two : HelperConfig}

/-- The run after both keys. -/
def keyedRun (crates : Crates) (rounds : Nat) (args : RequestArgs) (settings : Settings)
    (signingKey agentPubkey : Bytes) : Routine Report Nat := do
  let prepared ← diagnoseKeyed args settings signingKey agentPubkey
  (proceed crates rounds prepared).mapError .stopped

/-- The run after the private key. -/
def pinnedRun (crates : Crates) (rounds : Nat) (args : RequestArgs) (settings : Settings)
    (signingKey : Bytes) : Routine Report Nat := do
  let agentPubkey ← orRefused .agentKey (loadPublicKey args.agentPubkeyHex
    settings.agentPubkeyFile "agent public key" args.requireRootOwned)
  keyedRun crates rounds args settings signingKey agentPubkey

theorem diagnoseRun_eq (settings : Settings) :
    diagnoseRun crates rounds args settings =
      orRefused .hostKey (loadSigningKey args.keyHex settings.hostKeyFile
        args.requireRootOwned) >>= pinnedRun crates rounds args settings := by
  unfold diagnoseRun diagnoseWith diagnosePinned
  simp only [bind_assoc]
  rfl

theorem failsWith_keyedRun
    {check : Check}
    (early : check ∈ [Check.config, .hostKey, .agentKey])
    (settings : Settings)
    (signingKey agentPubkey : Bytes) :
    FailsWith (NotAt check) (keyedRun crates rounds args settings signingKey agentPubkey) :=
  (failsWith_diagnoseKeyed early _ _ _ _).bind fun prepared =>
    failsWith_proceed crates rounds prepared

theorem failsWith_pinnedRun (settings : Settings) (signingKey : Bytes) :
    FailsWith (NotAt .hostKey) (pinnedRun crates rounds args settings signingKey) :=
  (failsWith_orRefused (by decide) _).bind fun agentPubkey =>
    failsWith_keyedRun (by decide) settings signingKey agentPubkey

/-- With the same private key, only a conflict of the other key makes a difference. -/
theorem pinnedRun_eq_iff
    (development : args.requireRootOwned = false)
    (same : SameElsewhere args one two)
    (hostSame : (merge args one).hostKeyFile = (merge args two).hostKeyFile)
    (signingKey : Bytes) :
    pinnedRun crates rounds args (merge args one) signingKey =
        pinnedRun crates rounds args (merge args two) signingKey ↔
      (Conflict args.agentPubkeyHex (merge args one).agentPubkeyFile ↔
        Conflict args.agentPubkeyHex (merge args two).agentPubkeyFile) := by
  unfold pinnedRun
  rw [development]
  constructor
  · exact fun equal => loadsKey_loadPublicKey.conflict_iff
      (fun key => failsWith_keyedRun (by decide) _ _ key)
      (fun key => failsWith_keyedRun (by decide) _ _ key) equal
  · intro agree
    rcases eq_or_conflict same.agentPubkeyFiles agree with agentSame | ⟨bothOne, bothTwo⟩
    · rw [same.merge_eq, ← hostSame, ← agentSame]
    · rw [loadsKey_loadPublicKey.refused bothOne, loadsKey_loadPublicKey.refused bothTwo]

/-- The keys in hexadecimal are in conflict with key files in both configurations or in
neither. The second key does not matter when the first cannot be loaded. -/
def KeysAgree (args : RequestArgs) (hostOne hostTwo agentOne agentTwo : Option Bytes) : Prop :=
  (Conflict args.keyHex hostOne ↔ Conflict args.keyHex hostTwo) ∧
    ((Conflict args.agentPubkeyHex agentOne ↔ Conflict args.agentPubkeyHex agentTwo) ∨
      ¬Loadable args.keyHex hostOne)

theorem diagnoseRun_eq_iff
    (development : args.requireRootOwned = false)
    (same : SameElsewhere args one two) :
    diagnoseRun crates rounds args (merge args one) =
        diagnoseRun crates rounds args (merge args two) ↔
      KeysAgree args (merge args one).hostKeyFile (merge args two).hostKeyFile
        (merge args one).agentPubkeyFile (merge args two).agentPubkeyFile := by
  rw [diagnoseRun_eq, diagnoseRun_eq, development]
  constructor
  · intro equal
    have hostAgree := loadsKey_loadSigningKey.conflict_iff (failsWith_pinnedRun _)
      (failsWith_pinnedRun _) equal
    refine ⟨hostAgree, ?_⟩
    by_cases loadable : Loadable args.keyHex (merge args one).hostKeyFile
    · left
      rcases eq_or_conflict same.hostKeyFiles hostAgree with hostSame | ⟨both, -⟩
      · obtain ⟨key, returns⟩ := canReturn_loadSigningKey_iff.mpr loadable
        rw [← hostSame] at equal
        have continued := eq_of_bind_eq equal (canReturn_mapError.mpr returns)
        exact (pinnedRun_eq_iff development same hostSame key).mp continued
      · exact absurd loadable (not_loadable_of_conflict both)
    · exact .inr loadable
  · rintro ⟨hostAgree, rest⟩
    rcases eq_or_conflict same.hostKeyFiles hostAgree with hostSame | ⟨bothOne, bothTwo⟩
    · rw [← hostSame]
      refine bind_congr fun key returns => ?_
      rcases rest with agentAgree | unloadable
      · exact (pinnedRun_eq_iff development same hostSame key).mpr agentAgree
      · exact absurd (canReturn_loadSigningKey_iff.mp ⟨key, canReturn_mapError.mp returns⟩)
          unloadable
    · rw [loadsKey_loadSigningKey.refused bothOne, loadsKey_loadSigningKey.refused bothTwo]

end Configurations

/-! ## Two files -/

/-- The file is read whole, and every setting in it, overridden or not, has its type. -/
def ConfigFile.Loads (file : ConfigFile parse) : Prop :=
  (utf8 file.text).length ≤ maxFrameLen ∧ (HelperConfig.ofTable file.table).isSome

/-- Only the beginning of the file is read. -/
def ConfigFile.isTooLarge (file : ConfigFile parse) : Bool :=
  maxFrameLen < (utf8 file.text).length

/-- What is read of the file ends within a character. -/
def ConfigFile.isCut (file : ConfigFile parse) : Bool :=
  (decodeUtf8 ((utf8 file.text).take (maxFrameLen + 1))).isNone

/-- The file of the private key, on the command line or else in the configuration. -/
def hostKeyPath (args : RequestArgs) (table : Table) : Option Bytes :=
  args.keyFile <|> (pathField table "host_key_file").join

/-- The file of the agent's key, on the command line or else in the configuration. -/
def agentPubkeyPath (args : RequestArgs) (table : Table) : Option Bytes :=
  args.agentPubkeyFile <|> (pathField table "agent_pubkey_file").join

/-- Both files are loaded, and the keys in hexadecimal are in conflict with both or with
neither; or neither file is loaded, for its size or for its settings. -/
def FilesAgree
    (args : RequestArgs)
    (first second : ConfigFile parse) : Prop :=
  (first.Loads ∧ second.Loads ∧
      KeysAgree args (hostKeyPath args first.table) (hostKeyPath args second.table)
        (agentPubkeyPath args first.table) (agentPubkeyPath args second.table)) ∨
    (¬first.Loads ∧ ¬second.Loads ∧
      first.isTooLarge = second.isTooLarge ∧ first.isCut = second.isCut)

/-- Whatever `run_request` does after it has read the first text, it does after the second:
the same calls and the same checks, with the same report, request and exit code in every
environment. -/
def TreatedAlike
    (crates : Crates)
    (rounds : Nat)
    (args : RequestArgs)
    (first second : String) : Prop :=
  afterLoading crates rounds args (configOfText crates first) =
    afterLoading crates rounds args (configOfText crates second)

section Files

variable {crates : Crates} {args : RequestArgs} {file : ConfigFile parse}

theorem ConfigFile.Loads.exists_config
    (reads : ∀ text, crates.configFromToml text = (parse text).bind HelperConfig.ofTable)
    (loads : file.Loads) :
    ∃ config, HelperConfig.ofTable file.table = some config ∧
      configOfText crates file.text = .ok config := by
  obtain ⟨fits, typed⟩ := loads
  obtain ⟨config, built⟩ := Option.isSome_iff_exists.mp typed
  refine ⟨config, built, configOfText_eq_ok_iff.mpr ⟨fits, ?_⟩⟩
  rw [reads, file.parsed]
  exact built

/-- The error for a file that is not loaded. -/
def ConfigFile.refusal (file : ConfigFile parse) : HelperError :=
  if file.isCut then
    .io .notUtf8
  else if file.isTooLarge then
    .message "trusted file is too large"
  else
    .toml

/-- A whole file does not end within a character. -/
theorem ConfigFile.isTooLarge_of_isCut (cut : file.isCut = true) : file.isTooLarge = true := by
  by_contra small
  have fits : (utf8 file.text).length ≤ maxFrameLen := by
    simpa [isTooLarge] using small
  rw [isCut, List.take_of_length_le (by omega), decodeUtf8_utf8] at cut
  cases cut

theorem ConfigFile.refused
    (reads : ∀ text, crates.configFromToml text = (parse text).bind HelperConfig.ofTable)
    (notLoaded : ¬file.Loads) :
    configOfText crates file.text = .error file.refusal := by
  by_cases fits : (utf8 file.text).length ≤ maxFrameLen
  · have whole : file.isTooLarge = false := by
      simpa [isTooLarge] using fits
    have uncut : file.isCut = false := by
      by_contra cut
      rw [isTooLarge_of_isCut (by simpa using cut)] at whole
      cases whole
    have illTyped : HelperConfig.ofTable file.table = none := by
      by_contra typed
      exact notLoaded ⟨fits, Option.isSome_iff_ne_none.mpr typed⟩
    rw [configOfText_of_fits fits, reads, file.parsed, Option.bind_some, illTyped, refusal, whole,
      uncut]
    rfl
  · have large : file.isTooLarge = true := by
      simpa [isTooLarge] using fits
    rw [configOfText_of_large (Nat.not_le.mp fits), refusal, large]
    rfl

/-- The error tells how much of the file has been read. -/
theorem ConfigFile.refusal_eq_iff {first second : ConfigFile parse} :
    first.refusal = second.refusal ↔
      first.isTooLarge = second.isTooLarge ∧ first.isCut = second.isCut := by
  have firstCut : first.isCut = true -> first.isTooLarge = true := isTooLarge_of_isCut
  have secondCut : second.isCut = true -> second.isTooLarge = true := isTooLarge_of_isCut
  unfold refusal
  cases cutOne : first.isCut <;> cases cutTwo : second.isCut <;>
    cases largeOne : first.isTooLarge <;> cases largeTwo : second.isTooLarge <;> simp_all

theorem merge_hostKeyFile
    {table : Table}
    {config : HelperConfig}
    (typed : HelperConfig.ofTable table = some config) :
    (merge args config).hostKeyFile = hostKeyPath args table := by
  rw [hostKeyPath, (readFrom_of_ofTable typed).hostKeyFile]
  rfl

theorem merge_agentPubkeyFile
    {table : Table}
    {config : HelperConfig}
    (typed : HelperConfig.ofTable table = some config) :
    (merge args config).agentPubkeyFile = agentPubkeyPath args table := by
  rw [agentPubkeyPath, (readFrom_of_ofTable typed).agentPubkeyFile]
  rfl

end Files

/-- All settings of a request on the command line, the keys in hexadecimal. -/
def inlineArgs : RequestArgs where
  requireRootOwned := false
  config := some (utf8 "config.toml")
  socket := some (utf8 "/run/agent.sock")
  keyHex := some zeros
  keyFile := none
  agentPubkeyHex := some zeros
  agentPubkeyFile := none
  keyId := some "host-key-1"
  hostId := some "web"
  hostname := some "web"
  service := some "sudo"
  user := "ada"
  ruser := none
  rhost := none
  tty := none
  sudoCommand := none
  timeoutMs := some 15000
  allowedFutureSkewMs := some 30000
  replayCacheDir := none

/-- Files with a few settings. The command line overrides all but the replay cache. -/
def inlineFiles : List (String × Table) :=
  [ ("", ∅),
    ("host_key_file = \"/etc/macos-auth/host.key\"\n",
      (∅ : Table).insert "host_key_file" (.string "/etc/macos-auth/host.key")),
    ("timeout_ms = -1\n", (∅ : Table).insert "timeout_ms" (.integer (-1))),
    ("replay_cache_dir = \"/var/cache/macos-auth\"\n",
      (∅ : Table).insert "replay_cache_dir" (.string "/var/cache/macos-auth")),
    ("replay_cache_dir = \"/var/cache/macos-auth\"\nhostname = \"db\"\n",
      ((∅ : Table).insert "replay_cache_dir" (.string "/var/cache/macos-auth")).insert
        "hostname" (.string "db")) ]

/-- TOML, as far as these files use it. -/
def inlineParse (text : String) : Option Table :=
  inlineFiles.lookup text

def inlineCrates : Crates where
  digest _ := []
  configFromToml text := (inlineParse text).bind HelperConfig.ofTable
  requestToJson _ := []
  responseFromJson _ := none
  isVerifyingKey _ := true

def emptyFile : ConfigFile inlineParse :=
  ⟨"", _, rfl⟩

def keyFile : ConfigFile inlineParse :=
  ⟨"host_key_file = \"/etc/macos-auth/host.key\"\n", _, rfl⟩

def negativeFile : ConfigFile inlineParse :=
  ⟨"timeout_ms = -1\n", _, rfl⟩

def cacheFile : ConfigFile inlineParse :=
  ⟨"replay_cache_dir = \"/var/cache/macos-auth\"\n", _, rfl⟩

def renamedFile : ConfigFile inlineParse :=
  ⟨"replay_cache_dir = \"/var/cache/macos-auth\"\nhostname = \"db\"\n", _, rfl⟩

theorem differ_of_insert
    {args : RequestArgs}
    {first second : ConfigFile parse}
    {field : String}
    {value : TomlValue}
    (overrides : Overrides args field)
    (inserted : second.table = first.table.insert field value) :
    DifferInOverridden args first second := by
  intro other silent
  have different : other ≠ field := fun same => silent (same ▸ overrides)
  rw [inserted, Finmap.lookup_insert_of_ne _ different]

theorem loads_inline
    {file : ConfigFile inlineParse}
    (short : file.text.utf8ByteSize ≤ 100)
    (typed : (HelperConfig.ofTable file.table).isSome) :
    file.Loads := by
  refine ⟨?_, typed⟩
  rw [Protocol.length_utf8]
  exact short.trans (by decide)

end Helper
end MacosAuth
