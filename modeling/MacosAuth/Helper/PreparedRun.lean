import MacosAuth.Helper.Relocation

/-!
# Running with a prepared configuration

`run_request` ends with the exit code of unsafe configurations only while it prepares its
request. With a configuration that `prepare_config` has printed, every check that it makes
there has been made before, or it is one of the trust checks of the files.
-/

namespace MacosAuth
namespace Helper

open Codec
open Protocol (utf8)
open Effect Effect.Program

/-! ## What validation and typing establish -/

/-- A configuration that has passed `validate_config_fields`, apart from the deadline. -/
structure Complete (config : HelperConfig) : Prop where
  socketPath : ∃ path, config.socketPath = some path ∧ isAbsolute path = true
  hostKeyFile : ∃ path, config.hostKeyFile = some path
  agentPubkeyFile : ∃ path, config.agentPubkeyFile = some path
  hostId : ∃ text, config.hostId = some text ∧ trim text.toList ≠ []
  hostname : ∃ text, config.hostname = some text ∧ trim text.toList ≠ []
  keyId : trim (config.keyId.getD "host-key-1").toList ≠ []
  service : trim (config.service.getD "sudo").toList ≠ []

theorem requirePath_eq_ok
    {field : String}
    {path : Option Bytes}
    {result : Unit}
    (required : requirePath field path = .ok result) :
    ∃ bytes, path = some bytes ∧ isAbsolute bytes = true := by
  cases path with
  | none => exact absurd required (by simp [requirePath])
  | some bytes =>
      have plain := checkPath_eq_ok_iff.mp required
      rw [isPlainAbsolute, Bool.and_eq_true] at plain
      exact ⟨bytes, rfl, plain.1⟩

theorem requireSetting_eq_ok
    {field : String}
    {setting : Option String}
    {result : Unit}
    (required : requireSetting field setting = .ok result) :
    ∃ text, setting = some text ∧ trim text.toList ≠ [] := by
  unfold requireSetting at required
  split at required
  · exact absurd required (by simp)
  · rename_i present
    cases setting with
    | none => exact absurd rfl present
    | some text => exact ⟨text, rfl, by simpa using present⟩

theorem complete_of_checkFields
    {config : HelperConfig}
    (checked : checkFields config = .ok ()) :
    Complete config := by
  unfold checkFields at checked
  obtain ⟨_, socket, checked⟩ := Protocol.bind_eq_ok.mp checked
  obtain ⟨_, host, checked⟩ := Protocol.bind_eq_ok.mp checked
  obtain ⟨_, agent, checked⟩ := Protocol.bind_eq_ok.mp checked
  obtain ⟨_, hostId, checked⟩ := Protocol.bind_eq_ok.mp checked
  obtain ⟨_, hostname, checked⟩ := Protocol.bind_eq_ok.mp checked
  obtain ⟨_, keyId, service⟩ := Protocol.bind_eq_ok.mp checked
  obtain ⟨hostPath, hostPresent, -⟩ := requirePath_eq_ok host
  obtain ⟨agentPath, agentPresent, -⟩ := requirePath_eq_ok agent
  obtain ⟨_, keyIdPresent, keyIdSolid⟩ := requireSetting_eq_ok keyId
  obtain ⟨_, servicePresent, serviceSolid⟩ := requireSetting_eq_ok service
  obtain rfl := Option.some.inj keyIdPresent
  obtain rfl := Option.some.inj servicePresent
  exact {
    socketPath := requirePath_eq_ok socket
    hostKeyFile := ⟨hostPath, hostPresent⟩
    agentPubkeyFile := ⟨agentPath, agentPresent⟩
    hostId := requireSetting_eq_ok hostId
    hostname := requireSetting_eq_ok hostname
    keyId := keyIdSolid
    service := serviceSolid }

/-! ## The environment of a run -/

/-- The deadline arithmetic does not overflow at the first readings of the clocks. -/
def ClockAllows (timeoutMs : UInt64) (past : List HelperEvent) : HelperEvent -> Prop
  | ⟨.wallClock, some now⟩ =>
      (∀ event ∈ past, event.call ≠ .wallClock) -> now.toNat + timeoutMs.toNat < UInt64.size
  | ⟨.instant, now⟩ =>
      (∀ event ∈ past, event.call ≠ .instant) ->
        now + timeoutMs.toNat * 1000000 < instantLimit
  | _ => True

/-- The answers come from the disk and from clocks that leave room for the timeout. -/
def Disk.serving (disk : Disk) (timeoutMs : UInt64) : Contract Call Call.Answer where
  relies past event := disk.Serves event ∧ ClockAllows timeoutMs past event
  allows _ _ := True
  givesUp _ := True

/-- No clock has been read. -/
def OnlyReads (past : List HelperEvent) : Prop :=
  ∀ event ∈ past, ReadsFiles event.call

section Running

variable {disk : Disk} {timeoutMs : UInt64} {past : List HelperEvent}

theorem serving_of_reading
    {α ε : Type}
    {program : Routine ε α}
    {post : Except ε α -> Prop}
    (onlyReads : OnlyReads past)
    (meets : program.Meets disk.reading past fun _ result => post result) :
    program.Meets (disk.serving timeoutMs) past
      fun later result => post result ∧ OnlyReads later := by
  have served (past : List HelperEvent) (event : HelperEvent)
      (relied : (disk.serving timeoutMs).relies past event) : disk.reading.relies past event :=
    relied.1
  refine ((reading_calls meets).weaken served (fun _ _ _ => trivial) fun _ _ => trivial).mono ?_
  rintro later result ⟨holds, calls⟩
  refine ⟨holds, fun event member => ?_⟩
  rcases calls event member with before | reads
  · exact onlyReads event before
  · exact reads

/-- The run has not been refused. -/
def NotUnsafe {α : Type} (result : Except Stop α) : Prop :=
  result ≠ .error (.exit exitUnsafeConfig)

/-- A part that reads files successfully, and what follows it. -/
theorem serving_orUnsafeConfig_bind
    {α β ε : Type}
    {program : Routine ε α}
    {next : α -> Routine Stop β}
    {good : α -> Prop}
    (onlyReads : OnlyReads past)
    (meets : program.Meets disk.reading past
      fun _ result => ∃ value, result = .ok value ∧ good value)
    (continues : ∀ later value, OnlyReads later -> good value ->
      (next value).Meets (disk.serving timeoutMs) later fun _ result => NotUnsafe result) :
    (orUnsafeConfig program >>= next).Meets (disk.serving timeoutMs) past
      fun _ result => NotUnsafe result := by
  refine Meets.mapError_bind (serving_of_reading onlyReads meets) ?_ ?_
  · rintro later value ⟨⟨_, equal, holds⟩, reads⟩
    obtain rfl := Except.ok.inj equal
    exact continues later value reads holds
  · rintro later error ⟨⟨_, equal, -⟩, -⟩
    exact absurd equal (by simp)

/-- The files that a configuration names are there and trusted. -/
structure Disk.Supports (disk : Disk) (config : HelperConfig) (rootOwned : Bool) : Prop where
  hostKey {path : Bytes} : config.hostKeyFile = some path ->
    ∃ text, disk.Holds path rootOwned true text ∧ HoldsKey text
  agentKey {path : Bytes} : config.agentPubkeyFile = some path ->
    ∃ text, disk.Holds path rootOwned false text ∧ HoldsKey text
  replayCache {path : Bytes} : config.replayCacheDir = some path ->
    ∃ file, disk.Passes path rootOwned true true file

/-- A request for a user that takes all settings from one configuration file. -/
structure OnlyConfig (args : RequestArgs) (path : Bytes) : Prop where
  config : args.config = some path
  socket : args.socket = none
  keyHex : args.keyHex = none
  keyFile : args.keyFile = none
  agentPubkeyHex : args.agentPubkeyHex = none
  agentPubkeyFile : args.agentPubkeyFile = none
  keyId : args.keyId = none
  hostId : args.hostId = none
  hostname : args.hostname = none
  service : args.service = none
  timeoutMs : args.timeoutMs = none
  allowedFutureSkewMs : args.allowedFutureSkewMs = none
  replayCacheDir : args.replayCacheDir = none
  user : trim args.user.toList ≠ []

theorem OnlyConfig.merge_eq
    {args : RequestArgs}
    {path : Bytes}
    (only : OnlyConfig args path)
    (config : HelperConfig) :
    merge args config = {
      hostKeyFile := config.hostKeyFile
      agentPubkeyFile := config.agentPubkeyFile
      socket := config.socketPath
      keyId := config.keyId.getD "host-key-1"
      hostId := config.hostId
      hostname := config.hostname
      service := config.service.getD "sudo"
      timeoutMs := config.timeoutMs.getD 15000
      allowedFutureSkewMs := config.allowedFutureSkewMs.getD 30000
      replayCacheDir := config.replayCacheDir } := by
  simp only [merge, only.socket, only.keyFile, only.agentPubkeyFile, only.keyId, only.hostId,
    only.hostname, only.service, only.timeoutMs, only.allowedFutureSkewMs, only.replayCacheDir]
  rfl

theorem OnlyReads.call_ne
    (onlyReads : OnlyReads past)
    {request : Call}
    (clock : ¬ReadsFiles request) :
    ∀ event ∈ past, event.call ≠ request := by
  rintro event member rfl
  exact clock (onlyReads event member)

/-- The wall clock is read for the first time. -/
theorem serving_unixTimeMs
    (onlyReads : OnlyReads past) :
    unixTimeMs.Meets (disk.serving timeoutMs) past fun later result =>
      ∀ now, result = .ok now -> now.toNat + timeoutMs.toNat < UInt64.size ∧
        ∀ event ∈ later, event.call ≠ .instant := by
  unfold unixTimeMs
  rw [meets_perform_bind]
  refine ⟨trivial, fun reading served => ?_⟩
  cases reading with
  | none => exact fun now equal => absurd equal (by simp)
  | some now =>
      rintro _ ⟨⟩
      have room : now.toNat + timeoutMs.toNat < UInt64.size :=
        served.2 (onlyReads.call_ne (by exact id))
      refine ⟨room, fun event member => ?_⟩
      rcases List.mem_append.mp member with before | read
      · exact onlyReads.call_ne (by exact id) event before
      · obtain rfl := List.mem_singleton.mp read
        simp

/-- The budget is granted at the first readings of the clocks. -/
theorem serving_operationBudget
    {α : Type}
    {now : UInt64}
    {next : Nat × UInt64 -> Routine Stop α}
    (positive : timeoutMs ≠ 0)
    (roomLeft : now.toNat + timeoutMs.toNat < UInt64.size)
    (unread : ∀ event ∈ past, event.call ≠ .instant)
    (continues : ∀ later budget,
      (next budget).Meets (disk.serving timeoutMs) later fun _ result => NotUnsafe result) :
    (orUnsafeConfig (operationBudget timeoutMs now) >>= next).Meets (disk.serving timeoutMs) past
      fun _ result => NotUnsafe result := by
  have granted : (operationBudget timeoutMs now).Meets (disk.serving timeoutMs) past
      fun _ result => ∃ budget, result = .ok budget := by
    unfold operationBudget
    rw [if_neg positive, if_neg (Nat.not_le.mpr roomLeft), meets_perform_bind]
    refine ⟨trivial, fun instant served => ?_⟩
    have room : instant + timeoutMs.toNat * 1000000 < instantLimit := served.2 unread
    rw [if_neg (Nat.not_le.mpr room)]
    exact ⟨_, rfl⟩
  refine Meets.mapError_bind granted ?_ ?_
  · exact fun later budget _ => continues later budget
  · rintro later error ⟨_, equal⟩
    exact absurd equal (by simp)

/-- Errors without an exit code are no refusal. -/
theorem serving_failed_bind
    {α β : Type}
    {program : Routine HelperError α}
    {next : α -> Routine Stop β}
    (continues : ∀ later value,
      (next value).Meets (disk.serving timeoutMs) later fun _ result => NotUnsafe result)
    (settles : program.Settles SignsRequests anyError) :
    (program.mapError .failed >>= next).Meets (disk.serving timeoutMs) past
      fun _ result => NotUnsafe result := by
  refine Meets.mapError_bind (settles.meets fun _ _ _ => trivial) ?_ ?_
  · exact fun later value _ => continues later value
  · exact fun later error _ => by simp [NotUnsafe]

theorem settles_buildRequest (now : UInt64) (context : RequestContext) :
    (buildRequest now context).Settles SignsRequests anyError :=
  .bind (settles_perform trivial) fun _ => .bind (settles_perform trivial) fun _ => settles_pure _

/-- Nothing in the preparation refuses the settings of a complete configuration. -/
theorem serving_prepareWith
    {args : RequestArgs}
    {path : Bytes}
    {config : HelperConfig}
    (only : OnlyConfig args path)
    (complete : Complete config)
    (positive : config.timeoutMs.getD 15000 ≠ 0)
    (supports : disk.Supports config args.requireRootOwned)
    (onlyReads : OnlyReads past) :
    (prepareWith args (merge args config)).Meets
      (disk.serving (config.timeoutMs.getD 15000)) past fun _ result => NotUnsafe result := by
  obtain ⟨socket, socket_eq, absolute⟩ := complete.socketPath
  obtain ⟨hostPath, hostPath_eq⟩ := complete.hostKeyFile
  obtain ⟨agentPath, agentPath_eq⟩ := complete.agentPubkeyFile
  obtain ⟨hostId, hostId_eq, hostIdSolid⟩ := complete.hostId
  obtain ⟨hostname, hostname_eq, hostnameSolid⟩ := complete.hostname
  obtain ⟨hostText, hostHolds, hostKey⟩ := supports.hostKey hostPath_eq
  obtain ⟨agentText, agentHolds, agentKey⟩ := supports.agentKey agentPath_eq
  have hostReads {past : List HelperEvent} :
      (loadSigningKey none (some hostPath) args.requireRootOwned).Meets disk.reading past
        fun _ result => ∃ key, result = .ok key ∧ True :=
    (reading_loadSigningKey hostHolds hostKey).mono fun _ _ ⟨key, equal⟩ => ⟨key, equal, trivial⟩
  have agentReads {past : List HelperEvent} :
      (loadPublicKey none (some agentPath) "agent public key" args.requireRootOwned).Meets
        disk.reading past fun _ result => ∃ key, result = .ok key ∧ True :=
    (reading_loadPublicKey agentHolds agentKey).mono fun _ _ ⟨key, equal⟩ => ⟨key, equal, trivial⟩
  have replayReads {past : List HelperEvent} :
      (openReplayCache config.replayCacheDir args.requireRootOwned).Meets disk.reading past
        fun _ result => ∃ cache, result = .ok cache ∧ True :=
    (reading_openReplayCache fun path configured => supports.replayCache configured).mono
      fun _ _ ⟨cache, equal⟩ => ⟨cache, equal, trivial⟩
  unfold prepareWith
  rw [only.merge_eq, only.keyHex, hostPath_eq]
  refine serving_orUnsafeConfig_bind onlyReads hostReads ?_
  intro afterHost signingKey hostOnlyReads _
  unfold preparePinned
  rw [only.agentPubkeyHex]
  dsimp only
  rw [agentPath_eq]
  refine serving_orUnsafeConfig_bind hostOnlyReads agentReads ?_
  intro afterAgent agentPubkey agentOnlyReads _
  unfold prepareKeyed
  dsimp only
  rw [socket_eq, Option.filter_some_pos absolute, hostId_eq, hostname_eq]
  change (orUnsafeConfig (openReplayCache _ _) >>= _).Meets _ _ _
  refine serving_orUnsafeConfig_bind agentOnlyReads replayReads ?_
  intro afterReplay cache replayOnlyReads _
  refine Meets.mapError_bind (serving_unixTimeMs replayOnlyReads) ?_
    fun _ _ _ => by simp [NotUnsafe]
  intro afterClock now reading
  obtain ⟨room, unread⟩ := reading now rfl
  refine serving_operationBudget positive room unread ?_
  intro afterBudget budget
  have named : ([config.keyId.getD "host-key-1", hostId, hostname, config.service.getD "sudo",
      args.user].any fun value => trim value.toList == []) = false := by
    simp [complete.keyId, hostIdSolid, hostnameSolid, complete.service, only.user]
  rw [named, if_neg Bool.false_ne_true]
  refine serving_failed_bind ?_ (settles_buildRequest _ _)
  intro afterBody body
  refine serving_failed_bind ?_ (settles_signRequest _ _)
  intro afterRequest request
  exact nofun

end Running

/-! ## Whole runs -/

/-- A run is refused during the preparation only. -/
theorem ends_prepareRequest_of_violation
    {crates : Crates}
    {rounds : Nat}
    {args : RequestArgs}
    {trace : List HelperEvent}
    {result : Except Stop Nat}
    (ends : Ends (runRequest crates rounds args) trace result)
    (refused : exitCode result = exitUnsafeConfig) :
    Ends (prepareRequest crates args) trace (.error (.exit exitUnsafeConfig)) := by
  cases result with
  | ok code =>
      obtain ⟨decision, -, rfl⟩ := ends_runRequest_ok.mp ends
      cases decision <;> exact absurd refused (by decide)
  | error stop =>
      cases stop with
      | failed error => exact absurd refused (Nat.ne_of_lt (by decide : 1 < exitUnsafeConfig))
      | exit code =>
          obtain rfl : code = exitUnsafeConfig := refused
          rw [runRequest, ends_bind] at ends
          rcases ends with ⟨setup, later, prepared, rfl, -, ends⟩ | ⟨error, failed, equal⟩
          · rw [ends_bind] at ends
            rcases ends with ⟨exchanging, judging, response, rfl, -, ends⟩ | ⟨error, failed, equal⟩
            · rcases ends_judgeResponse_error ends with tamper | clock | ⟨unavailable, -⟩
              · exact absurd tamper (by decide)
              · exact absurd clock (by simp)
              · exact absurd unavailable (by decide)
            · obtain rfl := Except.error.inj equal
              rcases ends_exchange_error failed with broken | ⟨unavailable, -⟩
              · exact absurd broken (by decide)
              · exact absurd unavailable (by decide)
          · obtain rfl := Except.error.inj equal
            exact failed

/-- Every answer of the run agrees with the disk, and the deadline arithmetic does not
overflow at the first readings of the clocks. -/
def RunsOn (disk : Disk) (timeoutMs : UInt64) (trace : List HelperEvent) : Prop :=
  ∀ before event after, trace = before ++ event :: after ->
    disk.Serves event ∧ ClockAllows timeoutMs before event

/-- A run with a printed configuration, in the place of the file `path`. -/
theorem Printed.notUnsafe
    {crates : Crates}
    {toml : Toml}
    {prepareArgs : PrepareConfigArgs}
    {table edited : Table}
    {config : HelperConfig}
    {output text : String}
    {rounds : Nat}
    {args : RequestArgs}
    {path : Bytes}
    {disk : Disk}
    {trace : List HelperEvent}
    {result : Except Stop Nat}
    (lawful : toml.Lawful crates)
    (printed : Printed crates toml prepareArgs table edited config output)
    (positive : config.timeoutMs.getD 15000 ≠ 0)
    (same : toml.parse text = toml.parse output)
    (only : OnlyConfig args path)
    (holds : disk.Holds path args.requireRootOwned false text)
    (supports : disk.Supports config args.requireRootOwned)
    (runs : RunsOn disk (config.timeoutMs.getD 15000) trace)
    (ends : Ends (runRequest crates rounds args) trace result) :
    exitCode result ≠ exitUnsafeConfig := by
  intro refused
  have typed : crates.configFromToml text = some config := by
    rw [lawful.configFromToml, same, printed.parses]
    exact printed.typed
  have loads : (loadHelperConfig crates args.config args.requireRootOwned).Meets disk.reading []
      fun _ result => ∃ loaded, result = .ok loaded ∧ loaded = config := by
    rw [only.config]
    unfold loadHelperConfig
    refine Meets.bind (reading_readTrustedFile holds) ?_ fun _ _ failed => absurd failed (by simp)
    intro _ contents equal
    obtain rfl := Except.ok.inj equal
    rw [typed]
    exact ⟨config, rfl, rfl⟩
  have prepares : (prepareRequest crates args).Meets
      (disk.serving (config.timeoutMs.getD 15000)) [] fun _ result => NotUnsafe result := by
    have onlyReads : OnlyReads [] := fun _ member => absurd member List.not_mem_nil
    refine serving_orUnsafeConfig_bind onlyReads loads ?_
    rintro later _ laterReads rfl
    exact serving_prepareWith only (complete_of_checkFields printed.checked) positive supports
      laterReads
  exact prepares.outcome (ends_prepareRequest_of_violation ends refused) runs rfl

/-- The table that `prepare_config` starts from: empty, or read from its source. -/
def StartsFrom
    (toml : Toml)
    (args : PrepareConfigArgs)
    (trace : List HelperEvent)
    (table : Table) : Prop :=
  (args.source = none ∧ table = ∅) ∨
    ∃ path contents reading rest, args.source = some path ∧ trace = reading ++ rest ∧
      Ends (readTrustedFile path false false) reading (.ok contents) ∧
      toml.parse contents = some table

theorem startsFrom_of_ends
    {crates : Crates}
    {toml : Toml}
    {args : PrepareConfigArgs}
    {trace : List HelperEvent}
    {output : String}
    (ends : Ends (prepareConfig crates toml args) trace (.ok output)) :
    ∃ table rest, StartsFrom toml args trace table ∧
      Ends (prepareTable crates toml args table) rest (.ok output) := by
  unfold prepareConfig at ends
  split at ends
  · rename_i noSource
    exact ⟨∅, trace, .inl ⟨noSource, rfl⟩, ends⟩
  · rename_i path given
    obtain ⟨reading, rest, contents, rfl, read, parsed⟩ := (ends_bind_ok _ _ _ _).mp ends
    split at parsed
    · exact absurd ((ends_fail _ _ _).mp parsed).2 (by simp)
    · rename_i table parses
      exact ⟨table, rest, .inr ⟨path, contents, reading, rest, given, rfl, read, parses⟩, parsed⟩

/-- The output of a budget is known beforehand. -/
theorem ends_budgetThen_ok
    {config : HelperConfig}
    {output again : String}
    {trace : List HelperEvent}
    (ends : Ends (budgetThen config output) trace (.ok again)) :
    again = output ∧ config.timeoutMs.getD 15000 ≠ 0 := by
  obtain ⟨_, _, _, rfl, budgeted, returned⟩ := (ends_bind_ok _ _ _ _).mp ends
  refine ⟨Except.ok.inj ((ends_pure _ _ _).mp returned).2, fun zero => ?_⟩
  obtain ⟨_, _, now, rfl, -, granted⟩ := (ends_bind_ok _ _ _ _).mp budgeted
  obtain ⟨_, _, budget, rfl, operated, -⟩ := (ends_bind_ok _ _ _ _).mp granted
  rw [operationBudget, if_pos zero] at operated
  exact absurd ((ends_fail _ _ _).mp operated).2 (by simp)

/-- With clocks that leave room for the timeout, the output is returned. -/
theorem ends_budgetThen
    {config : HelperConfig}
    {now : UInt64}
    {instant : Nat}
    (positive : config.timeoutMs.getD 15000 ≠ 0)
    (room : now.toNat + (config.timeoutMs.getD 15000).toNat < UInt64.size)
    (roomLater : instant + (config.timeoutMs.getD 15000).toNat * 1000000 < instantLimit)
    (output : String) :
    Ends (budgetThen config output) [⟨.wallClock, some now⟩, ⟨.instant, instant⟩]
      (.ok output) := by
  have granted : Ends (operationBudget (config.timeoutMs.getD 15000) now) [⟨.instant, instant⟩]
      (.ok (instant + (config.timeoutMs.getD 15000).toNat * 1000000,
        now + config.timeoutMs.getD 15000)) := by
    rw [operationBudget, if_neg positive, if_neg (Nat.not_le.mpr room), ends_perform_bind]
    refine ⟨instant, [], rfl, ?_⟩
    rw [if_neg (Nat.not_le.mpr roomLater)]
    exact (ends_pure _ _ _).mpr ⟨rfl, rfl⟩
  have read : Ends unixTimeMs [⟨.wallClock, some now⟩] (.ok now) := ends_unixTimeMs_ok.mpr rfl
  refine (ends_bind_ok _ _ _ _).mpr ⟨_, [], (), (List.append_nil _).symm, ?_, .refl _⟩
  refine (ends_bind_ok _ _ _ _).mpr ⟨_, [⟨.instant, instant⟩], now, rfl, read, ?_⟩
  exact (ends_bind_ok _ _ _ _).mpr ⟨_, [], _, (List.append_nil _).symm, granted, .refl _⟩

/-- What a successful `prepare_config` has achieved with its output. -/
structure Prepares
    (crates : Crates)
    (toml : Toml)
    (args : PrepareConfigArgs)
    (table edited : Table)
    (config : HelperConfig)
    (output : String) : Prop where
  parses : toml.parse output = some edited
  relocates : Relocates args table edited
  typed : HelperConfig.ofTable edited = some config
  /-- After its own output has been read, the command goes on as with its source: it
  returns the same output unless a clock fails or leaves no room for the timeout. -/
  sameProgram : prepareTable crates toml args edited = prepareTable crates toml args table
  onlyBudget : prepareTable crates toml args edited = budgetThen config output
  again {path : Bytes} {text second : String} {reading rest : List HelperEvent} :
    Ends (readTrustedFile path false false) reading (.ok text) ->
    toml.parse text = toml.parse output ->
    Ends (prepareConfig crates toml { args with source := some path }) (reading ++ rest)
      (.ok second) ->
    second = output
  usable {rounds : Nat} {request : RequestArgs} {path : Bytes} {text : String} {disk : Disk}
      {run : List HelperEvent} {result : Except Stop Nat} :
    toml.parse text = toml.parse output ->
    OnlyConfig request path ->
    disk.Holds path request.requireRootOwned false text ->
    disk.Supports config request.requireRootOwned ->
    RunsOn disk (config.timeoutMs.getD 15000) run ->
    Ends (runRequest crates rounds request) run result ->
    exitCode result ≠ exitUnsafeConfig

/-- The output of `prepare_config` is its source with the given changes only, it is a fixed
point of the command, and `run_request` does not refuse it. -/
theorem prepareConfig_usable
    (crates : Crates)
    (toml : Toml)
    (args : PrepareConfigArgs)
    (trace : List HelperEvent)
    (output : String)
    (lawful : toml.Lawful crates)
    (ends : Ends (prepareConfig crates toml args) trace (.ok output)) :
    ∃ table edited config, StartsFrom toml args trace table ∧
      Prepares crates toml args table edited config output := by
  obtain ⟨table, rest, starts, prepared⟩ := startsFrom_of_ends ends
  obtain ⟨edited, config, printed⟩ := printed_of_ends lawful prepared
  obtain ⟨edits⟩ := edited_of_editTable printed.edits
  have first := printed.prepareTable_eq lawful
  have second := printed.again.prepareTable_eq lawful
  rw [first] at prepared
  refine ⟨table, edited, config, starts, {
    parses := printed.parses
    relocates := edits.relocates
    typed := printed.typed
    sameProgram := second.trans first.symm
    onlyBudget := second
    again := ?_
    usable := fun same only holds supports runs ended =>
      printed.notUnsafe lawful (ends_budgetThen_ok prepared).2 same only holds supports runs
        ended }⟩
  intro path text secondOutput reading rest read same repeated
  unfold prepareConfig at repeated
  dsimp only at repeated
  obtain ⟨otherReading, later, contents, split, otherRead, continued⟩ :=
    (ends_bind_ok _ _ _ _).mp repeated
  have sameReading : otherReading = reading := by
    rcases List.append_eq_append_iff.mp split with ⟨middle, rfl, -⟩ | ⟨middle, rfl, -⟩
    · rw [read.complete otherRead, List.append_nil]
    · rw [otherRead.complete read, List.append_nil]
  subst sameReading
  obtain rfl : contents = text := Except.ok.inj (otherRead.unique read)
  rw [same, printed.parses] at continued
  have settled : Ends (budgetThen config output) later (.ok secondOutput) := second ▸ continued
  exact (ends_budgetThen_ok settled).1

/-! ## A configuration of a development tree -/

/-- A file that is read by one call, and by a second one that finds its end. -/
theorem ends_readToString
    {file : File}
    {limit : Nat}
    {text : String}
    (nonempty : utf8 text ≠ [])
    (short : (utf8 text).length < limit) :
    Ends (readToString file limit)
      [⟨.read file 0 limit, .ok ⟨utf8 text, short.le⟩⟩,
        ⟨.read file (utf8 text).length (limit - (utf8 text).length), .ok ⟨[], Nat.zero_le _⟩⟩]
      (.ok text) := by
  have positive : 0 < (utf8 text).length := List.length_pos_iff.mpr nonempty
  obtain ⟨left, rfl⟩ : ∃ left, limit = left + 2 := ⟨limit - 2, by omega⟩
  have read : Ends (readUpTo file (left + 2) (left + 2) [])
      [⟨.read file 0 (left + 2), .ok ⟨utf8 text, short.le⟩⟩,
        ⟨.read file (utf8 text).length (left + 2 - (utf8 text).length),
          .ok ⟨[], Nat.zero_le _⟩⟩] (.ok (utf8 text)) := by
    rw [readUpTo, if_neg (by simp), ends_perform_bind]
    refine ⟨_, _, rfl, ?_⟩
    change Ends (if utf8 text = [] then _ else _) _ _
    rw [if_neg nonempty, readUpTo, if_neg (by simpa using short), ends_perform_bind]
    refine ⟨_, _, rfl, ?_⟩
    exact (ends_pure _ _ _).mpr ⟨rfl, rfl⟩
  refine (ends_bind_ok _ _ _ _).mpr ⟨_, [], _, (List.append_nil _).symm, read, ?_⟩
  rw [decodeUtf8_utf8]
  exact (ends_pure _ _ _).mpr ⟨rfl, rfl⟩

/-- The configuration of the development tree is relocated for one host. -/
def movedArgs : PrepareConfigArgs where
  source := some (utf8 "/c")
  socket := utf8 "/run/agent.sock"
  hostKeyFile := utf8 "/etc/host.key"
  agentPubkeyFile := utf8 "/etc/agent.pub"
  hostId := some "web"
  hostname := none
  replayCacheDir := some (utf8 "/var/cache/macos-auth")

def movedTexts : PathTexts movedArgs where
  socket := "/run/agent.sock"
  hostKeyFile := "/etc/host.key"
  agentPubkeyFile := "/etc/agent.pub"
  socket_eq := decodeUtf8_utf8 _
  hostKeyFile_eq := decodeUtf8_utf8 _
  agentPubkeyFile_eq := decodeUtf8_utf8 _

/-- The source, with a replay cache, a timeout and two keys that the helper does not know. -/
def sourceText : String :=
  "banner = \"old\"\nhostname = \"web\"\nreplay_cache_dir = \"/tmp/replay\"\n" ++
    "socket_path = \"/tmp/agent.sock\"\ntimeout_ms = 20000\n\n[audit]\nlevel = 2\n"

def sourceTable : Table :=
  ((((((∅ : Table).insert "banner" (.string "old")).insert
    "hostname" (.string "web")).insert
    "replay_cache_dir" (.string "/tmp/replay")).insert
    "socket_path" (.string "/tmp/agent.sock")).insert
    "timeout_ms" (.integer 20000)).insert
    "audit" (.table [("level", .integer 2)])

def movedTable : Table :=
  setStrings [("replay_cache_dir", "/var/cache/macos-auth")]
    (setStrings movedTexts.edits sourceTable)

def movedText : String :=
  "agent_pubkey_file = \"/etc/agent.pub\"\nbanner = \"old\"\nhost_id = \"web\"\n" ++
    "host_key_file = \"/etc/host.key\"\nhostname = \"web\"\n" ++
    "replay_cache_dir = \"/var/cache/macos-auth\"\nsocket_path = \"/run/agent.sock\"\n" ++
    "timeout_ms = 20000\n\n[audit]\nlevel = 2\n"

/-- TOML, as far as this command uses it. -/
def movedToml : Toml where
  parse text :=
    if text = movedText then some movedTable
    else if text = sourceText then some sourceTable
    else none
  print table := if table = movedTable then some movedText else none

def movedCrates : Crates where
  digest _ := []
  configFromToml text := (movedToml.parse text).bind HelperConfig.ofTable
  requestToJson _ := []
  responseFromJson _ := none
  isVerifyingKey _ := true

def movedConfig : HelperConfig where
  socketPath := some (utf8 "/run/agent.sock")
  hostKeyFile := some (utf8 "/etc/host.key")
  agentPubkeyFile := some (utf8 "/etc/agent.pub")
  keyId := none
  hostId := some "web"
  hostname := some "web"
  service := none
  timeoutMs := some 20000
  allowedFutureSkewMs := none
  replayCacheDir := some (utf8 "/var/cache/macos-auth")

theorem movedToml_lawful : movedToml.Lawful movedCrates where
  parse_print := by
    intro table text prints
    simp only [movedToml] at prints ⊢
    split at prints
    · rename_i moved
      rw [moved, if_pos (Option.some.inj prints).symm]
    · exact absurd prints (by simp)
  configFromToml _ := rfl

theorem printed_moved : Printed movedCrates movedToml movedArgs sourceTable movedTable movedConfig
    movedText where
  edits := by
    have plain : PlainPaths movedArgs := ⟨by decide, by decide, by decide⟩
    have present : "replay_cache_dir" ∈ setStrings movedTexts.edits sourceTable := by
      rw [replay_mem_setStrings_iff, sourceTable]
      simp
    rw [editTable_eq plain movedTexts, relocateReplayCache_of_edits (.inr ⟨present, _, _, rfl,
      by decide, decodeUtf8_utf8 _, rfl⟩)]
    rfl
  prints := by simp only [movedToml, if_true]
  parses := by simp only [movedToml, if_true]
  typed := by rfl
  checked := by decide

theorem sourceText_fits : (utf8 sourceText).length ≤ maxFrameLen := by
  rw [Protocol.length_utf8]
  decide +kernel

def sourceOpening : List HelperEvent :=
  [⟨.openRoot, .ok 0⟩, ⟨.fstat 0, .ok ⟨true, false, 0, 0x1ed⟩⟩,
    ⟨.openat 0 (utf8 "c") false, .ok 1⟩, ⟨.fstat 1, .ok ⟨false, true, 0, 0x1a4⟩⟩,
    ⟨.fstat 1, .ok ⟨false, true, 0, 0x1a4⟩⟩]

def sourceReading : List HelperEvent :=
  [⟨.read 1 0 (maxFrameLen + 1), .ok ⟨utf8 sourceText, Nat.le_succ_of_le sourceText_fits⟩⟩,
    ⟨.read 1 (utf8 sourceText).length (maxFrameLen + 1 - (utf8 sourceText).length),
      .ok ⟨[], Nat.zero_le _⟩⟩]

theorem ends_sourceReading :
    Ends (readTrustedFile (utf8 "/c") false false) (sourceOpening ++ sourceReading)
      (.ok sourceText) := by
  have opened : Ends (Trust.openPath (utf8 "/c") false false false) sourceOpening (.ok 1) :=
    .call (.call (.call (.call (.call (.refl _)))))
  have nonempty : utf8 sourceText ≠ [] := by
    intro empty
    have blank : sourceText = "" := Protocol.utf8_injective (by rw [empty]; rfl)
    exact absurd blank (by decide)
  have short : (utf8 sourceText).length < maxFrameLen + 1 := Nat.lt_succ_of_le sourceText_fits
  have read : Ends (readToString 1 (maxFrameLen + 1)) sourceReading (.ok sourceText) := by
    rw [sourceReading]
    exact ends_readToString nonempty short
  refine (ends_bind_ok _ _ _ _).mpr ⟨_, _, 1, rfl, ends_mapError_ok.mpr opened, ?_⟩
  refine (ends_bind_ok _ _ _ _).mpr ⟨_, [], sourceText, (List.append_nil _).symm,
    ends_mapError_ok.mpr read, ?_⟩
  rw [if_neg (Nat.not_lt.mpr sourceText_fits)]
  exact (ends_pure _ _ _).mpr ⟨rfl, rfl⟩

theorem ends_movedArgs :
    Ends (prepareConfig movedCrates movedToml movedArgs)
      (sourceOpening ++ sourceReading ++ [⟨.wallClock, some 1000⟩, ⟨.instant, 5⟩])
      (.ok movedText) := by
  refine (ends_bind_ok _ _ _ _).mpr ⟨sourceOpening ++ sourceReading, _, sourceText, rfl,
    ends_sourceReading, ?_⟩
  have parsed : movedToml.parse sourceText = some sourceTable := by
    have different : sourceText ≠ movedText := by decide
    simp only [movedToml, if_neg different, if_true]
  have same : prepareTable movedCrates movedToml movedArgs sourceTable =
      budgetThen movedConfig movedText :=
    printed_moved.prepareTable_eq movedToml_lawful
  rw [parsed]
  dsimp only
  rw [same]
  exact ends_budgetThen (by decide) (by decide) (by decide) _

/-- The replay cache is moved, and what the helper does not know is kept. -/
theorem prepareConfig_moved :
    ∃ table edited config,
      StartsFrom movedToml movedArgs
          (sourceOpening ++ sourceReading ++ [⟨.wallClock, some 1000⟩, ⟨.instant, 5⟩]) table ∧
        Prepares movedCrates movedToml movedArgs table edited config movedText ∧
        edited.lookup "replay_cache_dir" = some (.string "/var/cache/macos-auth") ∧
        edited.lookup "banner" = some (.string "old") ∧
        edited.lookup "audit" = some (.table [("level", .integer 2)]) := by
  obtain ⟨table, edited, config, starts, prepares⟩ := prepareConfig_usable movedCrates movedToml
    movedArgs _ movedText movedToml_lawful ends_movedArgs
  have moved : edited = movedTable :=
    Option.some.inj (prepares.parses.symm.trans printed_moved.parses)
  subst moved
  exact ⟨table, movedTable, config, starts, prepares, rfl, rfl, rfl⟩

end Helper
end MacosAuth
