import MacosAuth.Codec.CommandLine
import MacosAuth.Helper.Request
import MacosAuth.Pam.Authenticate

/-!
# The command line of the helper

The PAM module hands the user and the circumstances of a login to the helper as options of the
command `request`. The parser of the command line belongs to another crate. If it accepts what
the module has put together, then the helper has the very values that the module had, and takes
everything else from its configuration.
-/

namespace MacosAuth
namespace EndToEnd

open Codec
open Protocol (utf8)
open Helper (RequestArgs)

/-! ## The arguments of the helper -/

/-- The flags of the command `request`. -/
def requestFlags : List Bytes :=
  ["--require-root-owned"].map utf8

/-- The options of the command `request` that take a value. -/
def requestOptions : List Bytes :=
  ["--config", "--socket", "--key-hex", "--key-file", "--agent-pubkey-hex", "--agent-pubkey-file",
    "--key-id", "--host-id", "--hostname", "--service", "--user", "--ruser", "--rhost", "--tty",
    "--sudo-command", "--timeout-ms", "--allowed-future-skew-ms", "--replay-cache-dir"].map utf8

theorem requestFlags_disjoint : ∀ name ∈ requestFlags, name ∉ requestOptions := by
  decide +kernel

/-- The options of the command `request`. -/
def requestGrammar : Grammar where
  flags := requestFlags
  valued := requestOptions
  disjoint := requestFlags_disjoint

/-- The arguments have the values of these options, and no others. -/
structure Describes (settings : List Setting) (args : RequestArgs) : Prop where
  requireRootOwned : args.requireRootOwned = Setting.isGiven settings (utf8 "--require-root-owned")
  config : args.config = Setting.valueOf settings (utf8 "--config")
  socket : args.socket = Setting.valueOf settings (utf8 "--socket")
  keyHex : args.keyHex.map utf8 = Setting.valueOf settings (utf8 "--key-hex")
  keyFile : args.keyFile = Setting.valueOf settings (utf8 "--key-file")
  agentPubkeyHex :
    args.agentPubkeyHex.map utf8 = Setting.valueOf settings (utf8 "--agent-pubkey-hex")
  agentPubkeyFile : args.agentPubkeyFile = Setting.valueOf settings (utf8 "--agent-pubkey-file")
  keyId : args.keyId.map utf8 = Setting.valueOf settings (utf8 "--key-id")
  hostId : args.hostId.map utf8 = Setting.valueOf settings (utf8 "--host-id")
  hostname : args.hostname.map utf8 = Setting.valueOf settings (utf8 "--hostname")
  service : args.service.map utf8 = Setting.valueOf settings (utf8 "--service")
  user : some (utf8 args.user) = Setting.valueOf settings (utf8 "--user")
  ruser : args.ruser.map utf8 = Setting.valueOf settings (utf8 "--ruser")
  rhost : args.rhost.map utf8 = Setting.valueOf settings (utf8 "--rhost")
  tty : args.tty.map utf8 = Setting.valueOf settings (utf8 "--tty")
  sudoCommand : args.sudoCommand.map utf8 = Setting.valueOf settings (utf8 "--sudo-command")
  timeoutMs : Setting.valueOf settings (utf8 "--timeout-ms") = none -> args.timeoutMs = none
  allowedFutureSkewMs :
    Setting.valueOf settings (utf8 "--allowed-future-skew-ms") = none ->
      args.allowedFutureSkewMs = none
  replayCacheDir : args.replayCacheDir = Setting.valueOf settings (utf8 "--replay-cache-dir")

/-- What `Cli::parse` makes of arguments for the command `request`. -/
inductive Parsed
  | request (args : RequestArgs)
  /-- The arguments are refused, and the process ends. -/
  | exits (status : UInt8)

/-- What the documentation of `clap` says about `Cli::parse`: every value goes to the option in
front of it, and arguments that are refused end the process with status 2. -/
structure ReadsArguments (parse : List Bytes -> Parsed) : Prop where
  request {program : Bytes} {settings : List Setting} {args : RequestArgs} :
    (∀ setting ∈ settings, requestGrammar.Allows setting) ->
    parse (program :: utf8 "request" :: Setting.render settings) = .request args ->
    Describes settings args
  usage {program : Bytes} {settings : List Setting} {status : UInt8} :
    (∀ setting ∈ settings, requestGrammar.Allows setting) ->
    parse (program :: utf8 "request" :: Setting.render settings) = .exits status -> status = 2

/-! ## What the module hands over -/

/-- A text that PAM has given, if it is not empty. -/
def given (item : Option Bytes) : Option Bytes :=
  if item = some [] then none else item

/-- The option with a value that may be missing. -/
def optionalSetting (name : String) (value : Option Bytes) : List Setting :=
  (given value).toList.map fun text => ⟨utf8 name, some text⟩

/-- The options that the module puts together. -/
def loginSettings
    (options : Pam.Options)
    (user : Bytes)
    (service ruser rhost tty : Option Bytes) : List Setting :=
  [⟨utf8 "--require-root-owned", none⟩, ⟨utf8 "--config", some options.configPath⟩,
    ⟨utf8 "--user", some user⟩] ++
    (optionalSetting "--service" service ++ (optionalSetting "--ruser" ruser ++
      (optionalSetting "--rhost" rhost ++ optionalSetting "--tty" tty)))

@[simp] theorem given_given (item : Option Bytes) : given (given item) = given item := by
  by_cases isEmpty : item = some []
  · simp [given, isEmpty]
  · simp [given, isEmpty]

theorem map_value_given (name : String) (value : Option Bytes) :
    ((given value).map fun text => (⟨utf8 name, some text⟩ : Setting)).bind Setting.value =
      given value := by
  cases given value <;> rfl

theorem pushArg_eq_some
    {length : Nat}
    {arguments pushed : List Bytes}
    {arg : Bytes}
    (pushes : Pam.pushArg length arguments arg = some pushed) :
    pushed = arguments ++ [arg] := by
  unfold Pam.pushArg at pushes
  split at pushes
  · cases pushes
  · exact (Option.some.inj pushes).symm

theorem pushOptionalPair_eq_some
    {length : Nat}
    {arguments pushed : List Bytes}
    {name : String}
    {value : Option Bytes}
    (pushes : Pam.pushOptionalPair length arguments (utf8 name) value = some pushed) :
    pushed = arguments ++ Setting.render (optionalSetting name value) := by
  unfold Pam.pushOptionalPair at pushes
  split at pushes
  · obtain rfl := Option.some.inj pushes
    simp [optionalSetting, given]
  · obtain rfl := Option.some.inj pushes
    simp [optionalSetting, given]
  · rename_i text nonempty
    obtain ⟨named, pushesName, pushesValue⟩ := Option.bind_eq_some_iff.mp pushes
    obtain rfl := pushArg_eq_some pushesName
    obtain rfl := pushArg_eq_some pushesValue
    have isGiven : given (some text) = some text := by
      unfold given
      rw [if_neg fun isEmpty => nonempty (Option.some.inj isEmpty)]
    simp [optionalSetting, isGiven]

/-- The arguments are the command line of these options. -/
theorem helperArguments_eq_some
    {options : Pam.Options}
    {user : Bytes}
    {service ruser rhost tty : Option Bytes}
    {arguments : List Bytes}
    (built : Pam.helperArguments options user service ruser rhost tty = some arguments) :
    arguments = options.helperPath :: utf8 "request" ::
      Setting.render (loginSettings options user service ruser rhost tty) := by
  unfold Pam.helperArguments at built
  obtain ⟨_, first, built⟩ := Option.bind_eq_some_iff.mp built
  obtain ⟨_, second, built⟩ := Option.bind_eq_some_iff.mp built
  obtain ⟨_, third, built⟩ := Option.bind_eq_some_iff.mp built
  obtain ⟨_, fourth, built⟩ := Option.bind_eq_some_iff.mp built
  obtain ⟨_, fifth, built⟩ := Option.bind_eq_some_iff.mp built
  obtain ⟨_, sixth, built⟩ := Option.bind_eq_some_iff.mp built
  obtain ⟨_, seventh, built⟩ := Option.bind_eq_some_iff.mp built
  obtain ⟨_, hasService, built⟩ := Option.bind_eq_some_iff.mp built
  obtain ⟨_, hasRuser, built⟩ := Option.bind_eq_some_iff.mp built
  obtain ⟨_, hasRhost, hasTty⟩ := Option.bind_eq_some_iff.mp built
  rw [pushOptionalPair_eq_some hasTty, pushOptionalPair_eq_some hasRhost,
    pushOptionalPair_eq_some hasRuser, pushOptionalPair_eq_some hasService,
    pushArg_eq_some seventh, pushArg_eq_some sixth, pushArg_eq_some fifth, pushArg_eq_some fourth,
    pushArg_eq_some third, pushArg_eq_some second, pushArg_eq_some first]
  simp [loginSettings]

theorem allows_option
    {name : Bytes}
    (isOption : name ∈ requestOptions)
    (value : Bytes) :
    requestGrammar.Allows ⟨name, some value⟩ :=
  .inr ⟨isOption, by simp⟩

theorem mem_requestOptions {name : String}
    (member : name ∈ ["--config", "--user", "--service", "--ruser", "--rhost", "--tty"]) :
    utf8 name ∈ requestOptions := by
  unfold requestOptions
  apply List.mem_map_of_mem
  simp only [List.mem_cons, List.not_mem_nil, or_false] at member ⊢
  tauto

theorem allows_loginSettings
    (options : Pam.Options)
    (user : Bytes)
    (service ruser rhost tty : Option Bytes) :
    ∀ setting ∈ loginSettings options user service ruser rhost tty,
      requestGrammar.Allows setting := by
  have optional {name : String} {value : Option Bytes} (isOption : utf8 name ∈ requestOptions) :
      ∀ setting ∈ optionalSetting name value, requestGrammar.Allows setting := by
    intro setting member
    obtain ⟨text, _, rfl⟩ := List.mem_map.mp member
    exact allows_option isOption text
  intro setting member
  unfold loginSettings at member
  simp only [List.mem_append, List.mem_cons, List.not_mem_nil, or_false] at member
  rcases member with (rfl | rfl | rfl) | isService | isRuser | isRhost | isTty
  · exact .inl ⟨List.mem_map_of_mem List.mem_cons_self, rfl⟩
  · exact allows_option (mem_requestOptions (by simp)) _
  · exact allows_option (mem_requestOptions (by simp)) _
  · exact optional (mem_requestOptions (by simp)) setting isService
  · exact optional (mem_requestOptions (by simp)) setting isRuser
  · exact optional (mem_requestOptions (by simp)) setting isRhost
  · exact optional (mem_requestOptions (by simp)) setting isTty

theorem utf8_beq (first second : String) : (utf8 first == utf8 second) = (first == second) := by
  rw [Bool.eq_iff_iff, beq_iff_eq, beq_iff_eq]
  exact Protocol.utf8_injective.eq_iff

theorem find?_optionalSetting (name other : String) (value : Option Bytes) :
    (optionalSetting name value).find? (fun setting => setting.name == utf8 other) =
      if name = other then (given value).map fun text => ⟨utf8 name, some text⟩ else none := by
  unfold optionalSetting
  cases given value with
  | none => simp
  | some text =>
      by_cases same : name = other
      · simp [same]
      · simp [same, utf8_beq]

/-- The settings that the helper takes from the module. Everything else comes from the
configuration. -/
structure FromLogin
    (options : Pam.Options)
    (user : Bytes)
    (service ruser rhost tty : Option Bytes)
    (args : RequestArgs) : Prop where
  production : args.requireRootOwned = true
  config : args.config = some options.configPath
  agentPubkeyHex : args.agentPubkeyHex = none
  agentPubkeyFile : args.agentPubkeyFile = none
  user : utf8 args.user = user
  service : args.service.map utf8 = given service
  ruser : args.ruser.map utf8 = given ruser
  rhost : args.rhost.map utf8 = given rhost
  tty : args.tty.map utf8 = given tty
  sudoCommand : args.sudoCommand = none

theorem Describes.fromLogin
    {options : Pam.Options}
    {user : Bytes}
    {service ruser rhost tty : Option Bytes}
    {args : RequestArgs}
    (describes : Describes (loginSettings options user service ruser rhost tty) args) :
    FromLogin options user service ruser rhost tty args where
  production := by
    rw [describes.requireRootOwned]
    rfl
  config := by
    rw [describes.config]
    simp [Setting.valueOf, loginSettings, utf8_beq]
  agentPubkeyHex := by
    have none := describes.agentPubkeyHex
    simpa [Setting.valueOf, loginSettings, utf8_beq, List.find?_append, find?_optionalSetting]
      using none
  agentPubkeyFile := by
    rw [describes.agentPubkeyFile]
    simp [Setting.valueOf, loginSettings, utf8_beq, List.find?_append, find?_optionalSetting]
  user := by
    have same := describes.user
    simpa [Setting.valueOf, loginSettings, utf8_beq] using same
  service := by
    rw [describes.service]
    simp [Setting.valueOf, loginSettings, utf8_beq, List.find?_append, find?_optionalSetting,
      map_value_given]
  ruser := by
    rw [describes.ruser]
    simp [Setting.valueOf, loginSettings, utf8_beq, List.find?_append, find?_optionalSetting,
      map_value_given]
  rhost := by
    rw [describes.rhost]
    simp [Setting.valueOf, loginSettings, utf8_beq, List.find?_append, find?_optionalSetting,
      map_value_given]
  tty := by
    rw [describes.tty]
    simp [Setting.valueOf, loginSettings, utf8_beq, List.find?_append, find?_optionalSetting,
      map_value_given]
  sudoCommand := by
    have none := describes.sudoCommand
    simpa [Setting.valueOf, loginSettings, utf8_beq, List.find?_append, find?_optionalSetting]
      using none

end EndToEnd
end MacosAuth
