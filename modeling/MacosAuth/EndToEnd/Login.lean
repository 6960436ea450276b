import MacosAuth.EndToEnd.Approval
import MacosAuth.EndToEnd.CommandLine
import MacosAuth.Pam.Supervision

/-!
# Logins

A login calls the PAM module. The module forks a child that becomes the helper, hands it the
user and the circumstances of the login as arguments, and waits for its exit status. The helper
asks the agent, whose worker asks the user at the Mac.

If the module returns success, then the user has approved a request that names the very user,
service, remote user, remote host and terminal that PAM has given to the module, and no
approved request is that of two logins. The parser of the command line is a parameter, as are
the processes of the system: a status that `waitpid` reports is the one with which the child has
ended.
-/

namespace MacosAuth
namespace EndToEnd

open Codec
open Effect Effect.Program
open Protocol (utf8 nonceLen)
open Helper (Crates RequestArgs Prepared Stop HelperEvent)
open Agent (Platform AgentRuntime AgentEvent Deadline)
open Pam (PamEvent ChildEnd)

/-! ## The module and its child -/

theorem ends_pamItemString
    {item : Pam.Item}
    {trace : List PamEvent}
    {value : Option Bytes} :
    Ends (Pam.pamItemString item) trace (.ok value) ↔
      ∃ raw, trace = [⟨.getItem item, raw⟩] ∧ value = given raw := by
  rw [Pam.pamItemString, ends_perform_bind]
  constructor
  · rintro ⟨raw, _, rfl, ended⟩
    obtain ⟨rfl, same⟩ := (ends_pure _ _ _).mp ended
    exact ⟨raw, rfl, Except.ok.inj same⟩
  · rintro ⟨raw, rfl, rfl⟩
    exact ⟨raw, [], rfl, (ends_pure _ _ _).mpr ⟨rfl, rfl⟩⟩

/-- What the module has learned by the time it forks. -/
structure Asked (argv : List Bytes) (before : List PamEvent) where
  service : Option Bytes
  ruser : Option Bytes
  rhost : Option Bytes
  tty : Option Bytes
  user : Bytes
  arguments : List Bytes
  file : Helper.File
  opening : List PamEvent
  start : Pam.Timespec
  before_eq : before = ⟨.getItem .service, service⟩ :: ⟨.getItem .ruser, ruser⟩ ::
    ⟨.getItem .rhost, rhost⟩ :: ⟨.getItem .tty, tty⟩ :: ⟨.getUser, some user⟩ ::
    (opening ++ [⟨.clockGettime, some start⟩])
  nonempty : user ≠ []
  built : Pam.helperArguments (Pam.parseOptions argv) user (given service) (given ruser)
    (given rhost) (given tty) = some arguments
  opened : Ends (Pam.onFiles (Pam.validateHelperPath (Pam.parseOptions argv).helperPath).attempt :
    Pam.Routine (Except Unit Helper.File)) opening (.ok (.ok file))

/-- Success comes from a child whose exit status was 0. -/
theorem exists_asked_of_success
    {rounds : Nat}
    {argv : List Bytes}
    {trace : List PamEvent}
    (ends : Ends (Pam.pamSmAuthenticate rounds argv) trace (.ok .success)) :
    ∃ before pid polls after, Nonempty (Asked argv before) ∧
      trace = before ++ ⟨.fork, .parent pid⟩ ::
        (polls ++ ⟨.waitNoHang pid, .ended (.exited 0)⟩ :: after) := by
  unfold Pam.pamSmAuthenticate at ends
  dsimp only at ends
  obtain ⟨_, _, _, rfl, asksService, first⟩ := (ends_bind_ok _ _ _ _).mp ends
  obtain ⟨service, rfl, rfl⟩ := ends_pamItemString.mp asksService
  obtain ⟨_, _, _, rfl, asksRuser, second⟩ := (ends_bind_ok _ _ _ _).mp first
  obtain ⟨ruser, rfl, rfl⟩ := ends_pamItemString.mp asksRuser
  obtain ⟨_, _, _, rfl, asksRhost, third⟩ := (ends_bind_ok _ _ _ _).mp second
  obtain ⟨rhost, rfl, rfl⟩ := ends_pamItemString.mp asksRhost
  obtain ⟨_, _, _, rfl, asksTty, fourth⟩ := (ends_bind_ok _ _ _ _).mp third
  obtain ⟨tty, rfl, rfl⟩ := ends_pamItemString.mp asksTty
  obtain ⟨user, _, rfl, fifth⟩ := (ends_perform_bind _ _ _ _).mp fourth
  split at fifth
  · simp at fifth
  · simp at fifth
  · rename_i user nonempty
    split at fifth
    · simp at fifth
    · rename_i arguments built
      obtain ⟨opening, _, opened, rfl, opens, sixth⟩ := (ends_bind_ok _ _ _ _).mp fifth
      split at sixth
      · simp at sixth
      · rename_i file
        obtain ⟨run, _, helperExit, rfl, ran, closes⟩ := (ends_bind_ok _ _ _ _).mp sixth
        obtain ⟨closed, _, rfl, mapped⟩ := (ends_perform_bind _ _ _ _).mp closes
        obtain ⟨rfl, equal⟩ := (ends_pure _ _ _).mp mapped
        obtain rfl := Pam.mapExitToPam_eq_success_iff.mp (Except.ok.inj equal).symm
        obtain ⟨start, pid, polls, status, isZero, rfl, _⟩ :=
          (Pam.supervised_of_ends ran).status (by decide) (by decide)
        obtain rfl : status = 0 := UInt8.toNat_inj.mp isZero.symm
        refine ⟨_, pid, polls, [⟨.close file, closed⟩], ⟨{
          service := service
          ruser := ruser
          rhost := rhost
          tty := tty
          user := user
          arguments := arguments
          file := file
          opening := opening
          start := start
          before_eq := rfl
          nonempty := fun isEmpty => nonempty isEmpty
          built := built
          opened := opens }⟩, ?_⟩
        simp

/-- How the child ends. -/
def ChildEnds (arguments : List Bytes) (calls : List PamEvent) (ended : ChildEnd) : Prop :=
  ended = .exit 127 ∨
    (ended = .replaced ∧ ⟨.execFd arguments Pam.helperEnvironment, true⟩ ∈ calls)

theorem childEnds_of_becomeHelper
    {file : Helper.File}
    {arguments : List Bytes}
    {calls : List PamEvent}
    {ended : ChildEnd}
    (ends : Ends (Pam.becomeHelper file arguments) calls (.error ended)) :
    ChildEnds arguments calls ended := by
  have exits {trace : List PamEvent} (ends : Ends (fail (ChildEnd.exit 127) : Pam.Routine Nat) trace
      (.error ended)) : ended = .exit 127 :=
    Except.error.inj ((ends_fail _ _ _).mp ends).2
  unfold Pam.becomeHelper at ends
  obtain ⟨moved, _, rfl, first⟩ := (ends_perform_bind _ _ _ _).mp ends
  split at first
  · exact .inl (exits first)
  · obtain ⟨flagged, _, rfl, second⟩ := (ends_perform_bind _ _ _ _).mp first
    split at second
    · exact .inl (exits second)
    · obtain ⟨closed, _, rfl, third⟩ := (ends_perform_bind _ _ _ _).mp second
      split at third
      · exact .inl (exits third)
      · obtain ⟨replaced, _, rfl, fourth⟩ := (ends_perform_bind _ _ _ _).mp third
        split at fourth
        · rename_i isReplaced
          obtain rfl : replaced = true := isReplaced
          obtain ⟨rfl, same⟩ := (ends_fail _ _ _).mp fourth
          exact .inr ⟨Except.error.inj same, by simp⟩
        · exact .inl (exits fourth)

/-- The child goes on with what the module has learned. -/
theorem Asked.child
    {rounds : Nat}
    {argv : List Bytes}
    {before calls : List PamEvent}
    {ended : ChildEnd}
    (asked : Asked argv before)
    (ends : Ends (Pam.pamSmAuthenticate rounds argv) (before ++ ⟨.fork, .child⟩ :: calls)
      (.error ended)) :
    ChildEnds asked.arguments calls ended := by
  obtain ⟨service, ruser, rhost, tty, user, arguments, file, opening, start, rfl, nonempty, built,
    opened⟩ := asked
  unfold Pam.pamSmAuthenticate at ends
  dsimp only at ends
  have ends := (ends_pamItemString.mpr ⟨service, rfl, rfl⟩).steps_bind ends
  have ends := (ends_pamItemString.mpr ⟨ruser, rfl, rfl⟩).steps_bind ends
  have ends := (ends_pamItemString.mpr ⟨rhost, rfl, rfl⟩).steps_bind ends
  have ends := (ends_pamItemString.mpr ⟨tty, rfl, rfl⟩).steps_bind ends
  have getsUser : Ends (perform Pam.Call.getUser : Pam.Routine (Option Bytes))
      [⟨.getUser, some user⟩] (.ok (some user)) :=
    (ends_perform _ _ _).mpr ⟨some user, rfl, rfl⟩
  have ends := getsUser.steps_bind ends
  cases user with
  | nil => exact absurd rfl nonempty
  | cons byte user =>
      dsimp only at ends
      rw [built] at ends
      dsimp only at ends
      simp only [List.append_eq, List.append_assoc] at ends
      have ends := opened.steps_bind ends
      dsimp only at ends
      rcases (ends_bind _ _ _ _).mp ends with ⟨_, _, code, _, _, closes⟩ | ⟨error, ends, same⟩
      · obtain ⟨_, _, _, impossible⟩ := (ends_perform_bind _ _ _ _).mp closes
        cases ((ends_pure _ _ _).mp impossible).2
      · obtain rfl := Except.error.inj same
        unfold Pam.runHelper at ends
        split at ends
        · cases ((ends_pure _ _ _).mp ends).2
        · have clock : Ends Pam.monotonicMs [⟨.clockGettime, some start⟩]
              (.ok (some start.milliseconds)) :=
            (ends_perform_bind _ _ _ _).mpr ⟨some start, [], rfl, (ends_pure _ _ _).mpr ⟨rfl, rfl⟩⟩
          have ends := clock.steps_bind ends
          have forks : Ends (perform Pam.Call.fork : Pam.Routine Pam.ForkResult)
              [⟨.fork, .child⟩] (.ok .child) :=
            (ends_perform _ _ _).mpr ⟨.child, rfl, rfl⟩
          have ends := forks.steps_bind ends
          exact childEnds_of_becomeHelper ends

/-! ## A login -/

/-- The helper at the end of its process: `main` exits with the code of the run. -/
def Exits
    (parse : List Bytes -> Parsed)
    (args : RequestArgs)
    (finished : Except Stop Nat -> Prop)
    (arguments : List Bytes)
    (status : UInt8) : Prop :=
  match parse arguments with
  | .request parsed =>
      parsed = args ∧ ∃ result, finished result ∧ status = UInt8.ofNat (Helper.exitCode result)
  | .exits code => status = code

/-- A call of the module that has returned, with its child. The executable at the path of the
helper is the helper, whose run is given. -/
structure Login
    (parse : List Bytes -> Parsed)
    (args : RequestArgs)
    (finished : Except Stop Nat -> Prop) where
  rounds : Nat
  /-- The options of the module. -/
  argv : List Bytes
  trace : List PamEvent
  result : Pam.PamResult
  returns : Ends (Pam.pamSmAuthenticate rounds argv) trace (.ok result)
  /-- The child is a copy of the module up to the fork. If `waitpid` reports an exit status, then
  the child has ended with it, or it had become the helper and this has. -/
  child : ∀ before pid after status, trace = before ++ ⟨.fork, .parent pid⟩ :: after ->
    ⟨.waitNoHang pid, .ended (.exited status)⟩ ∈ after ->
    ∃ calls ended,
      Ends (Pam.pamSmAuthenticate rounds argv) (before ++ ⟨.fork, .child⟩ :: calls)
        (.error ended) ∧
      (∀ code, ended = .exit code -> status = code) ∧
      (ended = .replaced -> ∀ arguments environment,
        ⟨.execFd arguments environment, true⟩ ∈ calls ->
          Exits parse args finished arguments status)

/-- The child of a call has become the helper, with the arguments of the call. -/
def BecameHelper
    (rounds : Nat)
    {argv : List Bytes}
    {before : List PamEvent}
    (asked : Asked argv before) : Prop :=
  ∃ calls, Ends (Pam.pamSmAuthenticate rounds argv) (before ++ ⟨.fork, .child⟩ :: calls)
      (.error .replaced) ∧
    ⟨.execFd asked.arguments Pam.helperEnvironment, true⟩ ∈ calls

/-- A login that succeeds was decided by the helper, which had the settings of the login. -/
theorem Login.exists_finished
    {parse : List Bytes -> Parsed}
    {args : RequestArgs}
    {finished : Except Stop Nat -> Prop}
    (login : Login parse args finished)
    (reads : ReadsArguments parse)
    (succeeded : login.result = .success) :
    ∃ before, ∃ asked : Asked login.argv before, before <+: login.trace ∧
      BecameHelper login.rounds asked ∧
      FromLogin (Pam.parseOptions login.argv) asked.user asked.service asked.ruser asked.rhost
        asked.tty args ∧
      ∃ result, finished result ∧ UInt8.ofNat (Helper.exitCode result) = 0 := by
  have returns := login.returns
  rw [succeeded] at returns
  obtain ⟨before, pid, polls, after, ⟨asked⟩, split⟩ := exists_asked_of_success returns
  obtain ⟨calls, ended, ends, exited, replaced⟩ := login.child before pid _ 0 split (by simp)
  refine ⟨before, asked, ⟨_, split.symm⟩, ?_⟩
  rcases asked.child ends with isExit | ⟨isReplaced, executed⟩
  · exact absurd (exited 127 isExit) (by decide)
  · have exits := replaced isReplaced _ _ executed
    rw [isReplaced] at ends
    refine ⟨⟨calls, ends, executed⟩, ?_⟩
    have commandLine := helperArguments_eq_some asked.built
    have allowed := allows_loginSettings (Pam.parseOptions login.argv) asked.user
      (given asked.service) (given asked.ruser) (given asked.rhost) (given asked.tty)
    rw [commandLine] at exits
    unfold Exits at exits
    split at exits
    · rename_i parsed accepted
      obtain ⟨rfl, result, isFinished, isZero⟩ := exits
      have settings := (reads.request allowed accepted).fromLogin
      refine ⟨?_, result, isFinished, isZero.symm⟩
      exact {
        production := settings.production
        config := settings.config
        agentPubkeyHex := settings.agentPubkeyHex
        agentPubkeyFile := settings.agentPubkeyFile
        user := settings.user
        service := by rw [settings.service, given_given]
        ruser := by rw [settings.ruser, given_given]
        rhost := by rw [settings.rhost, given_given]
        tty := by rw [settings.tty, given_given]
        sudoCommand := settings.sudoCommand }
    · rename_i code refused
      have usage := reads.usage allowed refused
      rw [← exits] at usage
      exact absurd usage (by decide)

/-! ## What the helper asks for -/

/-- The request names the settings. -/
theorem prepared_context
    {crates : Crates}
    {args : RequestArgs}
    {trace : List HelperEvent}
    {prepared : Prepared}
    (ended : Ends (Helper.prepareRequest crates args) trace (.ok prepared)) :
    prepared.request.body.pamUser = args.user ∧
      (∀ service, args.service = some service -> prepared.request.body.pamService = service) ∧
      prepared.request.body.pamRuser = args.ruser ∧ prepared.request.body.pamRhost = args.rhost ∧
      prepared.request.body.pamTty = args.tty ∧
      prepared.request.body.sudoCommand = args.sudoCommand := by
  rw [Helper.prepareRequest, ends_bind_ok] at ended
  obtain ⟨_, _, config, _, _, ended⟩ := ended
  rw [ends_bind_ok] at ended
  obtain ⟨_, _, signingKey, _, _, ended⟩ := ended
  rw [ends_bind_ok] at ended
  obtain ⟨_, _, agentPubkey, _, _, ended⟩ := ended
  rw [ends_bind_ok] at ended
  obtain ⟨_, _, socket, _, _, ended⟩ := ended
  rw [ends_bind_ok] at ended
  obtain ⟨_, _, hostId, _, _, ended⟩ := ended
  rw [ends_bind_ok] at ended
  obtain ⟨_, _, hostname, _, _, ended⟩ := ended
  rw [ends_bind_ok] at ended
  obtain ⟨_, _, replayCache, _, _, ended⟩ := ended
  rw [ends_bind_ok] at ended
  obtain ⟨_, _, wall, _, _, ended⟩ := ended
  rw [ends_bind_ok] at ended
  obtain ⟨_, _, budget, _, _, ended⟩ := ended
  split at ended
  · exact absurd ((ends_fail _ _ _).mp ended).2 (by simp)
  · rw [ends_bind_ok] at ended
    obtain ⟨_, _, body, _, built, ended⟩ := ended
    rw [ends_mapError_ok, Helper.buildRequest, ends_perform_bind] at built
    obtain ⟨nonce, _, _, built⟩ := built
    rw [ends_perform_bind] at built
    obtain ⟨pid, _, _, built⟩ := built
    obtain rfl := Except.ok.inj ((ends_pure _ _ _).mp built).2
    rw [ends_bind_ok] at ended
    obtain ⟨_, _, request, _, signed, ended⟩ := ended
    have same := (Helper.ends_signRequest (ends_mapError_ok.mp signed)).1
    obtain rfl := Except.ok.inj ((ends_pure _ _ _).mp ended).2
    dsimp only
    rw [same]
    refine ⟨rfl, fun service isService => ?_, rfl, rfl, rfl, rfl⟩
    rw [isService]
    rfl

/-- The exit codes of a request fit into a byte. -/
theorem exitCode_lt
    {crates : Crates}
    {rounds : Nat}
    {args : RequestArgs}
    {trace : List HelperEvent}
    {result : Except Stop Nat}
    (ended : Ends (Helper.runRequest crates rounds args) trace result) :
    Helper.exitCode result < 256 := by
  cases result with
  | ok code =>
      obtain ⟨decision, _, rfl⟩ := Helper.ends_runRequest_ok.mp ended
      cases decision <;> decide
  | error stop =>
      rcases Helper.ends_runRequest_error ended with ⟨error, rfl⟩ | ⟨code, rfl, member⟩ | ⟨rfl, _⟩
      · exact (by decide : 1 < 256)
      · simp only [List.mem_cons, List.not_mem_nil, or_false] at member
        rcases member with rfl | rfl | rfl <;> decide
      · decide


section Confirmation

variable {Invocation Worker : Type} [DecidableEq Invocation] [DecidableEq Worker]
variable {publicKeyOf : Bytes -> Bytes} {agentKey : Bytes} {keys : Agent.KeyPlatform Bytes}
variable {limiter : Agent.RateLimiter}
variable {crates : Crates} {platform : Platform Bytes} {runtime : AgentRuntime Bytes}
variable {rounds : Nat} {args : Invocation -> RequestArgs} {deadline : Worker -> Deadline}
variable {history : History Invocation Worker} {pool : Parties Invocation Worker}
variable {start world : World Worker}

/-- A worker has asked the user to approve this request of the helper, and the user has. The
request names what PAM has given to the module. -/
structure Confirmed
    (platform : Platform Bytes)
    (runtime : AgentRuntime Bytes)
    (rounds : Nat)
    (history : History Invocation Worker)
    (invocation : Invocation)
    {argv : List Bytes}
    {before : List PamEvent}
    (asked : Asked argv before)
    (request : Agent.SignedAuthRequest) : Prop where
  decided : ∃ worker past, past <+: traceOf (Party.worker worker) history ∧
    Agent.Decided platform runtime rounds request .approved past
  drawn : ∃ nonce, ⟨.fillBytes nonceLen, nonce⟩ ∈ traceOf (Party.helper invocation) history ∧
    request.body.nonce = nonce.val
  user : utf8 request.body.pamUser = asked.user
  service : ∀ text, given asked.service = some text -> utf8 request.body.pamService = text
  ruser : request.body.pamRuser.map utf8 = given asked.ruser
  rhost : request.body.pamRhost.map utf8 = given asked.rhost
  tty : request.body.pamTty.map utf8 = given asked.tty
  sudoCommand : request.body.sudoCommand = none

/-- The agent's request with the signing bytes of the helper's request is this request. -/
theorem toProtocol_eq
    {request : Agent.AuthRequestBody}
    {body : Protocol.AuthRequestBody}
    (encodable : body.Encodable)
    (same : request.canonicalBytes = .ok body.encoding) :
    request.toProtocol = body := by
  obtain ⟨_, encoded⟩ := Agent.AuthRequestBody.canonicalBytes_eq_ok_iff.mp same
  obtain ⟨fits, equal⟩ := Protocol.AuthRequestBody.canonicalBytes_eq_ok_iff.mp encoded
  have both := Protocol.AuthRequestBody.selfDelimiting_encoding _ _ fits encodable [] []
    (by rw [← equal])
  exact both.1

/-- What the agent has decided on is what the module has asked for. -/
theorem exists_confirmed
    {invocation : Invocation}
    {argv : List Bytes}
    {before : List PamEvent}
    {asked : Asked argv before}
    {prepared : Prepared}
    {response : Protocol.SignedAuthResponse}
    (settings : FromLogin (Pam.parseOptions argv) asked.user asked.service asked.ruser asked.rhost
      asked.tty (args invocation))
    (approves : Approves crates rounds (args invocation)
      (traceOf (Party.helper invocation) history) prepared response)
    (backed : Backed agentKey platform runtime rounds history invocation prepared response) :
    ∃ request, Confirmed platform runtime rounds history invocation asked request := by
  obtain ⟨_, _, _, _, encodable, _⟩ := approves.calls
  obtain ⟨_, _, ⟨_, split, prepares⟩, _⟩ := approves
  obtain ⟨origin⟩ := Helper.ends_prepareRequest prepares
  obtain ⟨user, service, ruser, rhost, tty, sudoCommand⟩ := prepared_context prepares
  obtain ⟨earlier, later, worker, past, _, next, isHistory, signs, request, _, _, canonical,
    decided, _⟩ := backed
  have same : request.body.toProtocol = prepared.request.body := toProtocol_eq encodable canonical
  refine ⟨request, {
    decided := ⟨worker, past, ?_, decided⟩
    drawn := ⟨origin.nonce, ?_, ?_⟩
    user := ?_
    service := fun text isGiven => ?_
    ruser := ?_
    rhost := ?_
    tty := ?_
    sudoCommand := ?_ }⟩
  · rw [isHistory, traceOf_append, signs, List.append_assoc]
    exact List.prefix_append _ _
  · rw [split]
    exact List.mem_append_left _ origin.drawn
  · exact (congrArg Protocol.AuthRequestBody.nonce same).trans origin.nonce_eq
  · have named : request.body.pamUser = prepared.request.body.pamUser :=
      congrArg Protocol.AuthRequestBody.pamUser same
    rw [named, user, settings.user]
  · have named : request.body.pamService = prepared.request.body.pamService :=
      congrArg Protocol.AuthRequestBody.pamService same
    obtain ⟨text, isService, rfl⟩ := Option.map_eq_some_iff.mp (settings.service.trans isGiven)
    rw [named, service text isService]
  · have named : request.body.pamRuser = prepared.request.body.pamRuser :=
      congrArg Protocol.AuthRequestBody.pamRuser same
    rw [named, ruser, settings.ruser]
  · have named : request.body.pamRhost = prepared.request.body.pamRhost :=
      congrArg Protocol.AuthRequestBody.pamRhost same
    rw [named, rhost, settings.rhost]
  · have named : request.body.pamTty = prepared.request.body.pamTty :=
      congrArg Protocol.AuthRequestBody.pamTty same
    rw [named, tty, settings.tty]
  · have named : request.body.sudoCommand = prepared.request.body.sudoCommand :=
      congrArg Protocol.AuthRequestBody.sudoCommand same
    rw [named, sudoCommand, settings.sudoCommand]

/-- If a call of the module returns success, then its child has become the helper, with the user
and the circumstances of the call as its settings. This helper has accepted an approval, which it
has verified with the key of its configuration. If this is the key of the agent, then the user
has approved a request that names the user and the circumstances for which PAM has called the
module. No approved request is that of two invocations of the helper. -/
theorem login_confirmed
    (publicKeyOf : Bytes -> Bytes)
    (agentKey : Bytes)
    (crates : Crates)
    (platform : Platform Bytes)
    (runtime : AgentRuntime Bytes)
    (rounds : Nat)
    (args : Invocation -> RequestArgs)
    (deadline : Worker -> Deadline)
    (agent : Agent.World Worker)
    (parse : List Bytes -> Parsed)
    (reads : ReadsArguments parse)
    (sameDigest : platform.digest = crates.digest)
    (run : (network publicKeyOf agentKey platform.keys runtime.rateLimiter).Run
      (parties crates platform runtime rounds args deadline) ⟨[], agent⟩ history pool world)
    (noCollisions : NoCollisions crates.digest history)
    (freshNonces : FreshNonces history) :
    (∀ invocation,
      ∀ login : Login parse (args invocation) fun result =>
        pool (.helper invocation) = .done result,
      login.result = .success ->
      ∃ before, ∃ asked : Asked login.argv before, before <+: login.trace ∧
        BecameHelper login.rounds asked ∧
        FromLogin (Pam.parseOptions login.argv) asked.user asked.service asked.ruser asked.rhost
          asked.tty (args invocation) ∧
        ∃ prepared response,
          Approves crates rounds (args invocation) (traceOf (Party.helper invocation) history)
            prepared response ∧
          (prepared.agentPubkey = agentKey ->
            ∃ request, Confirmed platform runtime rounds history invocation asked request)) ∧
    ∀ first second request firstArgv secondArgv firstBefore secondBefore,
      ∀ firstAsked : Asked firstArgv firstBefore, ∀ secondAsked : Asked secondArgv secondBefore,
      Confirmed platform runtime rounds history first firstAsked request ->
      Confirmed platform runtime rounds history second secondAsked request ->
      first = second := by
  constructor
  · intro invocation login succeeded
    obtain ⟨before, asked, isPrefix, became, settings, result, finished, isZero⟩ :=
      login.exists_finished reads succeeded
    have ended : Ends (Helper.runRequest crates rounds (args invocation))
        (traceOf (Party.helper invocation) history) result := by
      have steps := run.steps (.helper invocation)
      rwa [finished] at steps
    have isCode : Helper.exitCode result = 0 := by
      have residue := congrArg UInt8.toNat isZero
      rw [UInt8.toNat_ofNat', Nat.mod_eq_of_lt (exitCode_lt ended)] at residue
      exact residue
    obtain ⟨prepared, response, approves⟩ := approves_of_exitCode ended isCode
    refine ⟨before, asked, isPrefix, became, settings, prepared, response, approves, ?_⟩
    intro isAgentKey
    exact exists_confirmed settings approves
      (backed_of_approves sameDigest run rfl noCollisions approves isAgentKey)
  · intro first second request _ _ _ _ _ _ firstConfirmed secondConfirmed
    obtain ⟨firstNonce, firstDrawn, firstEqual⟩ := firstConfirmed.drawn
    obtain ⟨secondNonce, secondDrawn, secondEqual⟩ := secondConfirmed.drawn
    by_contra different
    apply freshNonces first second firstNonce secondNonce different firstDrawn secondDrawn
    rw [← firstEqual, secondEqual]

end Confirmation

/-! ## A login that succeeds -/

namespace Sudo

open Agent (webPlatform webRuntime webRequest)

/-- The items of a call of `sudo`. -/
def item : Pam.Item -> Option Bytes
  | .service => some (utf8 "sudo")
  | _ => none

/-- Short paths for the helper and its configuration. -/
def argv : List Bytes := [utf8 "helper=/h", utf8 "conf=/c"]

/-- The options that the module puts together. -/
def settings : List Setting :=
  loginSettings (Pam.parseOptions argv) (utf8 "ada") (item .service) (item .ruser) (item .rhost)
    (item .tty)

def args : RequestArgs where
  requireRootOwned := true
  config := some (utf8 "/c")
  socket := none
  keyHex := none
  keyFile := none
  agentPubkeyHex := none
  agentPubkeyFile := none
  keyId := none
  hostId := none
  hostname := none
  service := some "sudo"
  user := "ada"
  ruser := none
  rhost := none
  tty := none
  sudoCommand := none
  timeoutMs := none
  allowedFutureSkewMs := none
  replayCacheDir := none

/-- A command line with other options is refused. -/
def parse : List Bytes -> Parsed
  | _ :: command :: options =>
      if command = utf8 "request" ∧ requestGrammar.parse options = some settings then
        .request args
      else
        .exits 2
  | _ => .exits 2

theorem describes_settings : Describes settings args where
  requireRootOwned := rfl
  config := rfl
  socket := rfl
  keyHex := rfl
  keyFile := rfl
  agentPubkeyHex := rfl
  agentPubkeyFile := rfl
  keyId := rfl
  hostId := rfl
  hostname := rfl
  service := rfl
  user := rfl
  ruser := rfl
  rhost := rfl
  tty := rfl
  sudoCommand := rfl
  timeoutMs _ := rfl
  allowedFutureSkewMs _ := rfl
  replayCacheDir := rfl

theorem readsArguments_parse : ReadsArguments parse where
  request {program given parsed} allowed accepted := by
    unfold parse at accepted
    dsimp only at accepted
    split at accepted
    · rename_i matched
      obtain rfl := Parsed.request.inj accepted
      rw [← Grammar.eq_of_parse_render allowed matched.2]
      exact describes_settings
    · cases accepted
  usage {program given status} _ refused := by
    unfold parse at refused
    dsimp only at refused
    split at refused
    · cases refused
    · exact (Parsed.exits.inj refused).symm

def config : Helper.HelperConfig where
  socketPath := some (utf8 "/run/agent.sock")
  hostKeyFile := some (utf8 "/k")
  agentPubkeyFile := some (utf8 "/k")
  keyId := none
  hostId := some "web"
  hostname := some "web"
  service := none
  timeoutMs := none
  allowedFutureSkewMs := none
  replayCacheDir := none

def crates : Crates :=
  { webCrates with configFromToml := fun _ => some config }

/-- The contents of every file. -/
def contents : Bytes :=
  utf8 "0101010101010101010101010101010101010101010101010101010101010101"

def received (position limit : Nat) : { bytes : Bytes // bytes.length ≤ limit } :=
  ⟨(contents.drop position).take limit, List.length_take_le _ _⟩

/-- Only the file with the keys is private. -/
def status (file : Helper.File) : Helper.Metadata where
  isDir := file = 0
  isFile := file ≠ 0
  uid := 0
  mode := if file = 2 then 0x180 else 0x1ed

/-- The surroundings of the host `web`, with files that belong to root. -/
def respondHelper (world : EndToEnd.World Unit) :
    (request : Helper.Call) -> request.Answer × EndToEnd.World Unit
  | .openRoot => (.ok (0 : Nat), world)
  | .openat _ name _ => (.ok (if name = utf8 "k" then (2 : Nat) else 1), world)
  | .fstat file => (.ok (status file), world)
  | .read _ position limit => (.ok (received position limit), world)
  | request => world.respondHelper request

theorem servesHelper_respondHelper (world : EndToEnd.World Unit) (request : Helper.Call) :
    world.servesHelper id request (respondHelper world request).1
      (respondHelper world request).2 := by
  cases request
  case verify publicKey message signature =>
    exact world.servesHelper_respond (.verify publicKey message signature)
  all_goals rfl

/-- The surroundings of the module, in one of the two processes. -/
def respondModule (forked : Pam.ForkResult) (_ : Unit) :
    (request : Pam.Call) -> request.Answer × Unit
  | .files request => ((respondHelper ⟨[], .initial 0 fun _ => []⟩ request).1, ())
  | .getItem asked => (item asked, ())
  | .getUser => (some (utf8 "ada"), ())
  | .clockGettime => (some ⟨1, 0⟩, ())
  | .fork => (forked, ())
  | .waitNoHang _ => (.ended (.exited 0), ())
  | .wait _ => (.error 10, ())
  | .kill _ _ => ((), ())
  | .usleep _ => ((), ())
  | .close _ => ((), ())
  | .moveToThree _ => (true, ())
  | .setCloseOnExec => (true, ())
  | .closeInheritedFds => (true, ())
  | .execFd _ _ => (true, ())

/-- The calls of the module. -/
def calling (forked : Pam.ForkResult) : List PamEvent × Pam.Routine Pam.PamResult × Unit :=
  System.follow (respondModule forked) 30 (Pam.pamSmAuthenticate 3 argv) ()

/-- The helper up to the last byte of its request. -/
def requesting : List HelperEvent × Helper.Routine Stop Nat × EndToEnd.World Unit :=
  System.follow respondHelper 37 (Helper.runRequest crates 3 args) ⟨[], .initial 0 fun _ => []⟩

/-- The worker up to the start of the session. -/
def prompting : List (AgentEvent Bytes) × Agent.Routine Bytes Unit × EndToEnd.World Unit :=
  System.follow World.respondWorker 27 Agent.webWorker requesting.2.2

/-- The user approves. -/
def approved : EndToEnd.World Unit :=
  { prompting.2.2 with
    agent := prompting.2.2.agent.setSession () (some ⟨some webRequest.body, [.approved]⟩) }

/-- The worker up to the last byte of its response. -/
def answering : List (AgentEvent Bytes) × Agent.Routine Bytes Unit × EndToEnd.World Unit :=
  System.follow World.respondWorker 30 prompting.2.1 approved

/-- The helper up to its end. -/
def judging : List HelperEvent × Helper.Routine Stop Nat × EndToEnd.World Unit :=
  System.follow respondHelper 30 requesting.2.1 answering.2.2

def history : History Unit Unit :=
  requesting.1.map (Entry.mk (.helper ())) ++ prompting.1.map (Entry.mk (.worker ())) ++
    answering.1.map (Entry.mk (.worker ())) ++ judging.1.map (Entry.mk (.helper ()))

def processes : Parties Unit Unit :=
  parties crates webPlatform webRuntime 3 (fun _ => args) fun _ => ⟨15000000000⟩

set_option maxRecDepth 8000 in
theorem run_history :
    ∃ pool, pool (.helper ()) = .done (.ok 0) ∧
      webNetwork.Run processes ⟨[], .initial 0 fun _ => []⟩ history pool judging.2.2 :=
  run_turns processes ⟨[], .initial 0 fun _ => []⟩ 37 27 30 30 requesting judging prompting
    answering servesHelper_respondHelper rfl rfl rfl rfl rfl

/-- What the module does before it forks. -/
def asking : List PamEvent :=
  (calling (.parent 2)).1.take 10

/-- What the parent does after it has forked. -/
def waiting : List PamEvent :=
  (calling (.parent 2)).1.drop 11

/-- What the child does. -/
def becoming : List PamEvent :=
  (calling .child).1.drop 11

set_option maxRecDepth 8000 in
theorem ends_parent :
    Ends (Pam.pamSmAuthenticate 3 argv) (asking ++ ⟨.fork, .parent 2⟩ :: waiting)
      (.ok .success) :=
  System.steps_follow (respondModule (.parent 2)) 30 (Pam.pamSmAuthenticate 3 argv) ()

set_option maxRecDepth 8000 in
theorem ends_child :
    Ends (Pam.pamSmAuthenticate 3 argv) (asking ++ ⟨.fork, .child⟩ :: becoming)
      (.error .replaced) :=
  System.steps_follow (respondModule .child) 30 (Pam.pamSmAuthenticate 3 argv) ()

def isFork : PamEvent -> Bool
  | ⟨.fork, _⟩ => true
  | _ => false

/-- The exit status that `waitpid` has reported. -/
def reported : PamEvent -> Option UInt8
  | ⟨.waitNoHang _, .ended (.exited code)⟩ => some code
  | _ => none

/-- The arguments of the program that the process has become. -/
def executed : PamEvent -> Option (List Bytes)
  | ⟨.execFd arguments _, true⟩ => some arguments
  | _ => none

set_option maxRecDepth 8000 in
theorem exits_executed {finished : Except Stop Nat -> Prop} (isFinished : finished (.ok 0)) :
    ∀ arguments ∈ becoming.filterMap executed, Exits parse args finished arguments 0 := by
  intro arguments member
  have arguments_eq : becoming.filterMap executed =
      [utf8 "/h" :: utf8 "request" :: Setting.render settings] := rfl
  rw [arguments_eq, List.mem_singleton] at member
  have accepted : parse arguments = .request args := by
    have given : requestGrammar.parse (Setting.render settings) = some settings := by
      decide +kernel
    rw [member]
    simp only [parse, given, and_self, if_true]
  unfold Exits
  rw [accepted]
  exact ⟨rfl, _, isFinished, rfl⟩

set_option maxRecDepth 8000 in
theorem eq_asking
    {before after : List PamEvent}
    {pid : Nat}
    (split : asking ++ ⟨.fork, .parent 2⟩ :: waiting = before ++ ⟨.fork, .parent pid⟩ :: after) :
    before = asking ∧ after = waiting := by
  have absent {events : List PamEvent} (noFork : ∀ event ∈ events, isFork event = false) :
      (⟨.fork, .parent pid⟩ : PamEvent) ∉ events :=
    fun member => Bool.noConfusion (noFork _ member)
  have askingFree : ∀ event ∈ asking, isFork event = false := by decide +kernel
  have waitingFree : ∀ event ∈ waiting, isFork event = false := by decide +kernel
  obtain ⟨same, _, rest⟩ :=
    (List.append_cons_inj_of_notMem (absent askingFree) (absent waitingFree)).mp split
  exact ⟨same.symm, rest.symm⟩

set_option maxRecDepth 8000 in
theorem eq_zero_of_mem_waiting
    {pid : Nat}
    {code : UInt8}
    (member : ⟨.waitNoHang pid, .ended (.exited code)⟩ ∈ waiting) :
    code = 0 := by
  have isReported : code ∈ waiting.filterMap reported := List.mem_filterMap.mpr ⟨_, member, rfl⟩
  have reports : waiting.filterMap reported = [0] := rfl
  rw [reports] at isReported
  exact List.mem_singleton.mp isReported

theorem child_waited
    {finished : Except Stop Nat -> Prop}
    (isFinished : finished (.ok 0))
    {before after : List PamEvent}
    {pid : Nat}
    {code : UInt8}
    (split : asking ++ ⟨.fork, .parent 2⟩ :: waiting = before ++ ⟨.fork, .parent pid⟩ :: after)
    (member : ⟨.waitNoHang pid, .ended (.exited code)⟩ ∈ after) :
    ∃ calls ended,
      Ends (Pam.pamSmAuthenticate 3 argv) (before ++ ⟨.fork, .child⟩ :: calls) (.error ended) ∧
      (∀ other, ended = .exit other -> code = other) ∧
      (ended = .replaced -> ∀ arguments environment,
        ⟨.execFd arguments environment, true⟩ ∈ calls ->
          Exits parse args finished arguments code) := by
  obtain ⟨rfl, rfl⟩ := eq_asking split
  obtain rfl := eq_zero_of_mem_waiting member
  refine ⟨becoming, .replaced, ends_child, ?_, ?_⟩
  · intro other different
    cases different
  · intro _ arguments environment executes
    have became : executed ⟨.execFd arguments environment, true⟩ = some arguments := rfl
    exact exits_executed isFinished arguments (List.mem_filterMap.mpr ⟨_, executes, became⟩)

/-- The module returns success after its child has become the helper. -/
def login {finished : Except Stop Nat -> Prop} (isFinished : finished (.ok 0)) :
    Login parse args finished where
  rounds := 3
  argv := argv
  trace := asking ++ ⟨.fork, .parent 2⟩ :: waiting
  result := .success
  returns := ends_parent
  child _ _ _ _ split member := child_waited isFinished split member

/-- The key with which a response has been verified. -/
def verifyingKey : HelperEvent -> Option Bytes
  | ⟨.verify publicKey _ _, _⟩ => some publicKey
  | _ => none

set_option maxRecDepth 8000 in
theorem agentPubkey_eq
    {prepared : Prepared}
    {response : Protocol.SignedAuthResponse}
    (approves : Approves crates 3 args (traceOf (Party.helper ()) history) prepared response) :
    prepared.agentPubkey = webKey := by
  have keys : (traceOf (Party.helper ()) history).filterMap verifyingKey = [webKey] := rfl
  obtain ⟨_, _, verified, _⟩ := approves.calls
  have member : prepared.agentPubkey ∈
      (traceOf (Party.helper ()) history).filterMap verifyingKey :=
    List.mem_filterMap.mpr ⟨_, verified, rfl⟩
  rw [keys] at member
  exact List.mem_singleton.mp member

end Sudo

set_option maxRecDepth 8000 in
/-- The user approves `sudo` for `ada`. -/
theorem login_confirmed_sudo :
    ∃ before, ∃ asked : Asked Sudo.argv before, ∃ request,
      Confirmed Agent.webPlatform Agent.webRuntime 3 Sudo.history () asked request := by
  obtain ⟨pool, finished, run⟩ := Sudo.run_history
  have hashes : Sudo.history.filterMap hashedBytes = [webEncoding, webEncoding] := rfl
  have same : ∀ hashed ∈ Sudo.history.filterMap hashedBytes, hashed = webEncoding := by
    rw [hashes]
    simp
  obtain ⟨before, asked, _, _, _, _, _, approves, confirmed⟩ :=
    (login_confirmed id webKey Sudo.crates Agent.webPlatform Agent.webRuntime 3
      (fun _ => Sudo.args) (fun _ => ⟨15000000000⟩) _ Sudo.parse Sudo.readsArguments_parse rfl run
      (noCollisions_of_same same) (freshNonces_single Sudo.history)).1 () (Sudo.login finished) rfl
  exact ⟨before, asked, confirmed (Sudo.agentPubkey_eq approves)⟩

end EndToEnd
end MacosAuth
