import MacosAuth.Agent.ConfigFile
import MacosAuth.Agent.SystemCalls

/-!
# The listening socket of the agent

An agent that starts looks at its socket path. A socket that refuses a connection is
taken to be left over and is removed; then the agent binds a socket of its own, notes
which file this has made, and listens. When the agent ends it closes the socket and
removes the file, if the path still names the file that it has noted.

A trace of these calls puts the agent at a stage, and the contract of the agent says at
which stages it removes, binds and listens.
-/

namespace MacosAuth
namespace Agent
namespace Listener

open Protocol (utf8)
open ConfigFile (Stat sameFile)
open Effect Effect.Program

inductive Call
  | lstat (path : String)
  /-- `socket` with `AF_UNIX` and `SOCK_STREAM`. -/
  | socket
  /-- `setsockopt` with `SO_NOSIGPIPE`. -/
  | setNoSigPipe (fd : Nat)
  /-- `fcntl` with `F_SETFL` and `O_NONBLOCK`. -/
  | setNonBlocking (fd : Nat)
  /-- `fcntl` with `F_SETFD` and `FD_CLOEXEC`. -/
  | setCloseOnExec (fd : Nat)
  | connect (fd : Nat) (path : String)
  | unlink (path : String)
  /-- `bindLock.lock()`. -/
  | lockBind
  | unlockBind
  | umask (mask : UInt16)
  | bind (fd : Nat) (path : String)
  | chmod (path : String) (mode : UInt16)
  | listen (fd backlog : Nat)
  | close (fd : Nat)
  /-- `runSocketServer`, which accepts on the descriptor. -/
  | runSocketServer (fd : Nat)

/-- Errors of the system are numbers. -/
@[reducible] def Call.Answer : Call -> Type
  | .lstat _ => Except Nat Stat
  | .socket => Except Nat Nat
  | .setNoSigPipe _ => Except Nat Unit
  | .setNonBlocking _ => Except Nat Unit
  | .setCloseOnExec _ => Except Nat Unit
  | .connect _ _ => Except Nat Unit
  | .unlink _ => Except Nat Unit
  | .lockBind => Unit
  | .unlockBind => Unit
  | .umask _ => UInt16
  | .bind _ _ => Except Nat Unit
  | .chmod _ _ => Except Nat Unit
  | .listen _ _ => Except Nat Unit
  | .close _ => Unit
  | .runSocketServer _ => Except Failure Unit

/-- A part of the agent. -/
abbrev Routine := Effect.Program Call Call.Answer Failure

/-- An answered call of the agent. -/
abbrev SocketEvent := Effect.Event Call Call.Answer

/-- End with an error of the socket. -/
def raise {α : Type} (message : String) : Routine α :=
  .fail (.agent (.socket message))

/-- What the agent takes from libraries. -/
structure Platform where
  strerror : Nat -> String
  /-- `url.lastPathComponent`. -/
  lastPathComponent : String -> String
  /-- `url.deletingLastPathComponent().resolvingSymlinksInPath().path`. -/
  parentPath : String -> String
  /-- `url.appendingPathComponent(_:).path`. -/
  appending : String -> String -> String

/-- `ENOENT`. -/
def noEntry : Nat := 2

/-- `ECONNREFUSED`. -/
def connectionRefused : Nat := 61

/-- The size of `sun_path`. -/
def socketPathSize : Nat := 104

/-- `S_IFMT` and `S_IFSOCK`. -/
def isSocket (st : Stat) : Bool :=
  st.mode &&& 0xf000 == 0xc000

/-- The parent is a directory of the user or of root in which nobody else can replace the
socket. -/
def isTrustedDirectory (st : Stat) (effectiveUID : UInt32) : Bool :=
  st.mode &&& 0xf000 == 0x4000 && (st.uid == effectiveUID || st.uid == 0) &&
    (st.mode &&& 0x12 == 0 || (st.uid == 0 && st.mode &&& 0x200 != 0))

/-- The part of `UnixSocketListener` that changes. -/
structure UnixSocketListener where
  fd : Option Nat
  path : String
  identity : Option Stat
  deriving DecidableEq

variable (platform : Platform) (effectiveUID : UInt32)

/-- A call that has to succeed. -/
def orStrerror : Except Nat Unit -> Routine Unit
  | .ok _ => return ()
  | .error code => raise (platform.strerror code)

/-- `UnixSocketListener.address`, whose value holds the path and nothing else that varies. -/
def address (path : String) : Routine Unit :=
  if (utf8 path).contains 0 ∨ socketPathSize < (utf8 path).length + 1 then
    raise "invalid or overlong socket path"
  else
    return ()

def configureConnectedSocket (fd : Nat) : Routine Unit := do
  let noSigPipe : Except Nat Unit ← perform (Call.setNoSigPipe fd)
  orStrerror platform noSigPipe
  let nonBlocking : Except Nat Unit ← perform (Call.setNonBlocking fd)
  orStrerror platform nonBlocking
  let closeOnExec : Except Nat Unit ← perform (Call.setCloseOnExec fd)
  orStrerror platform closeOnExec

/-- Remove the file if nobody listens on it and it has not been replaced in between. -/
def unlinkRefused (path : String) (st : Stat) (probe : Nat) : Routine Unit := do
  configureConnectedSocket platform probe
  let connected : Except Nat Unit ← perform (Call.connect probe path)
  if connected = .error connectionRefused then do
    let current : Except Nat Stat ← perform (Call.lstat path)
    match current with
    | .error _ => raise "socket changed while checking staleness"
    | .ok current =>
        if sameFile st current then do
          let unlinked : Except Nat Unit ← perform (Call.unlink path)
          match unlinked with
          | .error _ => raise "socket changed while checking staleness"
          | .ok _ => return ()
        else
          raise "socket changed while checking staleness"
  else
    raise ("socket already active or cannot safely establish staleness: " ++ path)

/-- The part of `removeStaleSocket` for a file of the user. -/
def removeRefused (path : String) (st : Stat) : Routine Unit := do
  let opened : Except Nat Nat ← perform Call.socket
  match opened with
  | .error code => raise (platform.strerror code)
  | .ok probe =>
      (unlinkRefused platform path st probe).ensuring (perform (Call.close probe))

def removeStaleSocket (path : String) : Routine Unit := do
  let found : Except Nat Stat ← perform (Call.lstat path)
  match found with
  | .error code => if code = noEntry then return () else raise (platform.strerror code)
  | .ok st =>
      if isSocket st ∧ st.uid = effectiveUID then
        removeRefused platform path st
      else
        raise ("refusing to replace non-socket or foreign socket " ++ path)

/-- Remove the file if it is the noted one. -/
def unlinkOwn (path : String) (identity : Stat) : Routine Unit := do
  let current : Except Nat Stat ← perform (Call.lstat path)
  match current with
  | .error _ => return ()
  | .ok current =>
      if sameFile identity current then do
        let _unlinked : Except Nat Unit ← perform (Call.unlink path)
        return ()
      else
        return ()

def closeAndUnlink (listener : UnixSocketListener) : Routine UnixSocketListener := do
  match listener.fd with
  | none => pure ()
  | some fd => perform (Call.close fd)
  match listener.identity with
  | none => pure ()
  | some identity => unlinkOwn listener.path identity
  return { listener with fd := none, identity := none }

/-- `bind` under the lock and with a mask that keeps the new file private. -/
def bindPrivately (fd : Nat) (path : String) : Routine Unit := do
  perform Call.lockBind
  let previousMask : UInt16 ← perform (Call.umask 0x3f)
  let bound : Except Nat Unit ← perform (Call.bind fd path)
  let _mask : UInt16 ← perform (Call.umask previousMask)
  perform Call.unlockBind
  orStrerror platform bound

/-- The part of `init` up to the identity of the new file. -/
def bindAndIdentify (fd : Nat) (path : String) : Routine Stat := do
  let closeOnExec : Except Nat Unit ← perform (Call.setCloseOnExec fd)
  orStrerror platform closeOnExec
  bindPrivately platform fd path
  let found : Except Nat Stat ← perform (Call.lstat path)
  match found with
  | .error _ => raise "cannot identify bound socket"
  | .ok st =>
      if isSocket st ∧ st.uid = effectiveUID then
        return st
      else
        raise "cannot identify bound socket"

/-- The part of `init` that follows. -/
def activate (fd : Nat) (path : String) : Routine Unit := do
  let changed : Except Nat Unit ← perform (Call.chmod path 0x180)
  orStrerror platform changed
  let listening : Except Nat Unit ← perform (Call.listen fd 16)
  orStrerror platform listening

/-- Close the listener on the error path of `init`. -/
def abandon {α : Type} (listener : UnixSocketListener) (error : Failure) : Routine α := do
  let _closed ← closeAndUnlink listener
  fail error

/-- The part of `init` with a descriptor. -/
def establish (fd : Nat) (path : String) : Routine UnixSocketListener := do
  let bound : Except Failure Stat ←
    (bindAndIdentify platform effectiveUID fd path).attempt
  match bound with
  | .error error => abandon ⟨some fd, path, none⟩ error
  | .ok st => do
      let active : Except Failure Unit ← (activate platform fd path).attempt
      match active with
      | .error error => abandon ⟨some fd, path, some st⟩ error
      | .ok _ => return ⟨some fd, path, some st⟩

/-- The path of the socket in the parent that symbolic links lead to. -/
def socketPath (path : String) : String :=
  platform.appending (platform.parentPath path) (platform.lastPathComponent path)

/-- The part of `init` that needs the path only. -/
def checkParent (path : String) : Routine Unit := do
  let directory : Except Nat Stat ← perform (Call.lstat (platform.parentPath path))
  match directory with
  | .error _ => raise "socket parent must be a trusted directory"
  | .ok st =>
      if isTrustedDirectory st effectiveUID then
        return ()
      else
        raise "socket parent must be a trusted directory"

/-- `UnixSocketListener.init`. -/
def init (path : String) : Routine UnixSocketListener := do
  if (utf8 path).contains 0 then
    raise "invalid socket path"
  else do
    address (socketPath platform path)
    checkParent platform effectiveUID path
    removeStaleSocket platform effectiveUID (socketPath platform path)
    let opened : Except Nat Nat ← perform Call.socket
    match opened with
    | .error code => raise (platform.strerror code)
    | .ok fd => establish platform effectiveUID fd (socketPath platform path)

/-- The server on the descriptor of a listener. -/
def runSocketServer (listener : UnixSocketListener) : Routine Unit := do
  match listener.fd with
  | none => return ()
  | some fd => do
      let ended : Except Failure Unit ← perform (Call.runSocketServer fd)
      .done ended

/-- The parts of `runServe` and `runFakeAgent` that deal with the socket: the deferred
`closeAndUnlink` is followed by the one of `deinit`. -/
def runServe (path : String) : Routine Unit := do
  let listener ← init platform effectiveUID path
  (runSocketServer listener).ensuring (do
    let closed ← closeAndUnlink listener
    let _deinitialised ← closeAndUnlink closed
    return ())

/-! ## Stages -/

/-- How far an agent has come. -/
inductive Stage
  | starting
  /-- A file was found. -/
  | seen (st : Stat)
  /-- A connection was refused after the file was found. -/
  | refused (st : Stat)
  /-- The file was found again after the refusal, and is to be removed. -/
  | condemned (st : Stat)
  | bound (fd : Nat)
  /-- The new file was looked at. -/
  | named (fd : Nat) (st : Stat)
  | listening (fd : Nat) (st : Stat)
  /-- The socket is closed, and the new file may still be there. -/
  | closed (st : Stat)
  /-- The new file was found after the socket was closed, and is to be removed. -/
  | departing (st : Stat)
  deriving DecidableEq

namespace Stage

/-- The stage after a file was looked at. -/
def looked (st : Stat) : Stage -> Stage
  | .refused found => if sameFile found st then .condemned found else .starting
  | .bound fd => .named fd st
  | .named fd own => .named fd own
  | .listening fd own => .listening fd own
  | .closed own => if sameFile own st then .departing own else .starting
  | _ => .seen st

def refuse : Stage -> Stage
  | .seen st => .refused st
  | stage => stage

def listen (fd : Nat) : Stage -> Stage
  | .named own st => if own = fd then .listening own st else .named own st
  | stage => stage

def close (fd : Nat) : Stage -> Stage
  | .bound own => if own = fd then .starting else .bound own
  | .named own st => if own = fd then .closed st else .named own st
  | .listening own st => if own = fd then .closed st else .listening own st
  | stage => stage

/-- The stage after one more call. -/
def after (stage : Stage) : SocketEvent -> Stage
  | ⟨.lstat _, .ok st⟩ => stage.looked st
  | ⟨.connect _ _, .error code⟩ => if code = connectionRefused then stage.refuse else stage
  | ⟨.unlink _, _⟩ => .starting
  | ⟨.bind fd _, .ok _⟩ => .bound fd
  | ⟨.listen fd _, .ok _⟩ => stage.listen fd
  | ⟨.close fd, _⟩ => stage.close fd
  | _ => stage

/-- The path should name the socket of the agent. -/
def Holds : Stage -> Prop
  | .bound _ | .named _ _ | .listening _ _ => True
  | _ => False

/-- The next call may remove a file. -/
def Removes : Stage -> Prop
  | .condemned _ | .departing _ => True
  | _ => False

/-- Nothing has been probed or bound. -/
def Fresh : Stage -> Prop
  | .starting | .seen _ => True
  | _ => False

/-- The agent is about to look at its own path. -/
def Looks : Stage -> Prop
  | .refused _ | .bound _ | .closed _ => True
  | _ => False

end Stage

/-- The stage that a trace leads to. -/
def stageOf (past : List SocketEvent) : Stage :=
  past.foldl Stage.after .starting

@[simp] theorem stageOf_nil : stageOf [] = .starting :=
  rfl

@[simp] theorem stageOf_snoc
    (past : List SocketEvent)
    (event : SocketEvent) :
    stageOf (past ++ [event]) = (stageOf past).after event := by
  simp [stageOf]

/-! ## The contract of an agent -/

/-- An agent works on its own path. It removes a file only at the stages for that, and
listens on a socket whose file it has looked at. -/
def contract (path : String) : Contract Call Call.Answer where
  relies _ _ := True
  allows past
    | .lstat place => (stageOf past).Looks -> place = path
    | .connect _ place => place = path
    | .unlink place => place = path ∧ (stageOf past).Removes
    | .bind _ place => place = path
    | .listen fd _ => ∃ st, stageOf past = .named fd st
    | _ => True
  givesUp _ := False

/-- Calls that are allowed at every stage and lead to no other. -/
def Quiet : Call -> Prop
  | .socket | .setNoSigPipe _ | .setNonBlocking _ | .setCloseOnExec _ | .lockBind
  | .unlockBind | .umask _ | .chmod _ _ | .runSocketServer _ => True
  | _ => False

theorem stageOf_of_quiet
    {past : List SocketEvent}
    {request : Call}
    (quiet : Quiet request)
    (answer : request.Answer) :
    stageOf (past ++ [⟨request, answer⟩]) = stageOf past := by
  rw [stageOf_snoc]
  cases request <;> first | exact quiet.elim | rfl

section Contract

variable {platform : Platform} {effectiveUID : UInt32} {path : String}
variable {past : List SocketEvent}

theorem allows_of_quiet
    {request : Call}
    (quiet : Quiet request) :
    (contract path).allows past request := by
  cases request <;> first | exact quiet.elim | trivial

/-- Quiet calls keep the stage. -/
theorem meets_of_quiet
    {α : Type}
    {program : Routine α}
    (settles : program.Settles Quiet fun _ => True) :
    program.Meets (contract path) past fun later _ => stageOf later = stageOf past := by
  induction program generalizing past with
  | done result => exact rfl
  | call request next inductionHypothesis =>
      refine ⟨allows_of_quiet settles.1, fun answer _ => ?_⟩
      refine (inductionHypothesis answer (settles.2 answer)).mono ?_
      intro later result same
      rw [same, stageOf_of_quiet settles.1]
  | exhausted => exact settles.elim

theorem settles_orStrerror (answer : Except Nat Unit) :
    (orStrerror platform answer).Settles Quiet fun _ => True := by
  cases answer <;> trivial

theorem settles_configureConnectedSocket (fd : Nat) :
    (configureConnectedSocket platform fd).Settles Quiet fun _ => True := by
  refine .bind (settles_perform trivial) fun noSigPipe => ?_
  refine .bind (settles_orStrerror noSigPipe) fun _ => ?_
  refine .bind (settles_perform trivial) fun nonBlocking => ?_
  refine .bind (settles_orStrerror nonBlocking) fun _ => ?_
  exact .bind (settles_perform trivial) fun closeOnExec => settles_orStrerror closeOnExec

/-- A file that was seen is removed only right after it was seen again. -/
theorem meets_unlinkRefused
    {st : Stat}
    (seen : stageOf past = .seen st)
    (probe : Nat) :
    (unlinkRefused platform path st probe).Meets (contract path) past fun _ _ => True := by
  refine Meets.bind (meets_of_quiet (settles_configureConnectedSocket probe)) ?_
    fun _ _ _ => trivial
  intro configured _ same
  refine ⟨rfl, fun connected _ => ?_⟩
  change (if connected = .error connectionRefused then _ else _ : Routine Unit).Meets _ _ _
  split
  · rename_i refusal
    subst refusal
    have refused : stageOf (configured ++ [⟨.connect probe path, .error connectionRefused⟩]) =
        .refused st := by
      simp [same, seen, Stage.after, Stage.refuse]
    refine ⟨fun _ => rfl, ?_⟩
    rintro (code | current) _
    · trivial
    · change (if sameFile st current then _ else _ : Routine Unit).Meets _ _ _
      split
      · rename_i agrees
        refine ⟨⟨rfl, ?_⟩, ?_⟩
        · rw [stageOf_snoc, refused]
          simp [Stage.after, Stage.looked, agrees, Stage.Removes]
        · rintro (code | ⟨⟩) _ <;> trivial
      · trivial
  · trivial

theorem meets_removeStaleSocket
    (fresh : (stageOf past).Fresh) :
    (removeStaleSocket platform effectiveUID path).Meets (contract path) past
      fun _ _ => True := by
  refine ⟨fun _ => rfl, ?_⟩
  rintro (code | st) _
  · change (if code = noEntry then _ else _ : Routine Unit).Meets _ _ _
    split <;> trivial
  · have seen : stageOf (past ++ [⟨.lstat path, .ok st⟩]) = .seen st := by
      rw [stageOf_snoc]
      cases stage : stageOf past <;> simp_all [Stage.Fresh, Stage.after, Stage.looked]
    change (if isSocket st ∧ st.uid = effectiveUID then _ else _ : Routine Unit).Meets _ _ _
    split
    · refine ⟨trivial, ?_⟩
      rintro (code | probe) _
      · trivial
      · refine Meets.ensuring (meets_unlinkRefused ?_ probe) ?_
        · rw [stageOf_of_quiet, seen]
          exact trivial
        · exact fun _ _ _ => ⟨trivial, fun _ _ => trivial⟩
    · trivial

/-- What was noted is removed only right after it was seen again. -/
theorem meets_unlinkOwn
    {st : Stat}
    (closed : stageOf past = .closed st) :
    (unlinkOwn path st).Meets (contract path) past fun _ result => result = .ok () := by
  refine ⟨fun _ => rfl, ?_⟩
  rintro (code | current) _
  · exact rfl
  · change (if sameFile st current then _ else _ : Routine Unit).Meets _ _ _
    split
    · rename_i agrees
      refine ⟨⟨rfl, ?_⟩, fun _ _ => rfl⟩
      rw [stageOf_snoc, closed]
      simp [Stage.after, Stage.looked, agrees, Stage.Removes]
    · exact rfl

/-- A listener is closed before its file is looked at. -/
theorem meets_closeAndUnlink
    {fd : Nat}
    {identity : Option Stat}
    (own : ∀ st, identity = some st ->
      stageOf past = .named fd st ∨ stageOf past = .listening fd st) :
    (closeAndUnlink ⟨some fd, path, identity⟩).Meets (contract path) past fun _ result =>
      result = .ok ⟨none, path, none⟩ := by
  refine ⟨trivial, fun _ _ => ?_⟩
  cases identity with
  | none => exact rfl
  | some st =>
      have closed : stageOf (past ++ [⟨.close fd, ()⟩]) = .closed st := by
        rcases own st rfl with stage | stage <;> simp [stage, Stage.after, Stage.close]
      change (unlinkOwn path st >>= _ : Routine UnixSocketListener).Meets _ _ _
      refine Meets.bind (meets_unlinkOwn closed) (fun _ _ _ => rfl) ?_
      intro later error impossible
      cases impossible

/-- The error path of `init` keeps the error. -/
theorem meets_abandon
    {fd : Nat}
    {identity : Option Stat}
    (own : ∀ st, identity = some st ->
      stageOf past = .named fd st ∨ stageOf past = .listening fd st)
    (error : Failure) :
    (abandon ⟨some fd, path, identity⟩ error : Routine UnixSocketListener).Meets
      (contract path) past fun _ result => result = .error error := by
  refine Meets.bind (meets_closeAndUnlink own) (fun _ _ _ => rfl) ?_
  intro later error impossible
  cases impossible

/-- What `init` returns is listening. -/
def IsListening
    (path : String)
    (later : List SocketEvent)
    (listener : UnixSocketListener) : Prop :=
  ∃ fd st, listener = ⟨some fd, path, some st⟩ ∧ stageOf later = .listening fd st

theorem meets_bindPrivately (fd : Nat) :
    (bindPrivately platform fd path).Meets (contract path) past fun later result =>
      result = .ok () -> stageOf later = .bound fd := by
  refine ⟨trivial, fun _ _ => ⟨trivial, fun previousMask _ => ⟨rfl, ?_⟩⟩⟩
  rintro (code | ⟨⟩) _
  · exact ⟨trivial, fun _ _ => ⟨trivial, fun _ _ impossible => by cases impossible⟩⟩
  · refine ⟨trivial, fun mask _ => ⟨trivial, fun _ _ _ => ?_⟩⟩
    rw [stageOf_of_quiet, stageOf_of_quiet, stageOf_snoc]
    · exact rfl
    · exact trivial
    · exact trivial

theorem meets_bindAndIdentify (fd : Nat) :
    (bindAndIdentify platform effectiveUID fd path).Meets (contract path) past
      fun later result => ∀ st, result = .ok st -> stageOf later = .named fd st := by
  refine ⟨trivial, ?_⟩
  rintro (code | ⟨⟩) _
  · exact fun st impossible => by cases impossible
  change (bindPrivately platform fd path >>= _ : Routine Stat).Meets _ _ _
  refine Meets.bind (meets_bindPrivately fd) ?_ fun _ _ _ st impossible => by cases impossible
  rintro later ⟨⟩ bound
  refine ⟨fun _ => rfl, ?_⟩
  rintro (code | found) _
  · exact fun st impossible => by cases impossible
  change (if isSocket found ∧ found.uid = effectiveUID then _ else _ : Routine Stat).Meets _ _ _
  split
  · intro st same
    obtain rfl := Except.ok.inj same
    simp [bound rfl, Stage.after, Stage.looked]
  · exact fun st impossible => by cases impossible

theorem meets_activate
    {fd : Nat}
    {st : Stat}
    (named : stageOf past = .named fd st) :
    (activate platform fd path).Meets (contract path) past fun later result =>
      (result = .ok () -> stageOf later = .listening fd st) ∧
        (stageOf later = .named fd st ∨ stageOf later = .listening fd st) := by
  refine ⟨trivial, ?_⟩
  have stillNamed : ∀ answer, stageOf (past ++ [⟨.chmod path 0x180, answer⟩]) = .named fd st := by
    intro answer
    rw [stageOf_of_quiet, named]
    exact trivial
  rintro (code | ⟨⟩) _
  · refine And.intro (fun impossible => ?_) (Or.inl (stillNamed _))
    cases impossible
  refine ⟨⟨st, stillNamed _⟩, ?_⟩
  rintro (code | ⟨⟩) _
  · refine And.intro (fun impossible => by cases impossible) (Or.inl ?_)
    rw [stageOf_snoc, stillNamed]
    exact rfl
  · have listening : stageOf (past ++ [⟨.chmod path 0x180, .ok ()⟩] ++
        [⟨.listen fd 16, .ok ()⟩]) = .listening fd st := by
      rw [stageOf_snoc, stillNamed]
      simp [Stage.after, Stage.listen]
    exact And.intro (fun _ => listening) (Or.inr listening)

theorem meets_establish (fd : Nat) :
    (establish platform effectiveUID fd path).Meets (contract path) past
      fun later result => ∀ listener, result = .ok listener -> IsListening path later listener := by
  refine Meets.attempt_bind (meets_bindAndIdentify fd) ?_
  rintro bound (error | st) named
  · refine (meets_abandon (fun st impossible => by cases impossible) error).mono ?_
    rintro later result rfl listener impossible
    cases impossible
  refine Meets.attempt_bind (meets_activate (named st rfl)) ?_
  rintro active (error | ⟨⟩) ⟨listening, own⟩
  · refine (meets_abandon (fun found same => ?_) error).mono ?_
    · obtain rfl := Option.some.inj same
      exact own
    · rintro later result rfl listener impossible
      cases impossible
  · intro listener same
    obtain rfl := Except.ok.inj same
    exact ⟨fd, st, rfl, listening rfl⟩

theorem meets_checkParent
    (starting : stageOf past = .starting) :
    (checkParent platform effectiveUID path).Meets
      (contract (socketPath platform path)) past fun later _ => (stageOf later).Fresh := by
  refine ⟨fun looks => ?_, ?_⟩
  · rw [starting] at looks
    exact looks.elim
  rintro (code | st) _
  · change (stageOf _).Fresh
    rw [stageOf_snoc, starting]
    trivial
  have fresh : (stageOf (past ++ [⟨.lstat (platform.parentPath path), .ok st⟩])).Fresh := by
    rw [stageOf_snoc, starting]
    trivial
  change (if isTrustedDirectory st effectiveUID then _ else _ : Routine Unit).Meets _ _ _
  split
  · exact fresh
  · exact fresh

/-- When `init` returns, the agent listens on its path. -/
theorem meets_init :
    (init platform effectiveUID path).Meets (contract (socketPath platform path)) []
      fun later result => ∀ listener, result = .ok listener ->
        IsListening (socketPath platform path) later listener := by
  unfold init address
  split
  · exact fun listener impossible => by cases impossible
  split
  · exact fun listener impossible => by cases impossible
  change (checkParent platform effectiveUID path >>= _ :
    Routine UnixSocketListener).Meets _ _ _
  refine Meets.bind (meets_checkParent rfl) ?_ fun _ _ _ listener impossible => by
    cases impossible
  rintro checked ⟨⟩ fresh
  refine Meets.bind (meets_removeStaleSocket fresh) ?_ fun _ _ _ listener impossible => by
    cases impossible
  rintro removed ⟨⟩ _
  refine ⟨trivial, ?_⟩
  rintro (code | fd) _
  · exact fun listener impossible => by cases impossible
  · exact meets_establish fd

/-- An agent keeps its contract. -/
theorem meets_runServe :
    (runServe platform effectiveUID path).Meets (contract (socketPath platform path)) []
      fun _ _ => True := by
  refine Meets.bind meets_init ?_ fun _ _ _ => trivial
  rintro later listener listens
  obtain ⟨fd, st, rfl, listening⟩ := listens listener rfl
  have still : ∀ answer,
      stageOf (later ++ [⟨.runSocketServer fd, answer⟩]) = .listening fd st := by
    intro answer
    rw [stageOf_of_quiet, listening]
    exact trivial
  refine Meets.ensuring
    (?_ : Meets _ _ _ fun final _ => stageOf final = .listening fd st) ?_
  · refine ⟨trivial, fun answer _ => ?_⟩
    cases answer <;> exact still _
  · intro final result listening
    refine Meets.bind (meets_closeAndUnlink fun found same => ?_) ?_ fun _ _ _ => trivial
    · obtain rfl := Option.some.inj same
      exact .inr listening
    · intro closed emptied same
      obtain rfl := Except.ok.inj same
      exact trivial

end Contract

end Listener
end Agent
end MacosAuth
