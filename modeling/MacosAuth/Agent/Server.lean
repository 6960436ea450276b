import MacosAuth.Agent.Transport
import MacosAuth.Effect.System

/-!
# The socket server of the agent

One thread accepts connections, up to eight workers serve them, and the main thread waits
for the result of the server. A connection that finds no free slot is closed at once.
The request handler is a parameter: whatever program it is, it works on calls of its own
and returns or throws.
-/

namespace MacosAuth
namespace Agent
namespace Server

open Effect Effect.Program

/-- Outcome of `accept`. -/
inductive AcceptResult
  | accepted (client : Nat)
  | interrupted
  | failed (code : Nat)

/-- The threads of the server. Workers are numbered in the order in which their
connections were submitted. -/
inductive Party
  | acceptor
  | main
  | worker (index : Nat)
  deriving DecidableEq

/-- The calls of the accept loop. -/
inductive AcceptorCall
  | accept
  /-- `setsockopt` with `SO_NOSIGPIPE`. -/
  | setNoSigPipe (fd : Nat)
  /-- `fcntl` with `F_SETFL` and `O_NONBLOCK`. -/
  | setNonBlocking (fd : Nat)
  /-- `fcntl` with `F_SETFD` and `FD_CLOEXEC`. -/
  | setCloseOnExec (fd : Nat)
  | close (fd : Nat)
  /-- `DispatchTime.now().uptimeNanoseconds`. -/
  | uptimeNs
  /-- `slots.wait(timeout: .now())`. -/
  | slotsWait
  /-- `workers.async` with the work for this handle and deadline. -/
  | async (fd : Nat) (deadline : Deadline)
  | complete (result : Except Failure Unit)

/-- The calls of the main thread. -/
inductive MainCall
  /-- `completion.value`. -/
  | completionValue
  | runRunLoop

/-- The calls of a worker, with those of the request handler. -/
inductive WorkerCall (HandlerCall : Type)
  /-- The queue starts the work. -/
  | begin
  | handler (request : HandlerCall)
  | close (fd : Nat)
  | slotsSignal
  | complete (result : Except Failure Unit)

variable {HandlerCall : Type} {HandlerAnswer : HandlerCall -> Type} {HandlerError : Type}

@[reducible] def AcceptorCall.Answer : AcceptorCall -> Type
  | .accept => AcceptResult
  | .setNoSigPipe _ => Except Nat Unit
  | .setNonBlocking _ => Except Nat Unit
  | .setCloseOnExec _ => Except Nat Unit
  | .close _ => Unit
  | .uptimeNs => UInt64
  | .slotsWait => Bool
  | .async _ _ => Unit
  | .complete _ => Unit

@[reducible] def MainCall.Answer : MainCall -> Type
  | .completionValue => Option (Except Failure Unit)
  | .runRunLoop => Unit

@[reducible] def WorkerCall.Answer (HandlerAnswer : HandlerCall -> Type) :
    WorkerCall HandlerCall -> Type
  | .begin => Nat × Deadline
  | .handler request => HandlerAnswer request
  | .close _ => Unit
  | .slotsSignal => Unit
  | .complete _ => Unit

@[reducible] def Party.Call (HandlerCall : Type) : Party -> Type
  | .acceptor => AcceptorCall
  | .main => MainCall
  | .worker _ => WorkerCall HandlerCall

@[reducible] def Party.Answer (HandlerAnswer : HandlerCall -> Type) :
    (party : Party) -> party.Call HandlerCall -> Type
  | .acceptor => AcceptorCall.Answer
  | .main => MainCall.Answer
  | .worker _ => WorkerCall.Answer HandlerAnswer

/-! ## The accept loop -/

/-- A part of the accept loop. -/
abbrev AcceptorRoutine := Effect.Program AcceptorCall AcceptorCall.Answer Failure

/-- An answered call of the accept loop. -/
abbrev AcceptorEvent := Effect.Event AcceptorCall AcceptorCall.Answer

def configureConnectedSocket (strerror : Nat -> String) (fd : Nat) : AcceptorRoutine Unit := do
  let noSigPipe : Except Nat Unit ← perform (AcceptorCall.setNoSigPipe fd)
  match noSigPipe with
  | .error code => fail (.agent (.socket (strerror code)))
  | .ok _ => do
      let nonBlocking : Except Nat Unit ← perform (AcceptorCall.setNonBlocking fd)
      match nonBlocking with
      | .error code => fail (.agent (.socket (strerror code)))
      | .ok _ => do
          let closeOnExec : Except Nat Unit ← perform (AcceptorCall.setCloseOnExec fd)
          match closeOnExec with
          | .error code => fail (.agent (.socket (strerror code)))
          | .ok _ => return ()

/-- `acceptFileHandle`, for a number of interrupted calls. -/
def acceptFileHandle (strerror : Nat -> String) : Nat -> AcceptorRoutine Nat
  | 0 => .exhausted
  | rounds + 1 => do
      let result : AcceptResult ← perform AcceptorCall.accept
      match result with
      | .interrupted => acceptFileHandle strerror rounds
      | .failed code => fail (.agent (.socket (strerror code)))
      | .accepted client => do
          let configured : Except Failure Unit ←
            (configureConnectedSocket strerror client).attempt
          match configured with
          | .ok _ => return client
          | .error error => do
              perform (AcceptorCall.close client)
              fail error

/-- `ConnectionPool.submit`, and the closing of a handle that was not admitted. -/
def submit (client : Nat) (deadline : Deadline) : AcceptorRoutine Unit := do
  let free : Bool ← perform AcceptorCall.slotsWait
  if free then
    perform (AcceptorCall.async client deadline)
  else
    perform (AcceptorCall.close client)

/-- The `repeat` loop, for a number of connections. -/
def acceptLoop (strerror : Nat -> String) (once : Bool) (interruptions : Nat) :
    Nat -> AcceptorRoutine Unit
  | 0 => .exhausted
  | rounds + 1 => do
      let client ← acceptFileHandle strerror interruptions
      let now : UInt64 ← perform AcceptorCall.uptimeNs
      submit client ⟨deadlineAfter now 15000⟩
      if once then
        return ()
      else
        acceptLoop strerror once interruptions rounds

/-- What `runSocketServer` starts on a global queue. -/
def acceptConnections (strerror : Nat -> String) (once : Bool) (interruptions rounds : Nat) :
    AcceptorRoutine Unit := do
  let ended : Except Failure Unit ←
    (acceptLoop strerror once interruptions rounds).attempt
  match ended with
  | .ok _ => return ()
  | .error error => perform (AcceptorCall.complete (.error error))

/-! ## The main thread -/

/-- Run the run loop until there is a result, for a number of rounds. -/
def awaitCompletion : Nat -> Effect.Program MainCall MainCall.Answer Failure Unit
  | 0 => .exhausted
  | rounds + 1 => do
      let value : Option (Except Failure Unit) ← perform MainCall.completionValue
      match value with
      | some _ => return ()
      | none => do
          perform MainCall.runRunLoop
          awaitCompletion rounds

/-- The part of `runSocketServer` on the main thread. -/
def runSocketServer (rounds : Nat) : Effect.Program MainCall MainCall.Answer Failure Unit := do
  awaitCompletion rounds
  let value : Option (Except Failure Unit) ← perform MainCall.completionValue
  match value with
  | some result => .done result
  | none => fail .trap

/-! ## Workers -/

/-- A part of a worker. -/
abbrev WorkerRoutine (HandlerAnswer : HandlerCall -> Type) :=
  Effect.Program (WorkerCall HandlerCall) (WorkerCall.Answer HandlerAnswer) Failure

/-- A request handler. -/
abbrev Handler (HandlerAnswer : HandlerCall -> Type) (HandlerError : Type) :=
  Nat -> Deadline -> Effect.Program HandlerCall HandlerAnswer HandlerError Unit

/-- The handler as part of a worker, which only prints its error. -/
def handle : Effect.Program HandlerCall HandlerAnswer HandlerError Unit ->
    WorkerRoutine HandlerAnswer Unit
  | .done _ => .done (.ok ())
  | .call request next => .call (.handler request) fun answer => handle (next answer)
  | .exhausted => .exhausted

/-- The work that is submitted for a connection. -/
def work (handler : Handler HandlerAnswer HandlerError) (once : Bool) (fd : Nat)
    (deadline : Deadline) : WorkerRoutine HandlerAnswer Unit :=
  (do
    handle (handler fd deadline)
    if once then
      perform (.complete (.ok ()) : WorkerCall HandlerCall)
    else
      return ()).ensuring (perform (WorkerCall.close fd))

/-- What `ConnectionPool.submit` puts on the queue. -/
def worker (handler : Handler HandlerAnswer HandlerError) (once : Bool) :
    WorkerRoutine HandlerAnswer Unit := do
  let (fd, deadline) : Nat × Deadline ← perform WorkerCall.begin
  (work handler once fd deadline).ensuring (perform WorkerCall.slotsSignal)

/-! ## The shared world -/

structure World where
  /-- The descriptors of accepted connections that are open. -/
  handles : Nat -> Bool
  /-- The free slots of the connection pool. -/
  slots : Nat
  /-- The work that was submitted, in order. -/
  submitted : List (Nat × Deadline)
  /-- The value of the server's result cell. -/
  completion : Option (Except Failure Unit)

/-- `ConnectionPool.init` and an empty result cell. -/
def World.start : World where
  handles _ := false
  slots := 8
  submitted := []
  completion := none

/-- `LockedResult.complete`: the first value stays. -/
def World.complete (world : World) (result : Except Failure Unit) : World :=
  { world with completion := some (world.completion.getD result) }

/-- How the world answers the accept loop. -/
def World.ServesAcceptor (world : World) :
    (request : AcceptorCall) -> request.Answer -> World -> Prop
  | .accept, .accepted client, after =>
      world.handles client = false ∧
        after = { world with handles := Function.update world.handles client true }
  | .close fd, _, after =>
      after = { world with handles := Function.update world.handles fd false }
  | .slotsWait, true, after => 0 < world.slots ∧ after = { world with slots := world.slots - 1 }
  | .slotsWait, false, after => world.slots = 0 ∧ after = world
  | .async fd deadline, _, after =>
      after = { world with submitted := world.submitted ++ [(fd, deadline)] }
  | .complete result, _, after => after = world.complete result
  | _, _, after => after = world

/-- How the world answers the main thread. -/
def World.ServesMain (world : World) :
    (request : MainCall) -> request.Answer -> World -> Prop
  | .completionValue, value, after => value = world.completion ∧ after = world
  | .runRunLoop, _, after => after = world

/-- How the world answers a worker. The handler's own calls may be answered in any way. -/
def World.ServesWorker (world : World) (index : Nat) :
    (request : WorkerCall HandlerCall) -> request.Answer HandlerAnswer -> World -> Prop
  | .begin, work, after => world.submitted[index]? = some work ∧ after = world
  | .handler _, _, after => after = world
  | .close fd, _, after =>
      after = { world with handles := Function.update world.handles fd false }
  | .slotsSignal, _, after => after = { world with slots := world.slots + 1 }
  | .complete result, _, after => after = world.complete result

/-- The server. -/
def server (HandlerAnswer : HandlerCall -> Type) :
    System Party (Party.Call HandlerCall) (Party.Answer HandlerAnswer) World where
  serves
    | .acceptor, world => world.ServesAcceptor
    | .main, world => world.ServesMain
    | .worker index, world => world.ServesWorker index
  drifts _ _ := False

/-- The numbers of rounds for which the loops of the server run. -/
structure Rounds where
  interruptions : Nat
  connections : Nat
  polls : Nat

/-- The threads of the server. -/
def threads (strerror : Nat -> String) (once : Bool) (rounds : Rounds)
    (handler : Handler HandlerAnswer HandlerError) :
    Pool (Party.Call HandlerCall) (Party.Answer HandlerAnswer) (fun _ => Failure)
      (fun _ => Unit)
  | .acceptor => acceptConnections strerror once rounds.interruptions rounds.connections
  | .main => runSocketServer rounds.polls
  | .worker _ => worker handler once

end Server
end Agent
end MacosAuth
