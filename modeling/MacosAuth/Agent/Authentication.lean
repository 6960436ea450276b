import MacosAuth.Agent.Serve
import MacosAuth.Effect.System

/-!
# The authentication coordinator and its sessions

Any number of workers call `evaluate` of one coordinator. Each makes a session of its own,
which completes on other threads. A session is any program that may look at the lifetime of
its request and may call its completion; `LocalAuthenticationSession` is the one that asks
the user.
-/

namespace MacosAuth
namespace Agent
namespace Coordinator

open Effect Effect.Program

/-! ## Local authentication -/

/-- The codes of `LAError` that the session tells apart. -/
inductive LAErrorCode
  | userCancel
  | systemCancel
  | appCancel
  | biometryNotAvailable
  | biometryNotEnrolled
  | biometryLockout
  | watchNotAvailable
  | other
  deriving DecidableEq

/-- The arguments of the reply of `evaluatePolicy`, with the code if the error is an `LAError`. -/
structure PolicyReply where
  success : Bool
  error : Option LAErrorCode

/-- The response of a modal alert. -/
inductive ModalResponse
  | alertFirstButtonReturn
  | other
  deriving DecidableEq

/-- The calls of a session. -/
inductive SessionCall (Key : Type)
  /-- The main run loop performs the block of `start`. -/
  | begin
  /-- A call of the request's lifetime. -/
  | lifetime (request : Agent.Call Key)
  /-- `alert.runModal()` with the text for this request. -/
  | runModal (request : AuthRequestBody)
  | canEvaluatePolicy
  /-- `context.evaluatePolicy` for this request, until its reply. -/
  | evaluatePolicy (request : AuthRequestBody)
  /-- The completion that was passed to `start`. -/
  | complete (decision : Decision)

variable {Key : Type}

@[reducible] def SessionCall.Answer : SessionCall Key -> Type
  | .begin => Unit
  | .lifetime request => request.Answer
  | .runModal _ => ModalResponse
  | .canEvaluatePolicy => Bool
  | .evaluatePolicy _ => PolicyReply
  | .complete _ => Unit

/-- A part of a session. -/
abbrev SessionRoutine (Key : Type) := Effect.Program (SessionCall Key) SessionCall.Answer Failure

/-- An answered call of a session. -/
abbrev SessionEvent (Key : Type) := Effect.Event (SessionCall Key) SessionCall.Answer

/-- A routine of the lifetime as part of a session. -/
def onLifetime {α : Type} : Routine Key α -> SessionRoutine Key α
  | .done result => .done result
  | .call request next => .call (.lifetime request) fun answer => onLifetime (next answer)
  | .exhausted => .exhausted

/-- `RequestLifetime.isActive`. -/
def isActive (lifetime : RequestLifetime) : SessionRoutine Key Bool := do
  let checked : Except Failure Unit ← (onLifetime lifetime.check).attempt
  match checked with
  | .ok _ => return true
  | .error _ => return false

/-- The timer that runs meanwhile looks at the lifetime as well. -/
def showConfirmationAlert (request : AuthRequestBody) (lifetime : RequestLifetime) :
    SessionRoutine Key Bool := do
  let active ← isActive lifetime
  if active then do
    let response : ModalResponse ← perform (SessionCall.runModal request)
    let stillActive ← isActive lifetime
    return stillActive && response == .alertFirstButtonReturn
  else
    return false

/-- The decision of a reply of `evaluatePolicy`. -/
def PolicyReply.decision (reply : PolicyReply) : Decision :=
  if reply.success then
    .approved
  else
    match reply.error with
    | some .userCancel | some .systemCancel | some .appCancel => .cancelled
    | some .biometryNotAvailable | some .biometryNotEnrolled | some .biometryLockout
    | some .watchNotAvailable => .unavailable
    | some .other => .failed
    | none => .failed

/-- Ask for confirmation if that is required; the result tells whether it was refused. -/
def confirmationRefused (request : AuthRequestBody) (requireConfirmation : Bool)
    (lifetime : RequestLifetime) : SessionRoutine Key Bool :=
  if requireConfirmation then do
    let confirmed ← showConfirmationAlert request lifetime
    return !confirmed
  else
    return false

/-- The last part of the block, which asks for the policy. -/
def evaluatePolicy (request : AuthRequestBody) (lifetime : RequestLifetime) :
    SessionRoutine Key Unit := do
  let available : Bool ← perform SessionCall.canEvaluatePolicy
  if available then do
    let active ← isActive lifetime
    if active then do
      let reply : PolicyReply ← perform (SessionCall.evaluatePolicy request)
      perform (SessionCall.complete reply.decision)
    else
      return ()
  else
    perform (SessionCall.complete .unavailable)

/-- The block of `LocalAuthenticationSession.start`, with the reply of `evaluatePolicy`. -/
def localAuthenticationSession (request : AuthRequestBody) (requireConfirmation : Bool)
    (lifetime : RequestLifetime) : SessionRoutine Key Unit := do
  perform SessionCall.begin
  let active ← isActive lifetime
  if active then do
    let refused ← confirmationRefused request requireConfirmation lifetime
    if refused then
      perform (SessionCall.complete .cancelled)
    else do
      let stillActive ← isActive lifetime
      if stillActive then
        evaluatePolicy request lifetime
      else
        return ()
  else
    return ()

/-! ## Workers and sessions -/

/-- The arguments of `evaluate`. -/
structure Evaluation where
  request : AuthRequestBody
  requireConfirmation : Bool
  lifetime : RequestLifetime

/-- The threads: a worker for each call of `evaluate`, and its session. -/
inductive Party (Worker : Type)
  | worker (worker : Worker)
  | session (worker : Worker)
  deriving DecidableEq

variable {Worker : Type}

@[reducible] def Party.Call (Key : Type) : Party Worker -> Type
  | .worker _ => Agent.Call Key
  | .session _ => SessionCall Key

@[reducible] def Party.Answer : (party : Party Worker) -> party.Call Key -> Type
  | .worker _ => Agent.Call.Answer
  | .session _ => SessionCall.Answer

@[reducible] def Party.Value : Party Worker -> Type
  | .worker _ => Decision
  | .session _ => Unit

/-- The worker to which the thread belongs. -/
def Party.owner : Party Worker -> Worker
  | .worker owner => owner
  | .session owner => owner

/-- What the threads share. -/
structure World (Worker : Type) where
  /-- The value of the semaphore `slot`. -/
  slots : Nat
  /-- The flags of the lifetimes. -/
  cancelled : Worker -> Bool
  /-- The sessions whose block has been handed to the main run loop. -/
  started : Worker -> Bool
  /-- The result cells. -/
  results : Worker -> Option Decision

/-- `AuthenticationCoordinator.init` and fresh lifetimes. -/
def World.initial : World Worker where
  slots := 1
  cancelled _ := false
  started _ := false
  results _ := none

variable [DecidableEq Worker]

/-- `cancelled = true` in a lifetime. -/
def World.cancel (world : World Worker) (worker : Worker) : World Worker :=
  { world with cancelled := Function.update world.cancelled worker true }

/-- Hand the block of a session to the main run loop. -/
def World.start (world : World Worker) (worker : Worker) : World Worker :=
  { world with started := Function.update world.started worker true }

/-- `LockedResult.complete`: the first value stays. -/
def World.complete (world : World Worker) (worker : Worker) (decision : Decision) :
    World Worker :=
  { world with
    results := Function.update world.results worker
      (some ((world.results worker).getD decision)) }

/-- How the world answers the calls of a lifetime. Clocks and peers answer as they like. -/
def World.ServesLifetime (world : World Worker) (worker : Worker) :
    (request : Agent.Call Key) -> request.Answer -> World Worker -> Prop
  | .lifetimeCancelled, cancelled, after => cancelled = world.cancelled worker ∧ after = world
  | .cancelLifetime, _, after => after = world.cancel worker
  | .uptimeNs, _, after => after = world
  | .wallTimeMs, _, after => after = world
  | .peek, _, after => after = world
  | _, _, _ => False

/-- How the world answers a worker. Every wait may time out. -/
def World.ServesWorker (world : World Worker) (worker : Worker) :
    (request : Agent.Call Key) -> request.Answer -> World Worker -> Prop
  | .slotWait _, true, after => 0 < world.slots ∧ after = { world with slots := world.slots - 1 }
  | .slotWait _, false, after => after = world
  | .slotSignal, _, after => after = { world with slots := world.slots + 1 }
  | .makeSession, _, after => after = world
  | .sessionStart _ _, _, after => after = world.start worker
  | .resultValue, value, after => value = world.results worker ∧ after = world
  | .readyWait _, _, after => after = world
  | .sessionCancel, _, after => after = world
  | request, answer, after => world.ServesLifetime worker request answer after

/-- How the world answers a session. Its block runs once it was started. -/
def World.ServesSession (world : World Worker) (worker : Worker) :
    (request : SessionCall Key) -> request.Answer -> World Worker -> Prop
  | .begin, _, after => world.started worker = true ∧ after = world
  | .lifetime request, answer, after => world.ServesLifetime worker request answer after
  | .runModal _, _, after => after = world
  | .canEvaluatePolicy, _, after => after = world
  | .evaluatePolicy _, _, after => after = world
  | .complete decision, _, after => after = world.complete worker decision

/-- The workers and sessions of one coordinator. Between two calls a lifetime may be cancelled
from elsewhere. -/
def coordinator (Key Worker : Type) [DecidableEq Worker] :
    System (Party Worker) (Party.Call Key) Party.Answer (World Worker) where
  serves
    | .worker worker, world => world.ServesWorker worker
    | .session worker, world => world.ServesSession worker
  drifts world after := ∃ worker, after = world.cancel worker

/-- Every worker evaluates its request, and has a session. -/
def threads (evaluations : Worker -> Evaluation) (rounds : Nat)
    (sessions : Worker -> SessionRoutine Key Unit) :
    Pool (Party.Call Key) Party.Answer (fun _ : Party Worker => Failure) Party.Value
  | .worker worker => evaluate (evaluations worker).request
      (evaluations worker).requireConfirmation (evaluations worker).lifetime rounds
  | .session worker => sessions worker

end Coordinator
end Agent
end MacosAuth
