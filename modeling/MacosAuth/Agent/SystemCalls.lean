import MacosAuth.Agent.Hosts
import MacosAuth.Effect.Contract

/-!
# What the agent asks of its surroundings

The calls that a worker of the agent makes while it serves one connection: clocks, the
connected socket, the two signature operations, the objects that workers share (rate
limiter, authentication slot) and the authentication session of its own request. A
session reports its outcome through a callback; the worker sees it as the value of a
result cell.
-/

namespace MacosAuth
namespace Agent

open Codec

inductive Interest
  | input
  | output
  deriving DecidableEq

/-- Outcome of `poll` on one descriptor. -/
inductive PollResult
  | ready (invalid : Bool)
  | timedOut
  | interrupted
  | failed (code : Nat)

/-- Outcome of `recv`. `EINTR`, `EAGAIN` and `EWOULDBLOCK` are handled alike. -/
inductive RecvResult (limit : Nat)
  | received (bytes : { bytes : Bytes // bytes ≠ [] ∧ bytes.length ≤ limit })
  | closed
  | again
  | failed (code : Nat)

/-- Outcome of `send`. A failure is any other result that is not positive, with the error
number that is then set. -/
inductive SendResult (bytes : Bytes)
  | sent (count : { count : Nat // 0 < count ∧ count ≤ bytes.length })
  | again
  | failed (code : Nat)

/-- Outcome of `recv` with `MSG_PEEK`. -/
inductive PeekResult
  | data
  | closed
  | again
  | failed (code : Nat)

inductive Call (Key : Type)
  /-- `unixTimeMs()`. -/
  | wallTimeMs
  /-- `DispatchTime.now().uptimeNanoseconds`. -/
  | uptimeNs
  | poll (interest : Interest) (timeoutMs : Nat)
  | recv (limit : Nat)
  | peek
  | send (bytes : Bytes)
  | closeHandle
  | isValidSignature (publicKey : Key) (signature message : Bytes)
  /-- `agentPrivateKey.signature(for:)`. -/
  | sign (message : Bytes)
  /-- `rateLimiter.allow(_:)`, which holds a lock. -/
  | limiterAllow (request : AuthRequestBody)
  /-- The flag of the request's lifetime. -/
  | lifetimeCancelled
  | cancelLifetime
  /-- `slot.wait(timeout:)` with the timeout in milliseconds. -/
  | slotWait (milliseconds : Nat)
  | slotSignal
  | makeSession
  | sessionStart (request : AuthRequestBody) (requireConfirmation : Bool)
  /-- `result.value` of the session's result cell. -/
  | resultValue
  | readyWait (milliseconds : Nat)
  | sessionCancel

@[reducible] def Call.Answer {Key : Type} : Call Key -> Type
  | .wallTimeMs => UInt64
  | .uptimeNs => UInt64
  | .poll _ _ => PollResult
  | .recv limit => RecvResult limit
  | .peek => PeekResult
  | .send bytes => SendResult bytes
  | .closeHandle => Unit
  | .isValidSignature _ _ _ => Bool
  | .sign _ => Option Bytes
  | .limiterAllow _ => Bool
  | .lifetimeCancelled => Bool
  | .cancelLifetime => Unit
  | .slotWait _ => Bool
  | .slotSignal => Unit
  | .makeSession => Unit
  | .sessionStart _ _ => Unit
  | .resultValue => Option Decision
  | .readyWait _ => Unit
  | .sessionCancel => Unit

/-- Everything that can end a worker early. -/
inductive Failure
  | agent (error : AgentError)
  /-- Errors of the JSON coders. -/
  | coding
  /-- Errors of the signature operation. -/
  | crypto
  /-- A forced unwrap of an empty value stops the process. -/
  | trap
  deriving DecidableEq

/-- A part of a worker. -/
abbrev Routine (Key : Type) := Effect.Program (Call Key) Call.Answer Failure

/-- An answered call of a worker. -/
abbrev AgentEvent (Key : Type) := Effect.Event (Call Key) Call.Answer

/-- End a worker with an error of the agent. -/
def raise {Key α : Type} (error : AgentError) : Routine Key α :=
  .fail (.agent error)

/-- Turn a result with an error of the agent into a routine. -/
def liftExcept {Key α : Type} (result : Except AgentError α) : Routine Key α :=
  .done (result.mapError .agent)

/-- What a worker takes from libraries. -/
structure Platform (Key : Type) where
  keys : KeyPlatform Key
  /-- `SHA256.hash(data:)`. -/
  digest : Bytes -> Bytes
  /-- `JSONDecoder().decode`. -/
  requestFromJson : Bytes -> Option SignedAuthRequest
  /-- `JSONEncoder().encode`. -/
  responseToJson : SignedAuthResponse -> Option Bytes
  strerror : Nat -> String

end Agent
end MacosAuth
