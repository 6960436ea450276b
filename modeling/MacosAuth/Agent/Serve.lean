import MacosAuth.Agent.Transport

/-!
# Serving a request

The path of one connection through the agent: read a frame, look up the host, verify the
request, ask the rate limiter, authenticate the user, sign and send the response.
-/

namespace MacosAuth
namespace Agent

open Codec
open Effect Effect.Program

variable {Key : Type}

/-! ## The rate limiter -/

structure RateLimiter where
  windowMs : UInt64
  maxRequests : Int
  deriving DecidableEq

/-- `saturatingMilliseconds`. -/
def saturatingMilliseconds (seconds : UInt64) : UInt64 :=
  if UInt64.size ≤ seconds.toNat * 1000 then UInt64.ofNat (UInt64.size - 1) else seconds * 1000

/-- `RateLimiter.init`. -/
def RateLimiter.start (windowSeconds : UInt64) (maxRequests : Int) : RateLimiter :=
  ⟨saturatingMilliseconds windowSeconds, maxRequests⟩

/-- The key under which the events of a request are kept. -/
def limiterKey (request : AuthRequestBody) : String :=
  request.linuxHostId ++ "|" ++ request.pamService ++ "|" ++ request.pamUser

/-- The dictionary `eventsByKey`, by the form under which its keys are compared. -/
abbrev LimiterEvents := String -> List UInt64

/-- `allow` at the given reading of the clock. -/
def RateLimiter.allow
    (limiter : RateLimiter)
    (keys : KeyPlatform Key)
    (eventsByKey : LimiterEvents)
    (now : UInt64)
    (request : AuthRequestBody) : Bool × LimiterEvents :=
  if limiter.maxRequests ≤ 0 then
    (true, eventsByKey)
  else
    let cutoff := if limiter.windowMs < now then now - limiter.windowMs else 0
    let key := keys.canonicalForm (limiterKey request)
    let events := (eventsByKey key).filter fun event => cutoff ≤ event
    if limiter.maxRequests ≤ events.length then
      (false, Function.update eventsByKey key events)
    else
      (true, Function.update eventsByKey key (events ++ [now]))

/-! ## The authentication coordinator -/

/-- `AuthenticationResult.authMethod`. -/
def authMethodOf (decision : Decision) : AuthMethod :=
  if decision = .approved then .biometricOrWatch else .none

/-- Wait for the slot, and check the lifetime whenever the wait times out. -/
def awaitSlot (lifetime : RequestLifetime) : Nat -> Routine Key Unit
  | 0 => .exhausted
  | rounds + 1 => do
      let acquired : Bool ← perform (Call.slotWait 25)
      if acquired then
        pure ()
      else do
        lifetime.check
        awaitSlot lifetime rounds

/-- Wait until the session has completed. -/
def awaitResult (lifetime : RequestLifetime) : Nat -> Routine Key Unit
  | 0 => .exhausted
  | rounds + 1 => do
      let value : Option Decision ← perform Call.resultValue
      match value with
      | some _ => pure ()
      | none => do
          lifetime.check
          perform (Call.readyWait 25)
          awaitResult lifetime rounds

/-- The part of `evaluate` that has a session. -/
def runSession (request : AuthRequestBody) (requireConfirmation : Bool)
    (lifetime : RequestLifetime) (rounds : Nat) : Routine Key Decision := do
  perform (Call.sessionStart request requireConfirmation)
  awaitResult lifetime rounds
  lifetime.check
  let value : Option Decision ← perform Call.resultValue
  match value with
  | some decision => pure decision
  | none => fail .trap

/-- The part of `evaluate` that holds the slot. -/
def holdSlot (request : AuthRequestBody) (requireConfirmation : Bool)
    (lifetime : RequestLifetime) (rounds : Nat) : Routine Key Decision := do
  lifetime.check
  perform Call.makeSession
  (runSession request requireConfirmation lifetime rounds).ensuring (perform Call.sessionCancel)

/-- `AuthenticationCoordinator.evaluate`. -/
def evaluate (request : AuthRequestBody) (requireConfirmation : Bool)
    (lifetime : RequestLifetime) (rounds : Nat) : Routine Key Decision := do
  awaitSlot lifetime rounds
  (holdSlot request requireConfirmation lifetime rounds).ensuring (perform Call.slotSignal)

/-! ## The request handler -/

structure AgentRuntime (Key : Type) where
  hostVerifiers : List (HostVerifier Key)
  agentKeyId : String
  allowedFutureSkewMs : UInt64
  requireConfirmation : Bool
  rateLimiter : RateLimiter

def verifyRequest (request : SignedAuthRequest) (hostPublicKey : Key)
    (allowedFutureSkewMs : UInt64) : Routine Key Unit := do
  let requestBytes ← liftExcept request.body.canonicalBytes
  let valid : Bool ←
    perform (Call.isValidSignature hostPublicKey request.signature requestBytes)
  if valid then do
    let now : UInt64 ← perform Call.wallTimeMs
    liftExcept (request.body.verifyFreshness now allowedFutureSkewMs)
  else
    raise .invalidSignature

/-- Ask the user, unless the rate limiter objects. -/
def authenticate (runtime : AgentRuntime Key) (request : AuthRequestBody)
    (lifetime : RequestLifetime) (rounds : Nat) : Routine Key Decision := do
  let allowed : Bool ← perform (Call.limiterAllow request)
  if allowed then
    evaluate request runtime.requireConfirmation lifetime rounds
  else
    pure .cancelled

/-- Sign the response to a request. -/
def signResponse (platform : Platform Key) (runtime : AgentRuntime Key)
    (request : AuthRequestBody) (decision : Decision) : Routine Key SignedAuthResponse := do
  let now : UInt64 ← perform Call.wallTimeMs
  let responseBody ← liftExcept (AuthResponseBody.forRequest platform.digest request decision
    (authMethodOf decision) now runtime.agentKeyId)
  let bytes ← liftExcept responseBody.canonicalBytes
  let signature : Option Bytes ← perform (Call.sign bytes)
  match signature with
  | some signature => return ⟨responseBody, signature⟩
  | none => fail .crypto

/-- The part of `handleServeRequest` that has a lifetime. -/
def respond (platform : Platform Key) (runtime : AgentRuntime Key)
    (request : AuthRequestBody) (lifetime : RequestLifetime) (rounds : Nat) :
    Routine Key Unit := do
  lifetime.check
  let decision ← authenticate runtime request lifetime rounds
  lifetime.check
  let response ← signResponse platform runtime request decision
  lifetime.check
  writeJSONFrame platform lifetime.deadline rounds response

/-- The verified request of a connection. -/
def receiveRequest (platform : Platform Key) (runtime : AgentRuntime Key)
    (deadline : Deadline) (rounds : Nat) : Routine Key SignedAuthRequest := do
  let readDeadline ← deadline.capped 2000
  let request ← readJSONFrame platform readDeadline rounds
  match platform.keys.verifierFor runtime.hostVerifiers request.body.linuxHostId with
  | none =>
      raise (.invalidPayload ("host " ++ request.body.linuxHostId ++ " is not allowed"))
  | some verifier => do
      verifyRequest request verifier.publicKey runtime.allowedFutureSkewMs
      return request

def handleServeRequest (platform : Platform Key) (runtime : AgentRuntime Key)
    (deadline : Deadline) (rounds : Nat) : Routine Key Unit := do
  let request ← receiveRequest platform runtime deadline rounds
  let lifetime ← RequestLifetime.start request.body.expiresAtMs deadline
  (respond platform runtime request.body lifetime rounds).ensuring (perform Call.cancelLifetime)

/-- What `runSocketServer` does with a connection that it admits. -/
def serveConnection (platform : Platform Key) (runtime : AgentRuntime Key) (rounds : Nat) :
    Routine Key Unit := do
  let deadline ← Deadline.start 15000
  let _ ← (handleServeRequest platform runtime deadline rounds).attempt
  perform Call.closeHandle

end Agent
end MacosAuth
