import MacosAuth.Agent.SystemCalls

/-!
# Deadlines, frames and lifetimes of the agent

A deadline is a point of the monotonic clock. A worker reads and writes frames under such
a deadline, and keeps a lifetime for the request that it serves: the lifetime ends with
the connection deadline, with the expiry of the request on either clock, or as soon as
the peer closes the connection or sends more bytes.
-/

namespace MacosAuth
namespace Agent

open Codec
open Effect Effect.Program

variable {Key : Type}

/-! ## Deadlines -/

/-- `multipliedReportingOverflow` and `addingReportingOverflow`, with the largest value on
overflow. -/
def deadlineAfter (now milliseconds : UInt64) : UInt64 :=
  if UInt64.size ≤ milliseconds.toNat * 1000000 ∨
      UInt64.size ≤ now.toNat + milliseconds.toNat * 1000000 then
    UInt64.ofNat (UInt64.size - 1)
  else
    now + milliseconds * 1000000

structure Deadline where
  uptimeNs : UInt64
  deriving DecidableEq

namespace Deadline

/-- `Deadline(milliseconds:)`. -/
def start (milliseconds : UInt64) : Routine Key Deadline := do
  let now : UInt64 ← perform Call.uptimeNs
  return ⟨deadlineAfter now milliseconds⟩

def capped (deadline : Deadline) (milliseconds : UInt64) : Routine Key Deadline := do
  let other ← start milliseconds
  return ⟨min deadline.uptimeNs other.uptimeNs⟩

/-- `remainingMilliseconds` at the given reading of the clock. -/
def remainingAt (deadline : Deadline) (now : UInt64) : Nat :=
  if now < deadline.uptimeNs then
    min (2 ^ 31 - 1) ((deadline.uptimeNs.toNat - now.toNat - 1) / 1000000 + 1)
  else
    0

def remainingMilliseconds (deadline : Deadline) : Routine Key Nat := do
  let now : UInt64 ← perform Call.uptimeNs
  return deadline.remainingAt now

def check (deadline : Deadline) : Routine Key Unit := do
  let remaining ← deadline.remainingMilliseconds
  if 0 < remaining then pure () else raise .timeout

end Deadline

/-! ## Frames -/

def maxFrameLength : Nat := 1024 * 1024

def waitForSocket (platform : Platform Key) (interest : Interest) (deadline : Deadline) :
    Nat -> Routine Key Unit
  | 0 => .exhausted
  | rounds + 1 => do
      deadline.check
      let remaining ← deadline.remainingMilliseconds
      let result : PollResult ← perform (Call.poll interest remaining)
      match result with
      | .interrupted => waitForSocket platform interest deadline rounds
      | .failed code => raise (.io (platform.strerror code))
      | .timedOut => raise .timeout
      | .ready invalid => do
          deadline.check
          if invalid then raise (.io "socket closed") else pure ()

/-- The loop of `readExactly` while bytes are missing. -/
def readLoop (platform : Platform Key) (deadline : Deadline) (waitRounds : Nat) :
    Nat -> Nat -> Routine Key Bytes
  | 0, missing => if missing = 0 then pure [] else .exhausted
  | rounds + 1, missing =>
      if missing = 0 then
        pure []
      else do
        waitForSocket platform .input deadline waitRounds
        let result : RecvResult missing ← perform (Call.recv missing)
        match result with
        | .again => readLoop platform deadline waitRounds rounds missing
        | .closed => raise (.io "unexpected EOF")
        | .failed code => raise (.io ("read: " ++ platform.strerror code))
        | .received bytes => do
            let rest ← readLoop platform deadline waitRounds rounds
              (missing - bytes.val.length)
            return bytes.val ++ rest

def readExactly (platform : Platform Key) (deadline : Deadline) (rounds count : Nat) :
    Routine Key Bytes :=
  readLoop platform deadline rounds rounds count

/-- `readJSONFrame` for a request. -/
def readJSONFrame (platform : Platform Key) (deadline : Deadline) (rounds : Nat) :
    Routine Key SignedAuthRequest := do
  let lengthData ← readExactly platform deadline rounds 4
  let length := fromBigEndian lengthData
  if maxFrameLength < length then
    raise (.io s!"frame too large: {length}")
  else
    let bodyData ← readExactly platform deadline rounds length
    match platform.requestFromJson bodyData with
    | some request => pure request
    | none => fail .coding

/-- The loop of `writeJSONFrame` over the bytes that are still to be sent. -/
def writeLoop (platform : Platform Key) (deadline : Deadline) (waitRounds : Nat) :
    Nat -> Bytes -> Routine Key Unit
  | 0, data => if data = [] then pure () else .exhausted
  | rounds + 1, data =>
      if data = [] then
        pure ()
      else do
        waitForSocket platform .output deadline waitRounds
        let result : SendResult data ← perform (Call.send data)
        match result with
        | .again => writeLoop platform deadline waitRounds rounds data
        | .failed code => raise (.io ("write: " ++ platform.strerror code))
        | .sent count => writeLoop platform deadline waitRounds rounds (data.drop count)

/-- `writeJSONFrame` for a response. -/
def writeJSONFrame (platform : Platform Key) (deadline : Deadline) (rounds : Nat)
    (response : SignedAuthResponse) : Routine Key Unit :=
  match platform.responseToJson response with
  | none => fail .coding
  | some body =>
      if maxFrameLength < body.length then
        raise (.io s!"frame too large: {body.length}")
      else
        writeLoop platform deadline rounds rounds (lengthPrefixed 4 body)

/-! ## Lifetimes -/

structure RequestLifetime where
  deadline : Deadline
  expiresAtMs : UInt64
  deriving DecidableEq

namespace RequestLifetime

/-- `RequestLifetime.init`. -/
def start (expiresAtMs : UInt64) (connectionDeadline : Deadline) :
    Routine Key RequestLifetime := do
  let now : UInt64 ← perform Call.wallTimeMs
  let deadline ← connectionDeadline.capped (if now < expiresAtMs then expiresAtMs - now else 0)
  return ⟨deadline, expiresAtMs⟩

/-- The checks of `check` once the flag has been seen to be clear. -/
def inspect (lifetime : RequestLifetime) : Routine Key Unit := do
  lifetime.deadline.check
  let now : UInt64 ← perform Call.wallTimeMs
  if now < lifetime.expiresAtMs then do
    let result : PeekResult ← perform Call.peek
    match result with
    | .again => pure ()
    | _ => raise (.io "peer disconnected or sent trailing data")
  else
    raise .timeout

def check (lifetime : RequestLifetime) : Routine Key Unit := do
  let cancelled : Bool ← perform Call.lifetimeCancelled
  if cancelled then
    raise (.io "request cancelled")
  else do
    let result ← lifetime.inspect.attempt
    match result with
    | .ok _ => pure ()
    | .error error => do
        perform Call.cancelLifetime
        fail error

end RequestLifetime

end Agent
end MacosAuth
