import MacosAuth.Helper.SystemCalls

/-!
# The deadline transport

The helper talks to the agent over a nonblocking Unix domain socket. Every loop
reads the monotonic clock before it tries again and gives up at one deadline that
covers the whole operation. Frames are a four-byte length followed by that many
bytes.

Loops over system calls carry a bound on their rounds. A loop that uses up its
bound has read the clock before the deadline in each round, so no bound is ever
reached once the clock has passed the deadline.
-/

namespace MacosAuth
namespace Helper

open Codec
open Effect Effect.Program

inductive TransportError
  | timeout
  | io (error : IoError)
  | json
  | oversized (length : Nat)
  deriving DecidableEq

def TransportError.ofIo : IoError -> TransportError
  | .timedOut => .timeout
  | error => .io error

def maxFrameLen : Nat := 1024 * 1024

/-- The size of `sun_path`. -/
def socketPathLen : Nat := 108

def checkDeadline (deadline : Nat) : Routine TransportError Unit := do
  let now ← perform .instant
  if deadline ≤ now then fail .timeout else pure ()

/-- The timeout of `poll`: one millisecond more than remains. -/
def pollTimeout (remaining : Nat) : Nat :=
  min (remaining / 1000000 + 1) (2 ^ 31 - 1)

def wait (interest : Interest) (deadline : Nat) : Nat -> Routine IoError Unit
  | 0 => .exhausted
  | rounds + 1 => do
      let now ← perform .instant
      if deadline ≤ now then
        fail .timedOut
      else
        let result : PollResult ←
          perform (Call.poll interest (pollTimeout (deadline - now)))
        match result with
        | .ready true => fail (.os 9)
        | .ready false => pure ()
        | .timedOut => wait interest deadline rounds
        | .interrupted => wait interest deadline rounds
        | .failed code => fail (.os code.val)

/-- The loop of `DeadlineStream::connect`. -/
def connectLoop (path : Bytes) (deadline waitRounds : Nat) :
    Nat -> Routine TransportError Unit
  | 0 => .exhausted
  | rounds + 1 => do
      checkDeadline deadline
      let result : ConnectResult ← perform (Call.connect path)
      match result with
      | .connected => pure ()
      | .alreadyConnected => pure ()
      | .interrupted => connectLoop path deadline waitRounds rounds
      | .inProgress => do
          (wait .output deadline waitRounds).mapError .ofIo
          let pending : Except Nat (Option Nat) ← perform Call.takeError
          match pending with
          | .ok none => pure ()
          | .ok (some code) => fail (.io (.os code))
          | .error code => fail (.io (.os code))
      | .wouldBlock => do
          let now ← perform .instant
          perform (Call.sleep (min (deadline - now) 1000000))
          connectLoop path deadline waitRounds rounds
      | .failed code => fail (.io (.os code))

/-- `DeadlineStream::connect`. -/
def connectStream (path : Bytes) (deadline rounds : Nat) : Routine TransportError Unit := do
  checkDeadline deadline
  if 0 ∈ path ∨ socketPathLen ≤ path.length then
    fail (.io (.invalidInput "invalid socket path"))
  else
    let created ← perform .socket
    (orOsError created).mapError .ofIo
    let marked ← perform .setCloseOnExec
    (orOsError marked).mapError .ofIo
    let nonblocking ← perform .setNonblocking
    (orOsError nonblocking).mapError .ofIo
    connectLoop path deadline rounds rounds
    checkDeadline deadline

/-- `DeadlineStream::transfer`. -/
def transfer {α : Type} (interest : Interest) (deadline waitRounds : Nat)
    (operation : Routine IoError (Transfer α)) : Nat -> Routine IoError α
  | 0 => .exhausted
  | rounds + 1 => do
      let now ← perform .instant
      if deadline ≤ now then
        fail .timedOut
      else
        let result ← operation
        match result with
        | .transferred value => pure value
        | .interrupted => transfer interest deadline waitRounds operation rounds
        | .wouldBlock => do
            wait interest deadline waitRounds
            transfer interest deadline waitRounds operation rounds
        | .failed code => fail (.os code.val)

def readStream (deadline rounds limit : Nat) :
    Routine IoError { bytes : Bytes // bytes.length ≤ limit } :=
  transfer .input deadline rounds (perform (Call.recv limit)) rounds

def writeStream (deadline rounds : Nat) (bytes : Bytes) :
    Routine IoError (Fin (bytes.length + 1)) :=
  transfer .output deadline rounds (perform (Call.send bytes)) rounds

/-- `read_exact`. Each round reads at least one byte, so there need be no more
rounds than bytes. -/
def readExact (deadline rounds : Nat) : Nat -> Nat -> Routine IoError Bytes
  | 0, _ => pure []
  | left + 1, missing => do
      if missing = 0 then
        pure []
      else
        let chunk ← readStream deadline rounds missing
        if chunk.val = [] then
          fail .unexpectedEof
        else
          let rest ← readExact deadline rounds left (missing - chunk.val.length)
          return chunk.val ++ rest

/-- `write_all`, for a socket or a file. Each round writes at least one byte. -/
def writeAll (write : (bytes : Bytes) -> Routine IoError (Fin (bytes.length + 1))) :
    Nat -> Bytes -> Routine IoError Unit
  | 0, _ => pure ()
  | left + 1, bytes => do
      if bytes = [] then
        pure ()
      else
        let count ← write bytes
        if count.val = 0 then
          fail .writeZero
        else
          writeAll write left (bytes.drop count)

/-- The framing of `write_json_frame`. -/
def writeFrame (deadline rounds : Nat) (payload : Bytes) : Routine TransportError Unit := do
  if maxFrameLen < payload.length then
    fail (.oversized payload.length)
  else
    (writeAll (writeStream deadline rounds) 4 (bigEndian 4 payload.length)).mapError .ofIo
    (writeAll (writeStream deadline rounds) payload.length payload).mapError .ofIo

/-- The framing of `read_json_frame`. -/
def readFrame (deadline rounds : Nat) : Routine TransportError Bytes := do
  let lenBytes ← (readExact deadline rounds 4 4).mapError .ofIo
  let len := fromBigEndian lenBytes
  if maxFrameLen < len then
    fail (.oversized len)
  else
    (readExact deadline rounds len len).mapError .ofIo

end Helper
end MacosAuth
