import MacosAuth.Effect.Contract
import MacosAuth.Protocol.Verification

/-!
# System calls of the helper

Everything the helper asks of its surroundings: clocks, files, the agent socket,
random bytes and the two signature operations. Answers carry what the calls are
documented to return. A descriptor stands for the inode that it refers to, and
the position in an open file is kept by the reader.

Socket operations on a Unix domain socket do not report `ETIMEDOUT`, and `poll`
does not report `EAGAIN`; `SocketErrno` has no place for them.
-/

namespace MacosAuth
namespace Helper

open Codec

/-- An open file, as the inode behind its descriptor. -/
abbrev File := Nat

/-- What `fstat` reports and the helper reads. -/
structure Metadata where
  isDir : Bool
  isFile : Bool
  uid : Nat
  mode : UInt32
  deriving DecidableEq

/-- Error numbers of failed socket operations, other than `EAGAIN` and `ETIMEDOUT`. -/
abbrev SocketErrno := { code : Nat // code ≠ 11 ∧ code ≠ 110 }

/-- Outcome of a socket transfer. -/
inductive Transfer (α : Type)
  | transferred (value : α)
  | interrupted
  | wouldBlock
  | failed (code : SocketErrno)

/-- Outcome of `poll` on one descriptor. -/
inductive PollResult
  | ready (invalid : Bool)
  | timedOut
  | interrupted
  | failed (code : SocketErrno)

/-- Outcome of `connect`. `EINPROGRESS` and `EALREADY` are handled alike. -/
inductive ConnectResult
  | connected
  | alreadyConnected
  | interrupted
  | inProgress
  | wouldBlock
  | failed (code : Nat)

/-- Outcome of an exclusive creation. -/
inductive CreateResult
  | created (file : File)
  | alreadyExists
  | failed (code : Nat)

inductive Interest
  | input
  | output
  deriving DecidableEq

inductive Call
  /-- `SystemTime::now()` in milliseconds since the epoch. -/
  | wallClock
  /-- `Instant::now()` in nanoseconds. -/
  | instant
  | processId
  | fillBytes (length : Nat)
  | currentDir
  | openRoot
  | openat (directory : File) (name : Bytes) (onlyDirectory : Bool)
  | createat (directory : File) (name : Bytes)
  | fstat (file : File)
  | read (file : File) (position limit : Nat)
  | write (file : File) (bytes : Bytes)
  | unlinkat (directory : File) (name : Bytes)
  | opendir (directory : File)
  | readdir (directory : File)
  | socket
  | setCloseOnExec
  | setNonblocking
  | connect (path : Bytes)
  | takeError
  | poll (interest : Interest) (timeoutMs : Nat)
  | sleep (nanoseconds : Nat)
  | recv (limit : Nat)
  | send (bytes : Bytes)
  | sign (key message : Bytes)
  | verify (publicKey message signature : Bytes)

/-- Answers to each call. Failures of file and socket set-up calls carry the error
number. -/
@[reducible] def Call.Answer : Call -> Type
  | .wallClock => Option UInt64
  | .instant => Nat
  | .processId => UInt32
  | .fillBytes length => { bytes : Bytes // bytes.length = length }
  | .currentDir => Except Nat Bytes
  | .openRoot => Except Nat File
  | .openat _ _ _ => Except Nat File
  | .createat _ _ => CreateResult
  | .fstat _ => Except Nat Metadata
  | .read _ _ limit => Except Nat { bytes : Bytes // bytes.length ≤ limit }
  | .write _ bytes => Except Nat (Fin (bytes.length + 1))
  | .unlinkat _ _ => Unit
  | .opendir _ => Except Nat Unit
  | .readdir _ => Option Bytes
  | .socket => Except Nat Unit
  | .setCloseOnExec => Except Nat Unit
  | .setNonblocking => Except Nat Unit
  | .connect _ => ConnectResult
  | .takeError => Except Nat (Option Nat)
  | .poll _ _ => PollResult
  | .sleep _ => Unit
  | .recv limit => Transfer { bytes : Bytes // bytes.length ≤ limit }
  | .send bytes => Transfer (Fin (bytes.length + 1))
  | .sign _ _ => Bytes
  | .verify _ _ _ => Bool

/-- A part of the helper, with its type of errors. -/
abbrev Routine := Effect.Program Call Call.Answer

/-- An answered call of the helper. -/
abbrev HelperEvent := Effect.Event Call Call.Answer

/-- Errors of file and socket operations. -/
inductive IoError
  | permissionDenied (message : String)
  | invalidInput (message : String)
  | alreadyExists
  | unexpectedEof
  | writeZero
  | timedOut
  | notUtf8
  | os (code : Nat)
  deriving DecidableEq

/-- Turn an answer with an error number into a result. -/
def orOsError {α : Type} : Except Nat α -> Routine IoError α
  | .ok value => pure value
  | .error code => .fail (.os code)

@[simp] theorem ends_orOsError_ok
    {α : Type}
    {answer : Except Nat α}
    {trace : List HelperEvent}
    {value : α} :
    Effect.Program.Ends (orOsError answer) trace (.ok value) ↔
      trace = [] ∧ answer = .ok value := by
  cases answer <;> simp [orOsError, eq_comm]

end Helper
end MacosAuth
