import MacosAuth.Pam.HelperPath

/-!
# Running the helper from PAM

The module starts the helper as a child, waits for it with a timeout and translates its
exit status. Everything that the child does, from `fork` on, reaches the parent through
`waitpid` only. Messages to the system log are left out.
-/

namespace MacosAuth
namespace Pam

open Codec
open Effect Effect.Program
open Protocol (utf8)
open Helper (File)

/-! ## System calls -/

/-- What `pam_get_item` is asked for. -/
inductive Item
  | service
  | ruser
  | rhost
  | tty
  deriving DecidableEq

/-- How a child has ended. Without `WUNTRACED`, `waitpid` reports no other change. -/
inductive ChildStatus
  | exited (status : UInt8)
  | signaled (signal : Nat)
  deriving DecidableEq

/-- Outcome of `waitpid` with `WNOHANG`. -/
inductive WaitResult
  | ended (status : ChildStatus)
  | running
  | failed (code : Nat)

structure Timespec where
  seconds : Int64
  nanoseconds : Int64

/-- Outcome of `fork`, which returns in both processes. -/
inductive ForkResult
  | parent (pid : Nat)
  | child
  | failed (code : Nat)

inductive Call
  /-- A call of `validate_helper_path`. -/
  | files (request : Helper.Call)
  | getItem (item : Item)
  | getUser
  | clockGettime
  | fork
  | waitNoHang (pid : Nat)
  | wait (pid : Nat)
  | kill (pid signal : Nat)
  | usleep (microseconds : Nat)
  | close (file : File)
  /-- The descriptor of the file is 3 already, or `dup2` makes it 3. -/
  | moveToThree (file : File)
  | setCloseOnExec
  | closeInheritedFds
  /-- `fexecve` of descriptor 3. -/
  | execFd (arguments environment : List Bytes)

/-- Answers to each call. `pam_get_item` and `pam_get_user` may fail or have no value.
`clock_gettime` may fail. The calls of the child report whether they were successful;
after a successful `fexecve` the process is another program. -/
@[reducible] def Call.Answer : Call -> Type
  | .files request => request.Answer
  | .getItem _ => Option Bytes
  | .getUser => Option Bytes
  | .clockGettime => Option Timespec
  | .fork => ForkResult
  | .waitNoHang _ => WaitResult
  | .wait _ => Except Nat ChildStatus
  | .kill _ _ => Unit
  | .usleep _ => Unit
  | .close _ => Unit
  | .moveToThree _ => Bool
  | .setCloseOnExec => Bool
  | .closeInheritedFds => Bool
  | .execFd _ _ => Bool

/-- How the process that `fork` has created leaves the module. -/
inductive ChildEnd
  | exit (status : UInt8)
  | replaced
  deriving DecidableEq

abbrev Routine := Program Call Call.Answer ChildEnd

abbrev PamEvent := Event Call Call.Answer

/-- Run a part that works on files only. -/
def onFiles {ε : Type} : Helper.Routine ε α -> Program Call Call.Answer ε α
  | .done result => .done result
  | .call request next => .call (.files request) fun answer => onFiles (next answer)
  | .exhausted => .exhausted

def eintr : Nat := 4

def echild : Nat := 10

def sigkill : Nat := 9

def sigterm : Nat := 15

def helperTimeoutExit : Nat := 10

/-! ## Options of the module -/

def isSpace (byte : UInt8) : Bool :=
  byte == 0x20 || (0x09 ≤ byte && byte ≤ 0x0d)

def isDigit (byte : UInt8) : Bool :=
  0x30 ≤ byte && byte ≤ 0x39

/-- `strtoul` in base ten: the value and what follows it. There is no value without
digits, and none where it sets `errno`. A minus sign negates the value in its type. -/
def strtoul (text : Bytes) : Option (Nat × Bytes) :=
  let unspaced := text.dropWhile isSpace
  let negative := unspaced.head? == some 0x2d
  let digits := if negative ∨ unspaced.head? = some 0x2b then unspaced.tail else unspaced
  let run := digits.takeWhile isDigit
  let magnitude := run.foldl (fun value digit => value * 10 + (digit.toNat - 0x30)) 0
  if run = [] ∨ 2 ^ 64 ≤ magnitude then
    none
  else
    some (if negative then (2 ^ 64 - magnitude) % 2 ^ 64 else magnitude,
      digits.dropWhile isDigit)

def parseUintOption (value : Bytes) (fallback : UInt32) : UInt32 :=
  if value = [] then
    fallback
  else
    match strtoul value with
    | none => fallback
    | some (parsed, rest) =>
        if rest ≠ [] ∨ parsed = 0 ∨ 600000 < parsed then fallback else .ofNat parsed

structure Options where
  helperPath : Bytes
  configPath : Bytes
  debug : Bool
  timeoutMs : UInt32

def defaultTimeoutMs : UInt32 := 20000

def defaultOptions : Options where
  helperPath := utf8 "/usr/bin/macos-auth-helper"
  configPath := utf8 "/etc/macos-auth/config.toml"
  debug := false
  timeoutMs := defaultTimeoutMs

def parseOption (options : Options) (arg : Bytes) : Options :=
  if arg = utf8 "debug" then
    { options with debug := true }
  else if (utf8 "helper=").isPrefixOf arg then
    { options with helperPath := arg.drop (utf8 "helper=").length }
  else if (utf8 "conf=").isPrefixOf arg then
    { options with configPath := arg.drop (utf8 "conf=").length }
  else if (utf8 "timeout_ms=").isPrefixOf arg then
    { options with
      timeoutMs := parseUintOption (arg.drop (utf8 "timeout_ms=").length) defaultTimeoutMs }
  else
    options

def parseOptions (argv : List Bytes) : Options :=
  argv.foldl parseOption defaultOptions

/-! ## Arguments of the helper -/

/-- The last place of the array is for the terminating null pointer. -/
def pushArg (length : Nat) (arguments : List Bytes) (arg : Bytes) : Option (List Bytes) :=
  if length ≤ arguments.length + 1 then none else some (arguments ++ [arg])

def pushOptionalPair
    (length : Nat)
    (arguments : List Bytes)
    (name : Bytes)
    (value : Option Bytes) : Option (List Bytes) :=
  match value with
  | none => some arguments
  | some [] => some arguments
  | some value => do
      let named ← pushArg length arguments name
      pushArg length named value

def helperArguments
    (options : Options)
    (user : Bytes)
    (service ruser rhost tty : Option Bytes) : Option (List Bytes) := do
  let arguments ← pushArg 24 [] options.helperPath
  let arguments ← pushArg 24 arguments (utf8 "request")
  let arguments ← pushArg 24 arguments (utf8 "--require-root-owned")
  let arguments ← pushArg 24 arguments (utf8 "--config")
  let arguments ← pushArg 24 arguments options.configPath
  let arguments ← pushArg 24 arguments (utf8 "--user")
  let arguments ← pushArg 24 arguments user
  let arguments ← pushOptionalPair 24 arguments (utf8 "--service") service
  let arguments ← pushOptionalPair 24 arguments (utf8 "--ruser") ruser
  let arguments ← pushOptionalPair 24 arguments (utf8 "--rhost") rhost
  pushOptionalPair 24 arguments (utf8 "--tty") tty

def pamItemString (item : Item) : Routine (Option Bytes) := do
  let value : Option Bytes ← perform (Call.getItem item)
  pure (if value = some [] then none else value)

/-! ## Supervision of the child -/

/-- The time in milliseconds, in the arithmetic of `unsigned long long`. -/
def Timespec.milliseconds (time : Timespec) : UInt64 :=
  time.seconds.toUInt64 * 1000 + time.nanoseconds.toUInt64 / 1000000

def monotonicMs : Routine (Option UInt64) := do
  let time : Option Timespec ← perform Call.clockGettime
  pure (time.map Timespec.milliseconds)

/-- The loop of `kill_and_reap`. -/
def reap (pid : Nat) : Nat -> Routine Unit
  | 0 => .exhausted
  | left + 1 => do
      let waited : Except Nat ChildStatus ← perform (Call.wait pid)
      match waited with
      | .error code => if code = eintr then reap pid left else pure ()
      | .ok _ => pure ()

def killAndReap (rounds pid : Nat) : Routine Unit := do
  perform (Call.kill pid sigkill)
  reap pid rounds

/-- After `SIGTERM`. -/
def awaitTermination (rounds pid : Nat) : Nat -> Routine Nat
  | 0 => do
      killAndReap rounds pid
      pure helperTimeoutExit
  | left + 1 => do
      let waited : WaitResult ← perform (Call.waitNoHang pid)
      match waited with
      | .ended _ => pure helperTimeoutExit
      | .failed code =>
          if code = echild then
            pure 127
          else do
            perform (Call.usleep 50000)
            awaitTermination rounds pid left
      | .running => do
          perform (Call.usleep 50000)
          awaitTermination rounds pid left

/-- `WEXITSTATUS` of a normal exit. -/
def exitCode : ChildStatus -> Nat
  | .exited status => status.toNat
  | .signaled _ => 127

def pollLoop (rounds pid : Nat) (startMs : UInt64) (timeoutMs : UInt32) : Nat -> Routine Nat
  | 0 => .exhausted
  | left + 1 => do
      let waited : WaitResult ← perform (Call.waitNoHang pid)
      match waited with
      | .ended status => pure (exitCode status)
      | .failed code =>
          if code = eintr then
            pollLoop rounds pid startMs timeoutMs left
          else if code = echild then
            pure 127
          else do
            killAndReap rounds pid
            pure 127
      | .running => do
          let now : Option UInt64 ← monotonicMs
          match now with
          | none => do
              killAndReap rounds pid
              pure 127
          | some nowMs =>
              if nowMs < startMs then do
                killAndReap rounds pid
                pure 127
              else if timeoutMs.toUInt64 ≤ nowMs - startMs then do
                perform (Call.kill pid sigterm)
                awaitTermination rounds pid 20
              else do
                perform (Call.usleep 10000)
                pollLoop rounds pid startMs timeoutMs left

def helperEnvironment : List Bytes :=
  [utf8 "PATH=/usr/sbin:/usr/bin:/sbin:/bin", utf8 "LC_ALL=C"]

/-- The part of `run_helper` that the child runs. -/
def becomeHelper (helperFd : File) (execArgv : List Bytes) : Routine Nat := do
  let moved : Bool ← perform (Call.moveToThree helperFd)
  if moved = false then
    fail (.exit 127)
  else
    let flagged : Bool ← perform Call.setCloseOnExec
    if flagged = false then
      fail (.exit 127)
    else
      let closed : Bool ← perform Call.closeInheritedFds
      if closed = false then
        fail (.exit 127)
      else
        let replaced : Bool ← perform (Call.execFd execArgv helperEnvironment)
        if replaced then fail .replaced else fail (.exit 127)

/-- `rounds` bounds the polls of the loop and the waits of `kill_and_reap`. -/
def runHelper
    (rounds : Nat)
    (helperFd : File)
    (execArgv : List Bytes)
    (timeoutMs : UInt32) : Routine Nat := do
  if timeoutMs = 0 then
    pure 127
  else
    let start : Option UInt64 ← monotonicMs
    match start with
    | none => pure 127
    | some startMs => do
        let forked : ForkResult ← perform Call.fork
        match forked with
        | .failed _ => pure 127
        | .child => becomeHelper helperFd execArgv
        | .parent pid => pollLoop rounds pid startMs timeoutMs rounds

/-! ## Authentication -/

inductive PamResult
  | success
  | authErr
  | authinfoUnavail
  deriving DecidableEq

def mapExitToPam : Nat -> PamResult
  | 0 => .success
  | 10 => .authinfoUnavail
  | 11 => .authinfoUnavail
  | 12 => .authinfoUnavail
  | _ => .authErr

def pamSmAuthenticate (rounds : Nat) (argv : List Bytes) : Routine PamResult := do
  let options := parseOptions argv
  let service : Option Bytes ← pamItemString .service
  let ruser : Option Bytes ← pamItemString .ruser
  let rhost : Option Bytes ← pamItemString .rhost
  let tty : Option Bytes ← pamItemString .tty
  let user : Option Bytes ← perform Call.getUser
  match user with
  | none => pure .authErr
  | some [] => pure .authErr
  | some user =>
      match helperArguments options user service ruser rhost tty with
      | none => pure .authErr
      | some execArgv => do
          let opened : Except Unit File ← onFiles (validateHelperPath options.helperPath).attempt
          match opened with
          | .error _ => pure .authErr
          | .ok helperFd => do
              let helperExit : Nat ← runHelper rounds helperFd execArgv options.timeoutMs
              perform (Call.close helperFd)
              pure (mapExitToPam helperExit)

end Pam
end MacosAuth
