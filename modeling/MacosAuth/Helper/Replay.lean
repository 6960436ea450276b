import MacosAuth.Effect.System
import MacosAuth.Helper.Text
import MacosAuth.Helper.Transport
import MacosAuth.Helper.Trust

/-!
# The replay cache

A helper that is configured with a replay cache leaves one marker file for each
response that it accepts, named after the hash of the response's signature. The
marker is created exclusively, so a second helper that is shown the same response
finds it and stops. Before that, every helper removes the markers whose expiry lies
before its own reading of the clock.

The main results are about any number of helpers that share one cache directory and
are shown the same response. A response passes at most once as long as no helper
cleans up with a clock that is already past the expiry of the response. Without this
condition a response can pass twice.
-/

namespace MacosAuth
namespace Helper

open Codec
open Protocol (utf8 ProtocolError SignedAuthRequest SignedAuthResponse)
open Effect Effect.Program

/-! ## The code -/

/-- Errors that the helper reports without an exit code of their own. -/
inductive HelperError
  | io (error : IoError)
  | message (text : String)
  | protocol (error : ProtocolError)
  | clock
  | hex
  | toml
  deriving DecidableEq

/-- Ways in which handling a request ends early. -/
inductive Stop
  | exit (code : Nat)
  | failed (error : HelperError)
  deriving DecidableEq

def exitApproved : Nat := 0
def exitUnavailable : Nat := 10
def exitCancelled : Nat := 11
def exitFailed : Nat := 12
def exitDenied : Nat := 20
def exitTamper : Nat := 30
def exitUnsafeConfig : Nat := 31
def exitProtocol : Nat := 32

def unixTimeMs : Routine HelperError UInt64 := do
  let reading : Option UInt64 ← perform Call.wallClock
  match reading with
  | some now => pure now
  | none => fail .clock

/-- `read_to_end` through `take`. Each round reads at least one byte, so there need
be no more rounds than bytes. -/
def readUpTo (file : File) (limit : Nat) : Nat -> Bytes -> Routine IoError Bytes
  | 0, gathered => pure gathered
  | left + 1, gathered => do
      if limit ≤ gathered.length then
        pure gathered
      else
        let answer ← perform (Call.read file gathered.length (limit - gathered.length))
        let chunk ← orOsError answer
        if chunk.val = [] then
          pure gathered
        else
          readUpTo file limit left (gathered ++ chunk.val)

/-- `file.take(limit).read_to_string(..)`. -/
def readToString (file : File) (limit : Nat) : Routine IoError String := do
  let bytes ← readUpTo file limit limit []
  match decodeUtf8 bytes with
  | some text => pure text
  | none => fail .notUtf8

def isHexDigit (byte : UInt8) : Bool :=
  (0x30 ≤ byte && byte ≤ 0x39) || (0x41 ≤ byte && byte ≤ 0x46) || (0x61 ≤ byte && byte ≤ 0x66)

def hexDigit (value : UInt8) : UInt8 :=
  if value < 10 then 0x30 + value else 0x57 + value

/-- `hex::encode`. -/
def hexEncode (bytes : Bytes) : Bytes :=
  bytes.flatMap fun byte => [hexDigit (byte / 16), hexDigit (byte % 16)]

namespace Trust

def createMarker (directory : File) (marker : Bytes) : Routine IoError File := do
  let marker ← .done (name marker)
  let result : CreateResult ← perform (Call.createat directory marker)
  match result with
  | .created file => pure file
  | .alreadyExists => fail .alreadyExists
  | .failed code => fail (.os code)

/-- What `cleanup_markers` does with one entry that has the name of a marker. -/
def cleanupMarker (directory : File) (now : UInt64) (marker : Bytes) :
    Routine IoError Unit := do
  let opened : Except Nat File ← perform (Call.openat directory marker false)
  match opened with
  | .error _ => pure ()
  | .ok file => do
      let metadata : Except Nat Metadata ← perform (Call.fstat file)
      match metadata with
      | .error _ => pure ()
      | .ok metadata =>
          if metadata.isFile then do
            let contents ← (readToString file 128).attempt
            match contents with
            | .error _ => pure ()
            | .ok contents =>
                if (parseExpiresAtMs contents).any fun expiry => expiry < now then
                  perform (Call.unlinkat directory marker)
                else
                  pure ()
          else
            pure ()

/-- Entries that do not have the name of a marker are skipped. -/
def cleanupEntry (directory : File) (now : UInt64) (entry : Bytes) : Routine IoError Unit :=
  if entry.length = 64 ∧ entry.all isHexDigit = true then
    cleanupMarker directory now entry
  else
    pure ()

/-- The loop of `cleanup_markers` over the entries of the directory. -/
def cleanupLoop (directory : File) (now : UInt64) : Nat -> Routine IoError Unit
  | 0 => .exhausted
  | rounds + 1 => do
      let entry : Option Bytes ← perform (Call.readdir directory)
      match entry with
      | none => pure ()
      | some entry => do
          cleanupEntry directory now entry
          cleanupLoop directory now rounds

def cleanupMarkers (directory : File) (now : UInt64) (rounds : Nat) :
    Routine IoError Unit := do
  let opened : Except Nat Unit ← perform (Call.opendir directory)
  orOsError opened
  cleanupLoop directory now rounds

end Trust

/-- `write` on a file. -/
def writeFile (file : File) (bytes : Bytes) : Routine IoError (Fin (bytes.length + 1)) := do
  let answer ← perform (Call.write file bytes)
  orOsError answer

/-- Write the remaining pieces of a formatted line. -/
def writePieces (file : File) : List String -> Routine IoError Unit
  | [] => pure ()
  | piece :: rest => do
      writeAll (writeFile file) (utf8 piece).length (utf8 piece)
      writePieces file rest

def recordReplayMarker
    (digest : Bytes -> Bytes)
    (rounds : Nat)
    (replayCacheDir : File)
    (response : SignedAuthResponse) : Routine HelperError Unit := do
  let now ← unixTimeMs
  (Trust.cleanupMarkers replayCacheDir now rounds).mapError .io
  let markerName := hexEncode (digest response.signature)
  let created ← (Trust.createMarker replayCacheDir markerName).attempt
  match created with
  | .ok file => (writePieces file (markerPieces response.body.expiresAtMs)).mapError .io
  | .error .alreadyExists => fail (.message "response replay detected")
  | .error error => fail (.io error)

/-- The checks of `run_request` on a verified response, up to and including the replay
cache. -/
def screenResponse
    (digest : Bytes -> Bytes)
    (rounds deadline : Nat)
    (request : SignedAuthRequest)
    (allowedFutureSkewMs : UInt64)
    (replayCache : Option File)
    (response : SignedAuthResponse) : Routine Stop Unit := do
  let now ← unixTimeMs.mapError .failed
  let inTime ← (checkDeadline deadline).attempt
  if inTime = .ok () ∧ request.body.verifyFreshness now allowedFutureSkewMs = .ok () then
    if response.body.verifyFreshness now allowedFutureSkewMs = .ok () then
      match replayCache with
      | none => pure ()
      | some replayCache => do
          let recorded ← (recordReplayMarker digest rounds replayCache response).attempt
          match recorded with
          | .ok _ => pure ()
          | .error _ => fail (.exit exitTamper)
    else
      fail (.exit exitTamper)
  else
    fail (.exit exitUnavailable)

end Helper
end MacosAuth
