import MacosAuth.Protocol.Canonical

/-!
# Messages of the macOS agent

The agent has its own message types and its own canonical encoder. The algorithm
is a string here, integers are encoded by shifting and masking, and the enum
spellings of the JSON form double as raw values. The lemmas of the last section
say what each field encoder appends.
-/

namespace MacosAuth
namespace Agent

open Codec
open Protocol (utf8 nonceLen supportedVersion requestDomain responseDomain FieldFits
  bind_eq_ok optionalStr optionalU32 fieldFits_of_length_le nonce_fits)

/-- Errors that end the handling of a request. -/
inductive AgentError
  | usage (message : String)
  | invalidHex (message : String)
  | invalidKeyLength (message : String)
  | invalidPayload (message : String)
  | invalidSignature
  | socket (message : String)
  | io (message : String)
  | timeout
  deriving DecidableEq

inductive Decision
  | approved
  | denied
  | unavailable
  | cancelled
  | failed
  deriving DecidableEq

def Decision.allCases : List Decision :=
  [.approved, .denied, .unavailable, .cancelled, .failed]

def Decision.rawValue : Decision -> String
  | .approved => "approved"
  | .denied => "denied"
  | .unavailable => "unavailable"
  | .cancelled => "cancelled"
  | .failed => "failed"

/-- Decode a decision from its JSON spelling. -/
def Decision.ofRawValue (text : String) : Option Decision :=
  Decision.allCases.find? fun decision => decision.rawValue == text

inductive AuthMethod
  | watch
  | touchID
  | biometricOrWatch
  | unknown
  | none
  deriving DecidableEq

def AuthMethod.allCases : List AuthMethod :=
  [.watch, .touchID, .biometricOrWatch, .unknown, .none]

def AuthMethod.rawValue : AuthMethod -> String
  | .watch => "watch"
  | .touchID => "touch-id"
  | .biometricOrWatch => "biometric-or-watch"
  | .unknown => "unknown"
  | .none => "none"

/-- Decode an authentication method from its JSON spelling. -/
def AuthMethod.ofRawValue (text : String) : Option AuthMethod :=
  AuthMethod.allCases.find? fun method => method.rawValue == text

def AuthMethod.canonicalName (self : AuthMethod) : String :=
  if self = .touchID then "touchid" else self.rawValue

structure AuthRequestBody where
  protocolVersion : UInt16
  requestId : String
  nonce : Bytes
  createdAtMs : UInt64
  expiresAtMs : UInt64
  linuxHostId : String
  linuxHostname : String
  pamService : String
  pamUser : String
  pamRuser : Option String
  pamRhost : Option String
  pamTty : Option String
  sudoCommand : Option String
  clientPid : Option UInt32
  keyId : String
  alg : String
  deriving DecidableEq

structure SignedAuthRequest where
  body : AuthRequestBody
  signature : Bytes
  deriving DecidableEq

structure AuthResponseBody where
  protocolVersion : UInt16
  requestId : String
  nonce : Bytes
  requestHash : Bytes
  linuxHostId : String
  pamService : String
  pamUser : String
  decision : Decision
  authMethod : AuthMethod
  createdAtMs : UInt64
  expiresAtMs : UInt64
  agentKeyId : String
  alg : String
  errorCode : Option String
  errorMessage : Option String
  deriving DecidableEq

structure SignedAuthResponse where
  body : AuthResponseBody
  signature : Bytes
  deriving DecidableEq

/-! ## Field encoders -/

/-- UTF-8 bytes of a string with its ASCII letters in lower case. -/
def lowercased (value : String) : Bytes :=
  (utf8 value).map fun byte => if 0x41 ≤ byte ∧ byte ≤ 0x5a then byte + 0x20 else byte

/-- Only the ASCII letters `E` and `D` lower-case to letters of the accepted
spelling, so ASCII case folding decides the comparison of the source. -/
def canonicalAlgorithmName (value : String) : Option String :=
  if lowercased value = utf8 "ed25519" then some "Ed25519" else none

def encodeUInt16 (out : Bytes) (value : UInt16) : Bytes :=
  out ++ [((value >>> 8) &&& 0xff).toUInt8] ++ [(value &&& 0xff).toUInt8]

def encodeUInt32 (out : Bytes) (value : UInt32) : Bytes :=
  out ++ [((value >>> 24) &&& 0xff).toUInt8] ++ [((value >>> 16) &&& 0xff).toUInt8] ++
    [((value >>> 8) &&& 0xff).toUInt8] ++ [(value &&& 0xff).toUInt8]

/-- The shifts of `stride(from: 56, through: 0, by: -8)`. -/
def encodeShifts : List UInt64 := [56, 48, 40, 32, 24, 16, 8, 0]

def encodeUInt64 (out : Bytes) (value : UInt64) : Bytes :=
  encodeShifts.foldl (fun out shift => out ++ [((value >>> shift) &&& 0xff).toUInt8]) out

def encodeBytes (out value : Bytes) : Except AgentError Bytes :=
  if value.length ≤ UInt32.size - 1 then
    .ok (encodeUInt32 out (UInt32.ofNat value.length) ++ value)
  else
    .error (.invalidPayload "field too large")

def encodeString (out : Bytes) (value : String) : Except AgentError Bytes :=
  encodeBytes out (utf8 value)

def encodeOptionalString
    (out : Bytes)
    (value : Option String) : Except AgentError Bytes :=
  match value with
  | none => .ok (out ++ [0])
  | some value => encodeString (out ++ [1]) value

def encodeOptionalUInt32 (out : Bytes) (value : Option UInt32) : Bytes :=
  match value with
  | none => out ++ [0]
  | some value => encodeUInt32 (out ++ [1]) value

/-! ## Validation and canonical bytes -/

/-- The guards that requests and responses share, in the order of the source. -/
def validateFields
    (version : UInt16)
    (alg : String)
    (nonce : Bytes)
    (createdAtMs expiresAtMs : UInt64) : Except AgentError Unit :=
  if version ≠ supportedVersion then
    .error (.invalidPayload s!"unsupported protocol version {version}")
  else if canonicalAlgorithmName alg = none then
    .error (.invalidPayload s!"unsupported algorithm {alg}")
  else if nonce.length ≠ nonceLen then
    .error (.invalidPayload s!"invalid nonce length {nonce.length}")
  else if ¬createdAtMs < expiresAtMs then
    .error (.invalidPayload "invalid validity window")
  else
    .ok ()

namespace AuthRequestBody

def validate (self : AuthRequestBody) : Except AgentError Unit :=
  validateFields self.protocolVersion self.alg self.nonce
    self.createdAtMs self.expiresAtMs

def canonicalBytes (self : AuthRequestBody) : Except AgentError Bytes := do
  self.validate
  let out ← encodeBytes [] requestDomain
  let out := encodeUInt16 out self.protocolVersion
  let out ← encodeString out self.requestId
  let out ← encodeBytes out self.nonce
  let out := encodeUInt64 out self.createdAtMs
  let out := encodeUInt64 out self.expiresAtMs
  let out ← encodeString out self.linuxHostId
  let out ← encodeString out self.linuxHostname
  let out ← encodeString out self.pamService
  let out ← encodeString out self.pamUser
  let out ← encodeOptionalString out self.pamRuser
  let out ← encodeOptionalString out self.pamRhost
  let out ← encodeOptionalString out self.pamTty
  let out ← encodeOptionalString out self.sudoCommand
  let out := encodeOptionalUInt32 out self.clientPid
  let out ← encodeString out self.keyId
  -- the forced unwrap of the source: `validate` has seen the same name
  encodeString out ((canonicalAlgorithmName self.alg).getD "")

/-- The request hash. The digest function belongs to the platform. -/
def sha256 (digest : Bytes -> Bytes) (self : AuthRequestBody) : Except AgentError Bytes := do
  let bytes ← self.canonicalBytes
  return digest bytes

def verifyFreshness
    (self : AuthRequestBody)
    (nowMs allowedFutureSkewMs : UInt64) : Except AgentError Unit :=
  if self.expiresAtMs ≤ nowMs then
    .error (.invalidPayload "request expired")
  else if nowMs < self.createdAtMs ∧ allowedFutureSkewMs < self.createdAtMs - nowMs then
    .error (.invalidPayload "request created too far in the future")
  else
    .ok ()

end AuthRequestBody

namespace AuthResponseBody

/-- The response to a request. Its validity window ends ten seconds after its
creation, or with the request if that is earlier. -/
def forRequest
    (digest : Bytes -> Bytes)
    (request : AuthRequestBody)
    (decision : Decision)
    (authMethod : AuthMethod)
    (nowMs : UInt64)
    (agentKeyId : String) : Except AgentError AuthResponseBody := do
  if ¬nowMs < request.expiresAtMs then
    .error .timeout
  else
    let requestHash ← request.sha256 digest
    return {
      protocolVersion := request.protocolVersion
      requestId := request.requestId
      nonce := request.nonce
      requestHash := requestHash
      linuxHostId := request.linuxHostId
      pamService := request.pamService
      pamUser := request.pamUser
      decision := decision
      authMethod := authMethod
      createdAtMs := nowMs
      expiresAtMs := nowMs + min 10000 (request.expiresAtMs - nowMs)
      agentKeyId := agentKeyId
      alg := "ed25519"
      errorCode := none
      errorMessage := none
    }

def validate (self : AuthResponseBody) : Except AgentError Unit :=
  validateFields self.protocolVersion self.alg self.nonce
    self.createdAtMs self.expiresAtMs

def canonicalBytes (self : AuthResponseBody) : Except AgentError Bytes := do
  self.validate
  let out ← encodeBytes [] responseDomain
  let out := encodeUInt16 out self.protocolVersion
  let out ← encodeString out self.requestId
  let out ← encodeBytes out self.nonce
  let out ← encodeBytes out self.requestHash
  let out ← encodeString out self.linuxHostId
  let out ← encodeString out self.pamService
  let out ← encodeString out self.pamUser
  let out ← encodeString out self.decision.rawValue
  let out ← encodeString out self.authMethod.canonicalName
  let out := encodeUInt64 out self.createdAtMs
  let out := encodeUInt64 out self.expiresAtMs
  let out ← encodeString out self.agentKeyId
  let out ← encodeString out ((canonicalAlgorithmName self.alg).getD "")
  let out ← encodeOptionalString out self.errorCode
  encodeOptionalString out self.errorMessage

end AuthResponseBody

/-! ## What the encoders append -/

/-- Shifting and masking selects one base-256 digit. -/
theorem toNat_ofNat_div_eq (value shift : Nat) :
    ((value >>> shift) &&& 255) % 2 ^ 8 = (UInt8.ofNat (value / 2 ^ shift)).toNat := by
  rw [show 255 = 2 ^ 8 - 1 from rfl, Nat.and_two_pow_sub_one_eq_mod,
    Nat.shiftRight_eq_div_pow, UInt8.toNat_ofNat', Nat.mod_mod]

theorem maskedByte16 (value shift : UInt16) :
    ((value >>> shift) &&& 0xff).toUInt8 =
      UInt8.ofNat (value.toNat / 2 ^ (shift.toNat % 16)) := by
  apply UInt8.toNat_inj.mp
  rw [← toNat_ofNat_div_eq, UInt16.toNat_toUInt8, UInt16.toNat_and,
    UInt16.toNat_shiftRight]
  rfl

theorem maskedByte32 (value shift : UInt32) :
    ((value >>> shift) &&& 0xff).toUInt8 =
      UInt8.ofNat (value.toNat / 2 ^ (shift.toNat % 32)) := by
  apply UInt8.toNat_inj.mp
  rw [← toNat_ofNat_div_eq, UInt32.toNat_toUInt8, UInt32.toNat_and,
    UInt32.toNat_shiftRight]
  rfl

theorem maskedByte64 (value shift : UInt64) :
    ((value >>> shift) &&& 0xff).toUInt8 =
      UInt8.ofNat (value.toNat / 2 ^ (shift.toNat % 64)) := by
  apply UInt8.toNat_inj.mp
  rw [← toNat_ofNat_div_eq, UInt64.toNat_toUInt8, UInt64.toNat_and,
    UInt64.toNat_shiftRight]
  rfl

theorem encodeUInt16_eq (out : Bytes) (value : UInt16) :
    encodeUInt16 out value = out ++ bigEndian 2 value.toNat := by
  have low : (value &&& 0xff).toUInt8 = UInt8.ofNat value.toNat := by
    simpa using maskedByte16 value 0
  simp only [encodeUInt16, maskedByte16, low]
  simp [bigEndian]

theorem encodeUInt32_eq (out : Bytes) (value : UInt32) :
    encodeUInt32 out value = out ++ bigEndian 4 value.toNat := by
  have low : (value &&& 0xff).toUInt8 = UInt8.ofNat value.toNat := by
    simpa using maskedByte32 value 0
  simp only [encodeUInt32, maskedByte32, low]
  simp [bigEndian, Nat.div_div_eq_div_mul]

theorem encodeUInt64_eq (out : Bytes) (value : UInt64) :
    encodeUInt64 out value = out ++ bigEndian 8 value.toNat := by
  simp only [encodeUInt64, encodeShifts, List.foldl, maskedByte64]
  simp [bigEndian, Nat.div_div_eq_div_mul]

theorem encodeBytes_eq_ok_iff {out value result : Bytes} :
    encodeBytes out value = .ok result ↔
      FieldFits value ∧ result = out ++ lengthPrefixed 4 value := by
  unfold encodeBytes FieldFits
  split
  · rename_i bound
    have fits : value.length < 2 ^ 32 := by
      have size : UInt32.size = 2 ^ 32 := rfl
      omega
    have exact_length : (UInt32.ofNat value.length).toNat = value.length := by
      simpa using fits
    simp only [encodeUInt32_eq, lengthPrefixed, exact_length, List.append_assoc,
      Except.ok.injEq, fits, true_and, eq_comm]
  · rename_i tooLarge
    have unfit : ¬value.length < 2 ^ 32 := by
      have size : UInt32.size = 2 ^ 32 := rfl
      omega
    simp only [reduceCtorEq, unfit, false_and]

theorem encodeString_eq_ok_iff {out result : Bytes} {value : String} :
    encodeString out value = .ok result ↔
      FieldFits (utf8 value) ∧ result = out ++ lengthPrefixed 4 (utf8 value) :=
  encodeBytes_eq_ok_iff

theorem encodeOptionalString_eq_ok_iff {out result : Bytes} {value : Option String} :
    encodeOptionalString out value = .ok result ↔
      OptionalDomain (fun text => FieldFits (utf8 text)) value ∧
        result = out ++ optionalStr value := by
  cases value with
  | none =>
      simp [encodeOptionalString, OptionalDomain, optionalStr, withPresence, eq_comm]
  | some text =>
      simp [encodeOptionalString, encodeString_eq_ok_iff, OptionalDomain, optionalStr,
        withPresence]

theorem encodeOptionalUInt32_eq (out : Bytes) (value : Option UInt32) :
    encodeOptionalUInt32 out value = out ++ optionalU32 value := by
  cases value with
  | none => rfl
  | some number =>
      simp [encodeOptionalUInt32, encodeUInt32_eq, optionalU32, withPresence]

theorem validateFields_eq_ok_iff
    {version : UInt16}
    {alg : String}
    {nonce : Bytes}
    {createdAtMs expiresAtMs : UInt64}
    {result : Unit} :
    validateFields version alg nonce createdAtMs expiresAtMs = .ok result ↔
      version = supportedVersion ∧ canonicalAlgorithmName alg = some "Ed25519" ∧
        nonce.length = nonceLen ∧ createdAtMs < expiresAtMs := by
  unfold validateFields
  split <;> simp_all
  unfold canonicalAlgorithmName
  split <;> simp_all
  split <;> simp_all

end Agent
end MacosAuth
