import MacosAuth.Codec.SelfDelimiting

/-!
# Protocol messages and their canonical signing bytes

The message types of the `macos-auth-protocol` crate, their validation, and the
byte strings that the two parties sign. The encoders append to an output buffer
and fail on fields whose length does not fit 32 bits.

The last section shows that the signing bytes are unambiguous: each of the two
encodings is self-delimiting, and the domain strings keep them apart.
-/

namespace MacosAuth
namespace Protocol

open Codec

/-- The protocol version that both parties speak. -/
def supportedVersion : UInt16 := 1

/-- Length of a request nonce in bytes. -/
def nonceLen : Nat := 32

/-- UTF-8 bytes of a string. -/
def utf8 (text : String) : Bytes :=
  text.toByteArray.data.toList

theorem utf8_injective : Function.Injective utf8 := by
  intro left right equal
  apply String.toByteArray_inj.mp
  apply ByteArray.ext
  exact Array.toList_inj.mp equal

theorem length_utf8 (text : String) : (utf8 text).length = text.utf8ByteSize := by
  simp [utf8]

def requestDomain : Bytes := utf8 "macos-auth/auth-request/v1"

def responseDomain : Bytes := utf8 "macos-auth/auth-response/v1"

inductive SignatureAlgorithm
  | ed25519
  deriving DecidableEq

/-- Errors of the protocol crate. -/
inductive ProtocolError
  | unsupportedVersion (version : UInt16)
  | unsupportedAlgorithm (alg : SignatureAlgorithm)
  | invalidNonceLength (expected actual : Nat)
  | invalidValidityWindow
  | expired
  | createdInFuture
  | invalidPublicKey
  | invalidSignatureLength
  | signatureVerificationFailed
  | responseBindingMismatch
  | fieldTooLarge (field : String)
  deriving DecidableEq

inductive Decision
  | approved
  | denied
  | unavailable
  | cancelled
  | failed
  deriving DecidableEq

inductive AuthMethod
  | watch
  | touchId
  | biometricOrWatch
  | unknown
  | none
  deriving DecidableEq

def SignatureAlgorithm.canonicalName : SignatureAlgorithm -> String
  | .ed25519 => "Ed25519"

def Decision.canonicalName : Decision -> String
  | .approved => "approved"
  | .denied => "denied"
  | .unavailable => "unavailable"
  | .cancelled => "cancelled"
  | .failed => "failed"

def AuthMethod.canonicalName : AuthMethod -> String
  | .watch => "watch"
  | .touchId => "touchid"
  | .biometricOrWatch => "biometric-or-watch"
  | .unknown => "unknown"
  | .none => "none"

/-! ### JSON spellings

The `rename_all = "kebab-case"` attribute of the source fixes how the enums are
written on the wire. -/

def SignatureAlgorithm.jsonName : SignatureAlgorithm -> String
  | .ed25519 => "ed25519"

def Decision.jsonName : Decision -> String
  | .approved => "approved"
  | .denied => "denied"
  | .unavailable => "unavailable"
  | .cancelled => "cancelled"
  | .failed => "failed"

def AuthMethod.jsonName : AuthMethod -> String
  | .watch => "watch"
  | .touchId => "touch-id"
  | .biometricOrWatch => "biometric-or-watch"
  | .unknown => "unknown"
  | .none => "none"

structure AuthRequestBody where
  protocolVersion : UInt16
  requestId : String
  nonce : Bytes
  createdAtMs : UInt64
  expiresAtMs : UInt64
  linuxHostId : String
  linuxHostname : String
  pamService : String
  pamUser : String
  pamRuser : Option String
  pamRhost : Option String
  pamTty : Option String
  sudoCommand : Option String
  clientPid : Option UInt32
  keyId : String
  alg : SignatureAlgorithm
  deriving DecidableEq

structure AuthResponseBody where
  protocolVersion : UInt16
  requestId : String
  nonce : Bytes
  requestHash : Bytes
  linuxHostId : String
  pamService : String
  pamUser : String
  decision : Decision
  authMethod : AuthMethod
  createdAtMs : UInt64
  expiresAtMs : UInt64
  agentKeyId : String
  alg : SignatureAlgorithm
  errorCode : Option String
  errorMessage : Option String
  deriving DecidableEq

structure SignedAuthRequest where
  body : AuthRequestBody
  signature : Bytes
  deriving DecidableEq

structure SignedAuthResponse where
  body : AuthResponseBody
  signature : Bytes
  deriving DecidableEq

/-! ## Field encoders -/

def encodeU16 (out : Bytes) (value : UInt16) : Bytes :=
  out ++ bigEndian 2 value.toNat

def encodeU32 (out : Bytes) (value : UInt32) : Bytes :=
  out ++ bigEndian 4 value.toNat

def encodeU64 (out : Bytes) (value : UInt64) : Bytes :=
  out ++ bigEndian 8 value.toNat

def encodeBytes
    (out value : Bytes)
    (fieldName : String) : Except ProtocolError Bytes :=
  -- `u32::try_from` fails from 2^32 on
  if value.length < 2 ^ 32 then
    .ok (encodeU32 out (UInt32.ofNat value.length) ++ value)
  else
    .error (.fieldTooLarge fieldName)

def encodeStr
    (out : Bytes)
    (value fieldName : String) : Except ProtocolError Bytes :=
  encodeBytes out (utf8 value) fieldName

def encodeOptionalStr
    (out : Bytes)
    (value : Option String)
    (fieldName : String) : Except ProtocolError Bytes :=
  match value with
  | some value => encodeStr (out ++ [1]) value fieldName
  | none => .ok (out ++ [0])

def encodeOptionalU32 (out : Bytes) (value : Option UInt32) : Bytes :=
  match value with
  | some value => encodeU32 (out ++ [1]) value
  | none => out ++ [0]

/-! ## Validation and canonical bytes -/

/-- The checks that requests and responses share, in the order of the source. -/
def validateFields
    (version : UInt16)
    (alg : SignatureAlgorithm)
    (nonce : Bytes)
    (createdAtMs expiresAtMs : UInt64) : Except ProtocolError Unit :=
  if version ≠ supportedVersion then
    .error (.unsupportedVersion version)
  else if alg ≠ .ed25519 then
    .error (.unsupportedAlgorithm alg)
  else if nonce.length ≠ nonceLen then
    .error (.invalidNonceLength nonceLen nonce.length)
  else if expiresAtMs ≤ createdAtMs then
    .error .invalidValidityWindow
  else
    .ok ()

namespace AuthRequestBody

def validate (self : AuthRequestBody) : Except ProtocolError Unit :=
  validateFields self.protocolVersion self.alg self.nonce
    self.createdAtMs self.expiresAtMs

def canonicalBytes (self : AuthRequestBody) : Except ProtocolError Bytes := do
  self.validate
  let out ← encodeBytes [] requestDomain "request_domain"
  let out := encodeU16 out self.protocolVersion
  let out ← encodeStr out self.requestId "request_id"
  let out ← encodeBytes out self.nonce "nonce"
  let out := encodeU64 out self.createdAtMs
  let out := encodeU64 out self.expiresAtMs
  let out ← encodeStr out self.linuxHostId "linux_host_id"
  let out ← encodeStr out self.linuxHostname "linux_hostname"
  let out ← encodeStr out self.pamService "pam_service"
  let out ← encodeStr out self.pamUser "pam_user"
  let out ← encodeOptionalStr out self.pamRuser "pam_ruser"
  let out ← encodeOptionalStr out self.pamRhost "pam_rhost"
  let out ← encodeOptionalStr out self.pamTty "pam_tty"
  let out ← encodeOptionalStr out self.sudoCommand "sudo_command"
  let out := encodeOptionalU32 out self.clientPid
  let out ← encodeStr out self.keyId "key_id"
  encodeStr out self.alg.canonicalName "alg"

end AuthRequestBody

namespace AuthResponseBody

def validate (self : AuthResponseBody) : Except ProtocolError Unit :=
  validateFields self.protocolVersion self.alg self.nonce
    self.createdAtMs self.expiresAtMs

def canonicalBytes (self : AuthResponseBody) : Except ProtocolError Bytes := do
  self.validate
  let out ← encodeBytes [] responseDomain "response_domain"
  let out := encodeU16 out self.protocolVersion
  let out ← encodeStr out self.requestId "request_id"
  let out ← encodeBytes out self.nonce "nonce"
  let out ← encodeBytes out self.requestHash "request_hash"
  let out ← encodeStr out self.linuxHostId "linux_host_id"
  let out ← encodeStr out self.pamService "pam_service"
  let out ← encodeStr out self.pamUser "pam_user"
  let out ← encodeStr out self.decision.canonicalName "decision"
  let out ← encodeStr out self.authMethod.canonicalName "auth_method"
  let out := encodeU64 out self.createdAtMs
  let out := encodeU64 out self.expiresAtMs
  let out ← encodeStr out self.agentKeyId "agent_key_id"
  let out ← encodeStr out self.alg.canonicalName "alg"
  let out ← encodeOptionalStr out self.errorCode "error_code"
  encodeOptionalStr out self.errorMessage "error_message"

end AuthResponseBody

/-! ## What the encoders append -/

/-- A field that `encodeBytes` accepts. -/
def FieldFits (value : Bytes) : Prop :=
  value.length < 2 ^ 32

/-- The two-step reading of a fallible sequence. -/
theorem bind_eq_ok
    {first : Except ε α}
    {next : α -> Except ε β}
    {result : β} :
    (first >>= next) = .ok result ↔
      ∃ value, first = .ok value ∧ next value = .ok result := by
  cases first with
  | error error => simp [bind, Except.bind]
  | ok value => simp [bind, Except.bind]

theorem encodeBytes_eq_ok_iff
    {out value result : Bytes}
    {fieldName : String} :
    encodeBytes out value fieldName = .ok result ↔
      FieldFits value ∧ result = out ++ lengthPrefixed 4 value := by
  unfold encodeBytes FieldFits
  split
  · rename_i fits
    have exact_length : (UInt32.ofNat value.length).toNat = value.length := by
      simpa using fits
    simp only [encodeU32, lengthPrefixed, exact_length, List.append_assoc,
      Except.ok.injEq, fits, true_and, eq_comm]
  · simp_all

theorem encodeStr_eq_ok_iff
    {out result : Bytes}
    {value fieldName : String} :
    encodeStr out value fieldName = .ok result ↔
      FieldFits (utf8 value) ∧ result = out ++ lengthPrefixed 4 (utf8 value) :=
  encodeBytes_eq_ok_iff

/-- Bytes of an optional string field. -/
def optionalStr (value : Option String) : Bytes :=
  withPresence (fun text => lengthPrefixed 4 (utf8 text)) value

theorem encodeOptionalStr_eq_ok_iff
    {out result : Bytes}
    {value : Option String}
    {fieldName : String} :
    encodeOptionalStr out value fieldName = .ok result ↔
      OptionalDomain (fun text => FieldFits (utf8 text)) value ∧
        result = out ++ optionalStr value := by
  cases value with
  | none => simp [encodeOptionalStr, OptionalDomain, optionalStr, withPresence, eq_comm]
  | some text =>
      simp [encodeOptionalStr, encodeStr_eq_ok_iff, OptionalDomain, optionalStr, withPresence]

/-- Bytes of an optional 32-bit field. -/
def optionalU32 (value : Option UInt32) : Bytes :=
  withPresence (fun number => bigEndian 4 number.toNat) value

theorem encodeOptionalU32_eq (out : Bytes) (value : Option UInt32) :
    encodeOptionalU32 out value = out ++ optionalU32 value := by
  cases value with
  | none => rfl
  | some number => simp [encodeOptionalU32, encodeU32, optionalU32, withPresence]

theorem validateFields_eq_ok_iff
    {version : UInt16}
    {alg : SignatureAlgorithm}
    {nonce : Bytes}
    {createdAtMs expiresAtMs : UInt64}
    {result : Unit} :
    validateFields version alg nonce createdAtMs expiresAtMs = .ok result ↔
      version = supportedVersion ∧ nonce.length = nonceLen ∧
        createdAtMs < expiresAtMs := by
  cases alg
  unfold validateFields
  split <;> simp_all
  split <;> simp_all

theorem fieldFits_of_length_le
    {value : Bytes}
    (bound : value.length ≤ 64) :
    FieldFits value := by
  unfold FieldFits
  omega

theorem SignatureAlgorithm.canonicalName_fits (alg : SignatureAlgorithm) :
    FieldFits (utf8 alg.canonicalName) := by
  cases alg
  exact fieldFits_of_length_le (by decide)

theorem Decision.canonicalName_fits (decision : Decision) :
    FieldFits (utf8 decision.canonicalName) := by
  cases decision <;> exact fieldFits_of_length_le (by decide)

theorem AuthMethod.canonicalName_fits (method : AuthMethod) :
    FieldFits (utf8 method.canonicalName) := by
  cases method <;> exact fieldFits_of_length_le (by decide)

theorem nonce_fits
    {nonce : Bytes}
    (length_eq : nonce.length = nonceLen) :
    FieldFits nonce :=
  fieldFits_of_length_le (by rw [length_eq]; decide)

namespace AuthRequestBody

/-- The requests that have signing bytes. -/
structure Encodable (body : AuthRequestBody) : Prop where
  version : body.protocolVersion = supportedVersion
  nonceLength : body.nonce.length = nonceLen
  window : body.createdAtMs < body.expiresAtMs
  requestId : FieldFits (utf8 body.requestId)
  linuxHostId : FieldFits (utf8 body.linuxHostId)
  linuxHostname : FieldFits (utf8 body.linuxHostname)
  pamService : FieldFits (utf8 body.pamService)
  pamUser : FieldFits (utf8 body.pamUser)
  pamRuser : OptionalDomain (fun text => FieldFits (utf8 text)) body.pamRuser
  pamRhost : OptionalDomain (fun text => FieldFits (utf8 text)) body.pamRhost
  pamTty : OptionalDomain (fun text => FieldFits (utf8 text)) body.pamTty
  sudoCommand : OptionalDomain (fun text => FieldFits (utf8 text)) body.sudoCommand
  keyId : FieldFits (utf8 body.keyId)

/-- The fields of a request, one after the other. -/
def encoding (self : AuthRequestBody) : Bytes :=
  lengthPrefixed 4 requestDomain ++ (bigEndian 2 self.protocolVersion.toNat ++
  (lengthPrefixed 4 (utf8 self.requestId) ++ (lengthPrefixed 4 self.nonce ++
  (bigEndian 8 self.createdAtMs.toNat ++ (bigEndian 8 self.expiresAtMs.toNat ++
  (lengthPrefixed 4 (utf8 self.linuxHostId) ++ (lengthPrefixed 4 (utf8 self.linuxHostname) ++
  (lengthPrefixed 4 (utf8 self.pamService) ++ (lengthPrefixed 4 (utf8 self.pamUser) ++
  (optionalStr self.pamRuser ++ (optionalStr self.pamRhost ++
  (optionalStr self.pamTty ++ (optionalStr self.sudoCommand ++
  (optionalU32 self.clientPid ++ (lengthPrefixed 4 (utf8 self.keyId) ++
  lengthPrefixed 4 (utf8 self.alg.canonicalName))))))))))))))))

theorem canonicalBytes_eq_ok_iff
    {self : AuthRequestBody}
    {bytes : Bytes} :
    self.canonicalBytes = .ok bytes ↔ self.Encodable ∧ bytes = self.encoding := by
  simp only [canonicalBytes, validate, bind_eq_ok, validateFields_eq_ok_iff,
    encodeBytes_eq_ok_iff, encodeStr_eq_ok_iff, encodeOptionalStr_eq_ok_iff,
    encodeOptionalU32_eq, encodeU16, encodeU64, and_assoc, exists_and_left,
    exists_eq_left, exists_const, List.nil_append, List.append_assoc]
  constructor
  · rintro ⟨version, nonceLength, window, _, requestId, _, hostId, hostname, service,
      user, ruser, rhost, tty, command, keyId, _, rfl⟩
    exact ⟨⟨version, nonceLength, window, requestId, hostId, hostname, service, user,
      ruser, rhost, tty, command, keyId⟩, rfl⟩
  · rintro ⟨encodable, rfl⟩
    exact ⟨encodable.version, encodable.nonceLength, encodable.window,
      fieldFits_of_length_le (by decide), encodable.requestId,
      nonce_fits encodable.nonceLength, encodable.linuxHostId,
      encodable.linuxHostname, encodable.pamService, encodable.pamUser,
      encodable.pamRuser, encodable.pamRhost, encodable.pamTty,
      encodable.sudoCommand, encodable.keyId, self.alg.canonicalName_fits, rfl⟩

end AuthRequestBody

namespace AuthResponseBody

/-- The responses that have signing bytes. -/
structure Encodable (body : AuthResponseBody) : Prop where
  version : body.protocolVersion = supportedVersion
  nonceLength : body.nonce.length = nonceLen
  window : body.createdAtMs < body.expiresAtMs
  requestId : FieldFits (utf8 body.requestId)
  requestHash : FieldFits body.requestHash
  linuxHostId : FieldFits (utf8 body.linuxHostId)
  pamService : FieldFits (utf8 body.pamService)
  pamUser : FieldFits (utf8 body.pamUser)
  agentKeyId : FieldFits (utf8 body.agentKeyId)
  errorCode : OptionalDomain (fun text => FieldFits (utf8 text)) body.errorCode
  errorMessage : OptionalDomain (fun text => FieldFits (utf8 text)) body.errorMessage

/-- The fields of a response, one after the other. -/
def encoding (self : AuthResponseBody) : Bytes :=
  lengthPrefixed 4 responseDomain ++ (bigEndian 2 self.protocolVersion.toNat ++
  (lengthPrefixed 4 (utf8 self.requestId) ++ (lengthPrefixed 4 self.nonce ++
  (lengthPrefixed 4 self.requestHash ++ (lengthPrefixed 4 (utf8 self.linuxHostId) ++
  (lengthPrefixed 4 (utf8 self.pamService) ++ (lengthPrefixed 4 (utf8 self.pamUser) ++
  (lengthPrefixed 4 (utf8 self.decision.canonicalName) ++
  (lengthPrefixed 4 (utf8 self.authMethod.canonicalName) ++
  (bigEndian 8 self.createdAtMs.toNat ++ (bigEndian 8 self.expiresAtMs.toNat ++
  (lengthPrefixed 4 (utf8 self.agentKeyId) ++
  (lengthPrefixed 4 (utf8 self.alg.canonicalName) ++
  (optionalStr self.errorCode ++ optionalStr self.errorMessage))))))))))))))

theorem canonicalBytes_eq_ok_iff
    {self : AuthResponseBody}
    {bytes : Bytes} :
    self.canonicalBytes = .ok bytes ↔ self.Encodable ∧ bytes = self.encoding := by
  simp only [canonicalBytes, validate, bind_eq_ok, validateFields_eq_ok_iff,
    encodeBytes_eq_ok_iff, encodeStr_eq_ok_iff, encodeOptionalStr_eq_ok_iff,
    encodeU16, encodeU64, and_assoc, exists_and_left, exists_eq_left,
    exists_const, List.nil_append, List.append_assoc]
  constructor
  · rintro ⟨version, nonceLength, window, _, requestId, _, requestHash, hostId, service,
      user, _, _, agentKeyId, _, errorCode, errorMessage, rfl⟩
    exact ⟨⟨version, nonceLength, window, requestId, requestHash, hostId, service, user,
      agentKeyId, errorCode, errorMessage⟩, rfl⟩
  · rintro ⟨encodable, rfl⟩
    exact ⟨encodable.version, encodable.nonceLength, encodable.window,
      fieldFits_of_length_le (by decide), encodable.requestId,
      nonce_fits encodable.nonceLength, encodable.requestHash,
      encodable.linuxHostId, encodable.pamService, encodable.pamUser,
      self.decision.canonicalName_fits, self.authMethod.canonicalName_fits,
      encodable.agentKeyId, self.alg.canonicalName_fits, encodable.errorCode,
      encodable.errorMessage, rfl⟩

end AuthResponseBody

/-! ## Unambiguous signing bytes -/

theorem selfDelimiting_bytes : SelfDelimiting FieldFits (lengthPrefixed 4) :=
  selfDelimiting_lengthPrefixed 4

theorem selfDelimiting_str :
    SelfDelimiting (fun text => FieldFits (utf8 text))
      fun text => lengthPrefixed 4 (utf8 text) :=
  selfDelimiting_bytes.comap utf8 utf8_injective

theorem selfDelimiting_optionalStr :
    SelfDelimiting (OptionalDomain fun text => FieldFits (utf8 text)) optionalStr :=
  selfDelimiting_withPresence selfDelimiting_str

/-- Machine integers, whose range fits the width of their encoding. -/
theorem selfDelimiting_integer
    (width : Nat)
    {toNat : α -> Nat}
    (bound : ∀ value, toNat value < 256 ^ width)
    (injective : Function.Injective toNat)
    {left right : α}
    {leftRest rightRest : Bytes}
    (equal : bigEndian width (toNat left) ++ leftRest =
      bigEndian width (toNat right) ++ rightRest) :
    left = right ∧ leftRest = rightRest :=
  (selfDelimiting_bigEndian width).comap toNat injective left right
    (bound left) (bound right) _ _ equal

theorem u16_cancel
    {left right : UInt16}
    {leftRest rightRest : Bytes}
    (equal : bigEndian 2 left.toNat ++ leftRest =
      bigEndian 2 right.toNat ++ rightRest) :
    left = right ∧ leftRest = rightRest :=
  selfDelimiting_integer 2 UInt16.toNat_lt (fun _ _ => UInt16.toNat_inj.mp) equal

theorem u64_cancel
    {left right : UInt64}
    {leftRest rightRest : Bytes}
    (equal : bigEndian 8 left.toNat ++ leftRest =
      bigEndian 8 right.toNat ++ rightRest) :
    left = right ∧ leftRest = rightRest :=
  selfDelimiting_integer 8 UInt64.toNat_lt (fun _ _ => UInt64.toNat_inj.mp) equal

theorem optionalU32_cancel
    {left right : Option UInt32}
    {leftRest rightRest : Bytes}
    (equal : optionalU32 left ++ leftRest = optionalU32 right ++ rightRest) :
    left = right ∧ leftRest = rightRest := by
  have delimiting : SelfDelimiting (fun _ => True)
      fun number : UInt32 => bigEndian 4 number.toNat := by
    intro left right _ _ leftRest rightRest equal
    exact selfDelimiting_integer 4 UInt32.toNat_lt (fun _ _ => UInt32.toNat_inj.mp) equal
  exact selfDelimiting_withPresence delimiting left right
    (fun _ _ => trivial) (fun _ _ => trivial) _ _ equal

theorem SignatureAlgorithm.canonicalName_injective :
    Function.Injective SignatureAlgorithm.canonicalName := by
  intro left right _
  cases left
  cases right
  rfl

theorem Decision.canonicalName_injective :
    Function.Injective Decision.canonicalName := by
  intro left right equal
  cases left <;> cases right <;> first | rfl | exact absurd equal (by decide)

theorem AuthMethod.canonicalName_injective :
    Function.Injective AuthMethod.canonicalName := by
  intro left right equal
  cases left <;> cases right <;> first | rfl | exact absurd equal (by decide)

/-- Fields that are encoded by a fixed name. -/
theorem name_cancel
    {name : α -> String}
    (fits : ∀ value, FieldFits (utf8 (name value)))
    (injective : Function.Injective name)
    {left right : α}
    {leftRest rightRest : Bytes}
    (equal : lengthPrefixed 4 (utf8 (name left)) ++ leftRest =
      lengthPrefixed 4 (utf8 (name right)) ++ rightRest) :
    left = right ∧ leftRest = rightRest :=
  selfDelimiting_str.comap name injective left right (fits left) (fits right) _ _ equal

namespace AuthRequestBody

/-- Request signing bytes are self-delimiting. The proof takes the fields off the
two byte strings from left to right. -/
theorem selfDelimiting_encoding :
    SelfDelimiting Encodable AuthRequestBody.encoding := by
  intro left right leftFits rightFits leftRest rightRest equal
  simp only [encoding, List.append_assoc] at equal
  have equal := List.append_cancel_left equal
  obtain ⟨version, equal⟩ := u16_cancel equal
  obtain ⟨requestId, equal⟩ :=
    selfDelimiting_str _ _ leftFits.requestId rightFits.requestId _ _ equal
  obtain ⟨nonce, equal⟩ := selfDelimiting_bytes _ _
    (nonce_fits leftFits.nonceLength) (nonce_fits rightFits.nonceLength) _ _ equal
  obtain ⟨createdAtMs, equal⟩ := u64_cancel equal
  obtain ⟨expiresAtMs, equal⟩ := u64_cancel equal
  obtain ⟨linuxHostId, equal⟩ :=
    selfDelimiting_str _ _ leftFits.linuxHostId rightFits.linuxHostId _ _ equal
  obtain ⟨linuxHostname, equal⟩ :=
    selfDelimiting_str _ _ leftFits.linuxHostname rightFits.linuxHostname _ _ equal
  obtain ⟨pamService, equal⟩ :=
    selfDelimiting_str _ _ leftFits.pamService rightFits.pamService _ _ equal
  obtain ⟨pamUser, equal⟩ :=
    selfDelimiting_str _ _ leftFits.pamUser rightFits.pamUser _ _ equal
  obtain ⟨pamRuser, equal⟩ :=
    selfDelimiting_optionalStr _ _ leftFits.pamRuser rightFits.pamRuser _ _ equal
  obtain ⟨pamRhost, equal⟩ :=
    selfDelimiting_optionalStr _ _ leftFits.pamRhost rightFits.pamRhost _ _ equal
  obtain ⟨pamTty, equal⟩ :=
    selfDelimiting_optionalStr _ _ leftFits.pamTty rightFits.pamTty _ _ equal
  obtain ⟨sudoCommand, equal⟩ :=
    selfDelimiting_optionalStr _ _ leftFits.sudoCommand rightFits.sudoCommand _ _ equal
  obtain ⟨clientPid, equal⟩ := optionalU32_cancel equal
  obtain ⟨keyId, equal⟩ :=
    selfDelimiting_str _ _ leftFits.keyId rightFits.keyId _ _ equal
  obtain ⟨alg, rests⟩ := name_cancel SignatureAlgorithm.canonicalName_fits
    SignatureAlgorithm.canonicalName_injective equal
  refine ⟨?_, rests⟩
  cases left
  cases right
  simp_all

end AuthRequestBody

namespace AuthResponseBody

/-- Response signing bytes are self-delimiting. -/
theorem selfDelimiting_encoding :
    SelfDelimiting Encodable AuthResponseBody.encoding := by
  intro left right leftFits rightFits leftRest rightRest equal
  simp only [encoding, List.append_assoc] at equal
  have equal := List.append_cancel_left equal
  obtain ⟨version, equal⟩ := u16_cancel equal
  obtain ⟨requestId, equal⟩ :=
    selfDelimiting_str _ _ leftFits.requestId rightFits.requestId _ _ equal
  obtain ⟨nonce, equal⟩ := selfDelimiting_bytes _ _
    (nonce_fits leftFits.nonceLength) (nonce_fits rightFits.nonceLength) _ _ equal
  obtain ⟨requestHash, equal⟩ :=
    selfDelimiting_bytes _ _ leftFits.requestHash rightFits.requestHash _ _ equal
  obtain ⟨linuxHostId, equal⟩ :=
    selfDelimiting_str _ _ leftFits.linuxHostId rightFits.linuxHostId _ _ equal
  obtain ⟨pamService, equal⟩ :=
    selfDelimiting_str _ _ leftFits.pamService rightFits.pamService _ _ equal
  obtain ⟨pamUser, equal⟩ :=
    selfDelimiting_str _ _ leftFits.pamUser rightFits.pamUser _ _ equal
  obtain ⟨decision, equal⟩ := name_cancel Decision.canonicalName_fits
    Decision.canonicalName_injective equal
  obtain ⟨authMethod, equal⟩ := name_cancel AuthMethod.canonicalName_fits
    AuthMethod.canonicalName_injective equal
  obtain ⟨createdAtMs, equal⟩ := u64_cancel equal
  obtain ⟨expiresAtMs, equal⟩ := u64_cancel equal
  obtain ⟨agentKeyId, equal⟩ :=
    selfDelimiting_str _ _ leftFits.agentKeyId rightFits.agentKeyId _ _ equal
  obtain ⟨alg, equal⟩ := name_cancel SignatureAlgorithm.canonicalName_fits
    SignatureAlgorithm.canonicalName_injective equal
  obtain ⟨errorCode, equal⟩ :=
    selfDelimiting_optionalStr _ _ leftFits.errorCode rightFits.errorCode _ _ equal
  obtain ⟨errorMessage, rests⟩ :=
    selfDelimiting_optionalStr _ _ leftFits.errorMessage rightFits.errorMessage _ _ equal
  refine ⟨?_, rests⟩
  cases left
  cases right
  simp_all

end AuthResponseBody

/-- The domain strings have different lengths, so a request and a response
encoding differ within their first four bytes. -/
theorem encodings_differ
    (request : AuthRequestBody)
    (response : AuthResponseBody)
    (requestRest responseRest : Bytes) :
    request.encoding ++ requestRest ≠ response.encoding ++ responseRest := by
  intro equal
  simp only [AuthRequestBody.encoding, AuthResponseBody.encoding,
    List.append_assoc] at equal
  obtain ⟨domains, _⟩ := selfDelimiting_bytes _ _
    (fieldFits_of_length_le (by decide)) (fieldFits_of_length_le (by decide)) _ _ equal
  exact absurd domains (by decide)

/-- Canonical signing bytes are unambiguous: the signed message and the bytes
behind it are determined by their concatenation, and no request encoding is a
prefix of a response encoding or the other way round. -/
theorem canonicalBytes_unambiguous :
    (∀ (left right : AuthRequestBody) (leftBytes rightBytes leftRest rightRest : Bytes),
      left.canonicalBytes = .ok leftBytes -> right.canonicalBytes = .ok rightBytes ->
      leftBytes ++ leftRest = rightBytes ++ rightRest ->
        left = right ∧ leftRest = rightRest) ∧
    (∀ (left right : AuthResponseBody) (leftBytes rightBytes leftRest rightRest : Bytes),
      left.canonicalBytes = .ok leftBytes -> right.canonicalBytes = .ok rightBytes ->
      leftBytes ++ leftRest = rightBytes ++ rightRest ->
        left = right ∧ leftRest = rightRest) ∧
    ∀ (request : AuthRequestBody) (response : AuthResponseBody)
      (requestBytes responseBytes : Bytes),
      request.canonicalBytes = .ok requestBytes ->
      response.canonicalBytes = .ok responseBytes ->
        ¬requestBytes <+: responseBytes ∧ ¬responseBytes <+: requestBytes := by
  refine ⟨?_, ?_, ?_⟩
  · intro left right leftBytes rightBytes leftRest rightRest leftOk rightOk equal
    obtain ⟨leftFits, rfl⟩ := AuthRequestBody.canonicalBytes_eq_ok_iff.mp leftOk
    obtain ⟨rightFits, rfl⟩ := AuthRequestBody.canonicalBytes_eq_ok_iff.mp rightOk
    exact AuthRequestBody.selfDelimiting_encoding _ _ leftFits rightFits _ _ equal
  · intro left right leftBytes rightBytes leftRest rightRest leftOk rightOk equal
    obtain ⟨leftFits, rfl⟩ := AuthResponseBody.canonicalBytes_eq_ok_iff.mp leftOk
    obtain ⟨rightFits, rfl⟩ := AuthResponseBody.canonicalBytes_eq_ok_iff.mp rightOk
    exact AuthResponseBody.selfDelimiting_encoding _ _ leftFits rightFits _ _ equal
  · intro request response requestBytes responseBytes requestOk responseOk
    obtain ⟨_, rfl⟩ := AuthRequestBody.canonicalBytes_eq_ok_iff.mp requestOk
    obtain ⟨_, rfl⟩ := AuthResponseBody.canonicalBytes_eq_ok_iff.mp responseOk
    constructor
    · rintro ⟨rest, equal⟩
      exact encodings_differ request response rest [] (by simpa using equal)
    · rintro ⟨rest, equal⟩
      exact encodings_differ request response [] rest (by simpa using equal.symm)

end Protocol
end MacosAuth
