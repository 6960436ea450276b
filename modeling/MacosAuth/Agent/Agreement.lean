import MacosAuth.Agent.Messages
import MacosAuth.Protocol.Verification

/-!
# The two canonical encoders agree

Every agent message determines a message of the protocol crate: the enums
correspond by their JSON spelling and the algorithm string is dropped. On agent
messages with an accepted algorithm the agent's encoder computes the bytes of the
corresponding protocol message. In the other direction, a protocol message is
decoded by the agent through the JSON spellings, and nothing is lost.
-/

namespace MacosAuth
namespace Agent

open Codec
open Protocol (bind_eq_ok)

/-! ## From agent messages to protocol messages -/

def Decision.toProtocol : Decision -> Protocol.Decision
  | .approved => .approved
  | .denied => .denied
  | .unavailable => .unavailable
  | .cancelled => .cancelled
  | .failed => .failed

def AuthMethod.toProtocol : AuthMethod -> Protocol.AuthMethod
  | .watch => .watch
  | .touchID => .touchId
  | .biometricOrWatch => .biometricOrWatch
  | .unknown => .unknown
  | .none => .none

def AuthRequestBody.toProtocol (body : AuthRequestBody) : Protocol.AuthRequestBody where
  protocolVersion := body.protocolVersion
  requestId := body.requestId
  nonce := body.nonce
  createdAtMs := body.createdAtMs
  expiresAtMs := body.expiresAtMs
  linuxHostId := body.linuxHostId
  linuxHostname := body.linuxHostname
  pamService := body.pamService
  pamUser := body.pamUser
  pamRuser := body.pamRuser
  pamRhost := body.pamRhost
  pamTty := body.pamTty
  sudoCommand := body.sudoCommand
  clientPid := body.clientPid
  keyId := body.keyId
  alg := .ed25519

def AuthResponseBody.toProtocol (body : AuthResponseBody) : Protocol.AuthResponseBody where
  protocolVersion := body.protocolVersion
  requestId := body.requestId
  nonce := body.nonce
  requestHash := body.requestHash
  linuxHostId := body.linuxHostId
  pamService := body.pamService
  pamUser := body.pamUser
  decision := body.decision.toProtocol
  authMethod := body.authMethod.toProtocol
  createdAtMs := body.createdAtMs
  expiresAtMs := body.expiresAtMs
  agentKeyId := body.agentKeyId
  alg := .ed25519
  errorCode := body.errorCode
  errorMessage := body.errorMessage

theorem Decision.rawValue_eq_canonicalName (decision : Decision) :
    decision.rawValue = decision.toProtocol.canonicalName := by
  cases decision <;> rfl

theorem AuthMethod.canonicalName_eq (method : AuthMethod) :
    method.canonicalName = method.toProtocol.canonicalName := by
  cases method <;> rfl

/-- The agent's request encoder, on requests whose algorithm it accepts, is the
encoder of the protocol crate. -/
theorem AuthRequestBody.canonicalBytes_eq_ok_iff
    {self : AuthRequestBody}
    {bytes : Bytes} :
    self.canonicalBytes = .ok bytes ↔
      canonicalAlgorithmName self.alg = some "Ed25519" ∧
        self.toProtocol.canonicalBytes = .ok bytes := by
  rw [Protocol.AuthRequestBody.canonicalBytes_eq_ok_iff]
  simp only [canonicalBytes, validate, bind_eq_ok, validateFields_eq_ok_iff,
    encodeBytes_eq_ok_iff, encodeString_eq_ok_iff, encodeOptionalString_eq_ok_iff,
    encodeOptionalUInt32_eq, encodeUInt16_eq, encodeUInt64_eq, and_assoc,
    exists_and_left, exists_eq_left, exists_const, List.nil_append, List.append_assoc]
  constructor
  · rintro ⟨version, algorithm, nonceLength, window, _, requestId, _, hostId, hostname,
      service, user, ruser, rhost, tty, command, keyId, _, rfl⟩
    refine ⟨algorithm, ⟨version, nonceLength, window, requestId, hostId, hostname,
      service, user, ruser, rhost, tty, command, keyId⟩, ?_⟩
    rw [algorithm]
    rfl
  · rintro ⟨algorithm, encodable, rfl⟩
    rw [algorithm]
    exact ⟨encodable.version, rfl, encodable.nonceLength, encodable.window,
      Protocol.fieldFits_of_length_le (by decide), encodable.requestId,
      Protocol.nonce_fits encodable.nonceLength, encodable.linuxHostId,
      encodable.linuxHostname, encodable.pamService, encodable.pamUser,
      encodable.pamRuser, encodable.pamRhost, encodable.pamTty,
      encodable.sudoCommand, encodable.keyId,
      self.toProtocol.alg.canonicalName_fits, rfl⟩

/-- The agent's response encoder, on responses whose algorithm it accepts, is the
encoder of the protocol crate. -/
theorem AuthResponseBody.canonicalBytes_eq_ok_iff
    {self : AuthResponseBody}
    {bytes : Bytes} :
    self.canonicalBytes = .ok bytes ↔
      canonicalAlgorithmName self.alg = some "Ed25519" ∧
        self.toProtocol.canonicalBytes = .ok bytes := by
  rw [Protocol.AuthResponseBody.canonicalBytes_eq_ok_iff]
  simp only [canonicalBytes, validate, bind_eq_ok, validateFields_eq_ok_iff,
    encodeBytes_eq_ok_iff, encodeString_eq_ok_iff, encodeOptionalString_eq_ok_iff,
    encodeUInt16_eq, encodeUInt64_eq, Decision.rawValue_eq_canonicalName,
    AuthMethod.canonicalName_eq, and_assoc, exists_and_left, exists_eq_left,
    exists_const, List.nil_append, List.append_assoc]
  constructor
  · rintro ⟨version, algorithm, nonceLength, window, _, requestId, _, requestHash, hostId,
      service, user, _, _, agentKeyId, _, errorCode, errorMessage, rfl⟩
    refine ⟨algorithm, ⟨version, nonceLength, window, requestId, requestHash, hostId,
      service, user, agentKeyId, errorCode, errorMessage⟩, ?_⟩
    rw [algorithm]
    rfl
  · rintro ⟨algorithm, encodable, rfl⟩
    rw [algorithm]
    exact ⟨encodable.version, rfl, encodable.nonceLength, encodable.window,
      Protocol.fieldFits_of_length_le (by decide), encodable.requestId,
      Protocol.nonce_fits encodable.nonceLength, encodable.requestHash,
      encodable.linuxHostId, encodable.pamService, encodable.pamUser,
      self.decision.toProtocol.canonicalName_fits,
      self.authMethod.toProtocol.canonicalName_fits, encodable.agentKeyId,
      self.toProtocol.alg.canonicalName_fits, encodable.errorCode,
      encodable.errorMessage, rfl⟩

/-! ## From protocol messages to agent messages -/

/-- The agent's reading of a request: the algorithm arrives in its JSON
spelling. -/
def decodeRequestBody (body : Protocol.AuthRequestBody) : AuthRequestBody where
  protocolVersion := body.protocolVersion
  requestId := body.requestId
  nonce := body.nonce
  createdAtMs := body.createdAtMs
  expiresAtMs := body.expiresAtMs
  linuxHostId := body.linuxHostId
  linuxHostname := body.linuxHostname
  pamService := body.pamService
  pamUser := body.pamUser
  pamRuser := body.pamRuser
  pamRhost := body.pamRhost
  pamTty := body.pamTty
  sudoCommand := body.sudoCommand
  clientPid := body.clientPid
  keyId := body.keyId
  alg := body.alg.jsonName

/-- The agent's reading of a response. Decoding fails on spellings that are not
raw values of the enums. -/
def decodeResponseBody (body : Protocol.AuthResponseBody) : Option AuthResponseBody := do
  let decision ← Decision.ofRawValue body.decision.jsonName
  let authMethod ← AuthMethod.ofRawValue body.authMethod.jsonName
  return {
    protocolVersion := body.protocolVersion
    requestId := body.requestId
    nonce := body.nonce
    requestHash := body.requestHash
    linuxHostId := body.linuxHostId
    pamService := body.pamService
    pamUser := body.pamUser
    decision := decision
    authMethod := authMethod
    createdAtMs := body.createdAtMs
    expiresAtMs := body.expiresAtMs
    agentKeyId := body.agentKeyId
    alg := body.alg.jsonName
    errorCode := body.errorCode
    errorMessage := body.errorMessage
  }

theorem canonicalAlgorithmName_jsonName (alg : Protocol.SignatureAlgorithm) :
    canonicalAlgorithmName alg.jsonName = some "Ed25519" := by
  cases alg
  decide

theorem toProtocol_decodeRequestBody (body : Protocol.AuthRequestBody) :
    (decodeRequestBody body).toProtocol = body := by
  cases body with
  | mk _ _ _ _ _ _ _ _ _ _ _ _ _ _ _ alg =>
      cases alg
      rfl

theorem Decision.ofRawValue_jsonName (decision : Protocol.Decision) :
    ∃ decoded, Decision.ofRawValue decision.jsonName = some decoded ∧
      decoded.toProtocol = decision := by
  cases decision
  · exact ⟨.approved, by decide, rfl⟩
  · exact ⟨.denied, by decide, rfl⟩
  · exact ⟨.unavailable, by decide, rfl⟩
  · exact ⟨.cancelled, by decide, rfl⟩
  · exact ⟨.failed, by decide, rfl⟩

theorem AuthMethod.ofRawValue_jsonName (method : Protocol.AuthMethod) :
    ∃ decoded, AuthMethod.ofRawValue method.jsonName = some decoded ∧
      decoded.toProtocol = method := by
  cases method
  · exact ⟨.watch, by decide, rfl⟩
  · exact ⟨.touchID, by decide, rfl⟩
  · exact ⟨.biometricOrWatch, by decide, rfl⟩
  · exact ⟨.unknown, by decide, rfl⟩
  · exact ⟨.none, by decide, rfl⟩

/-- Every response of the protocol crate is decoded, without loss. -/
theorem decodeResponseBody_eq_some (body : Protocol.AuthResponseBody) :
    ∃ decoded, decodeResponseBody body = some decoded ∧
      decoded.toProtocol = body ∧ decoded.alg = body.alg.jsonName := by
  obtain ⟨decision, decisionDecoded, decision_eq⟩ :=
    Decision.ofRawValue_jsonName body.decision
  obtain ⟨method, methodDecoded, method_eq⟩ :=
    AuthMethod.ofRawValue_jsonName body.authMethod
  simp only [decodeResponseBody, decisionDecoded, methodDecoded, Option.bind_eq_bind,
    Option.bind_some, Option.pure_def, Option.some.injEq, exists_eq_left', and_true]
  cases body with
  | mk _ _ _ _ _ _ _ _ _ _ _ _ alg _ _ =>
      cases alg
      simp_all [AuthResponseBody.toProtocol]

/-- The encoders of the helper and of the agent agree: on corresponding messages
they succeed together, with the same bytes, and both sides compute the same
request hash. -/
theorem canonicalEncoders_agree (digest : Bytes -> Bytes) :
    (∀ request : Protocol.AuthRequestBody,
      (∀ bytes, (decodeRequestBody request).canonicalBytes = .ok bytes ↔
        request.canonicalBytes = .ok bytes) ∧
      ∀ hash, (decodeRequestBody request).sha256 digest = .ok hash ↔
        request.sha256 digest = .ok hash) ∧
    ∀ response : Protocol.AuthResponseBody,
      ∃ decoded, decodeResponseBody response = some decoded ∧
        ∀ bytes, decoded.canonicalBytes = .ok bytes ↔
          response.canonicalBytes = .ok bytes := by
  have requestBytes (request : Protocol.AuthRequestBody) (bytes : Bytes) :
      (decodeRequestBody request).canonicalBytes = .ok bytes ↔
        request.canonicalBytes = .ok bytes := by
    rw [AuthRequestBody.canonicalBytes_eq_ok_iff, toProtocol_decodeRequestBody]
    exact and_iff_right (canonicalAlgorithmName_jsonName request.alg)
  refine ⟨fun request => ⟨requestBytes request, fun hash => ?_⟩, fun response => ?_⟩
  · simp only [AuthRequestBody.sha256, Protocol.AuthRequestBody.sha256, bind_eq_ok,
      requestBytes, pure, Except.pure, Except.ok.injEq]
  · obtain ⟨decoded, decodes, counterpart, alg_eq⟩ := decodeResponseBody_eq_some response
    refine ⟨decoded, decodes, fun bytes => ?_⟩
    rw [AuthResponseBody.canonicalBytes_eq_ok_iff, counterpart, alg_eq]
    exact and_iff_right (canonicalAlgorithmName_jsonName response.alg)

end Agent
end MacosAuth
