import MacosAuth.Protocol.Canonical

/-!
# Request hash, binding and freshness

The pure checks of the protocol crate: the hash that a response carries for its
request, the comparison of a response with the request it answers, and the
validity windows. The SHA-256 digest is a parameter.
-/

namespace MacosAuth
namespace Protocol

open Codec

/-- Addition that stops at the largest 64-bit value. -/
def saturatingAdd (left right : UInt64) : UInt64 :=
  if left.toNat + right.toNat < UInt64.size then left + right else UInt64.ofNat (UInt64.size - 1)

theorem toNat_saturatingAdd (left right : UInt64) :
    (saturatingAdd left right).toNat = min (left.toNat + right.toNat) (2 ^ 64 - 1) := by
  unfold saturatingAdd
  have size : UInt64.size = 2 ^ 64 := rfl
  split
  · rename_i small
    rw [UInt64.toNat_add, Nat.mod_eq_of_lt (by omega)]
    omega
  · have largest : (UInt64.ofNat (UInt64.size - 1)).toNat = 2 ^ 64 - 1 := rfl
    omega

/-- The validity window check that requests and responses share. The expiry is
inclusive; the creation time may lie in the future by the allowed skew. -/
def verifyWindow
    (createdAtMs expiresAtMs nowMs allowedFutureSkewMs : UInt64) :
    Except ProtocolError Unit :=
  if expiresAtMs < nowMs then
    .error .expired
  else if saturatingAdd nowMs allowedFutureSkewMs < createdAtMs then
    .error .createdInFuture
  else
    .ok ()

theorem verifyWindow_eq_ok_iff
    {createdAtMs expiresAtMs nowMs allowedFutureSkewMs : UInt64}
    {result : Unit} :
    verifyWindow createdAtMs expiresAtMs nowMs allowedFutureSkewMs = .ok result ↔
      nowMs.toNat ≤ expiresAtMs.toNat ∧
        createdAtMs.toNat ≤ nowMs.toNat + allowedFutureSkewMs.toNat := by
  have createdBound := createdAtMs.toNat_lt
  simp only [verifyWindow, UInt64.lt_iff_toNat_lt, toNat_saturatingAdd]
  split
  · simp only [reduceCtorEq, false_iff]
    omega
  · split
    · simp only [reduceCtorEq, false_iff]
      omega
    · simp only [true_iff]
      omega

namespace AuthRequestBody

def sha256 (digest : Bytes -> Bytes) (self : AuthRequestBody) :
    Except ProtocolError Bytes := do
  let bytes ← self.canonicalBytes
  return digest bytes

def verifyFreshness
    (self : AuthRequestBody)
    (nowMs allowedFutureSkewMs : UInt64) : Except ProtocolError Unit :=
  verifyWindow self.createdAtMs self.expiresAtMs nowMs allowedFutureSkewMs

end AuthRequestBody

namespace AuthResponseBody

def verifyBinding
    (digest : Bytes -> Bytes)
    (self : AuthResponseBody)
    (request : AuthRequestBody) : Except ProtocolError Unit := do
  let expectedHash ← request.sha256 digest
  if self.requestId = request.requestId ∧
      self.nonce = request.nonce ∧
      self.requestHash = expectedHash ∧
      self.linuxHostId = request.linuxHostId ∧
      self.pamService = request.pamService ∧
      self.pamUser = request.pamUser then
    .ok ()
  else
    .error .responseBindingMismatch

def verifyFreshness
    (self : AuthResponseBody)
    (nowMs allowedFutureSkewMs : UInt64) : Except ProtocolError Unit :=
  verifyWindow self.createdAtMs self.expiresAtMs nowMs allowedFutureSkewMs

/-- A response is bound to a request when all compared fields agree. -/
theorem verifyBinding_eq_ok_iff
    {digest : Bytes -> Bytes}
    {self : AuthResponseBody}
    {request : AuthRequestBody}
    {result : Unit} :
    self.verifyBinding digest request = .ok result ↔
      request.Encodable ∧
      self.requestId = request.requestId ∧
      self.nonce = request.nonce ∧
      self.requestHash = digest request.encoding ∧
      self.linuxHostId = request.linuxHostId ∧
      self.pamService = request.pamService ∧
      self.pamUser = request.pamUser := by
  simp only [verifyBinding, AuthRequestBody.sha256, bind_eq_ok, pure, Except.pure,
    Except.ok.injEq, AuthRequestBody.canonicalBytes_eq_ok_iff]
  constructor
  · rintro ⟨hash, ⟨bytes, ⟨encodable, rfl⟩, rfl⟩, bound⟩
    split at bound
    · rename_i fields
      exact ⟨encodable, fields⟩
    · exact absurd bound (by simp)
  · rintro ⟨encodable, fields⟩
    refine ⟨_, ⟨_, ⟨encodable, rfl⟩, rfl⟩, ?_⟩
    rw [if_pos fields]

end AuthResponseBody
end Protocol
end MacosAuth
