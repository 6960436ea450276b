import MacosAuth.Agent.Agreement
import MacosAuth.Arithmetic.Word

/-!
# The two freshness checks of a request

The agent and the helper check the validity window of a request with different
arithmetic: the helper adds the allowed skew to its clock with saturation, the agent
subtracts its clock from the creation time behind a guard. Both accept the same requests,
except for one that expires at the very reading of the clock.
-/

namespace MacosAuth
namespace EndToEnd

open Agent (AgentError)

/-- `verifyFreshness` of the agent with a subtraction that stops the program below zero.
The second operand of `&&` is evaluated only if the first one holds. -/
def verifyFreshnessChecked
    (self : Agent.AuthRequestBody)
    (nowMs allowedFutureSkewMs : UInt64) : Option (Except AgentError Unit) :=
  if self.expiresAtMs ≤ nowMs then
    some (.error (.invalidPayload "request expired"))
  else do
    let early ←
      if nowMs < self.createdAtMs then
        (Word.checkedSub self.createdAtMs nowMs).map fun ahead => decide (allowedFutureSkewMs < ahead)
      else
        some false
    if early then
      some (.error (.invalidPayload "request created too far in the future"))
    else
      some (.ok ())

/-- The guard keeps the subtraction from going below zero. -/
theorem verifyFreshnessChecked_eq
    (self : Agent.AuthRequestBody)
    (nowMs allowedFutureSkewMs : UInt64) :
    verifyFreshnessChecked self nowMs allowedFutureSkewMs =
      some (self.verifyFreshness nowMs allowedFutureSkewMs) := by
  unfold verifyFreshnessChecked Agent.AuthRequestBody.verifyFreshness
  by_cases expired : self.expiresAtMs ≤ nowMs
  · rw [if_pos expired, if_pos expired]
  · rw [if_neg expired, if_neg expired]
    by_cases ahead : nowMs < self.createdAtMs
    · rw [if_pos ahead, Word.checkedSub_of_le (UInt64.le_of_lt ahead)]
      by_cases early : allowedFutureSkewMs < self.createdAtMs - nowMs
      · simp [ahead, early]
      · simp [early]
    · rw [if_neg ahead]
      simp [ahead]

/-- What the agent accepts, without overflow in the sum. -/
theorem agent_verifyFreshness_eq_ok_iff
    {self : Agent.AuthRequestBody}
    {nowMs allowedFutureSkewMs : UInt64} :
    self.verifyFreshness nowMs allowedFutureSkewMs = .ok () ↔
      nowMs.toNat < self.expiresAtMs.toNat ∧
        self.createdAtMs.toNat ≤ nowMs.toNat + allowedFutureSkewMs.toNat := by
  unfold Agent.AuthRequestBody.verifyFreshness
  by_cases expired : self.expiresAtMs ≤ nowMs
  · rw [if_pos expired]
    rw [UInt64.le_iff_toNat_le] at expired
    simp only [reduceCtorEq, false_iff]
    omega
  · rw [if_neg expired]
    rw [UInt64.le_iff_toNat_le] at expired
    by_cases ahead : nowMs < self.createdAtMs
    · have difference : (self.createdAtMs - nowMs).toNat =
          self.createdAtMs.toNat - nowMs.toNat :=
        UInt64.toNat_sub_of_le _ _ (UInt64.le_of_lt ahead)
      simp only [ahead, true_and, UInt64.lt_iff_toNat_lt, difference]
      rw [UInt64.lt_iff_toNat_lt] at ahead
      split
      · simp only [reduceCtorEq, false_iff]
        omega
      · simp only [true_iff]
        omega
    · rw [if_neg fun early => ahead early.1]
      rw [UInt64.lt_iff_toNat_lt] at ahead
      simp only [true_iff]
      omega

/-- The two checks differ at the exact expiry only, and neither of them overflows. -/
theorem verifyFreshness_differ_at_expiry
    (request : Agent.AuthRequestBody)
    (nowMs allowedFutureSkewMs : UInt64) :
    (request.verifyFreshness nowMs allowedFutureSkewMs = .ok () ↔
      request.toProtocol.verifyFreshness nowMs allowedFutureSkewMs = .ok () ∧
        nowMs ≠ request.expiresAtMs) ∧
    verifyFreshnessChecked request nowMs allowedFutureSkewMs =
      some (request.verifyFreshness nowMs allowedFutureSkewMs) ∧
    (Protocol.saturatingAdd nowMs allowedFutureSkewMs).toNat =
      min (nowMs.toNat + allowedFutureSkewMs.toNat) (2 ^ 64 - 1) := by
  refine ⟨?_, verifyFreshnessChecked_eq request nowMs allowedFutureSkewMs,
    Protocol.toNat_saturatingAdd nowMs allowedFutureSkewMs⟩
  have helper : request.toProtocol.verifyFreshness nowMs allowedFutureSkewMs = .ok () ↔
      nowMs.toNat ≤ request.expiresAtMs.toNat ∧
        request.createdAtMs.toNat ≤ nowMs.toNat + allowedFutureSkewMs.toNat :=
    Protocol.verifyWindow_eq_ok_iff
  have distinct : nowMs ≠ request.expiresAtMs ↔ nowMs.toNat ≠ request.expiresAtMs.toNat :=
    not_congr UInt64.toNat_inj.symm
  rw [agent_verifyFreshness_eq_ok_iff, helper, distinct]
  omega

end EndToEnd
end MacosAuth
