import MacosAuth.Helper.Verdict

/-!
# What the helper signs

A run of the helper signs one message at most, the canonical bytes of its own request. The
request carries the nonce that the run has drawn and the readings of the clocks from which
its deadline and its expiry are counted.
-/

namespace MacosAuth
namespace Helper

open Codec
open Protocol (AuthRequestBody nonceLen)
open Effect Effect.Program

/-- Only requests are signed. -/
def signing : Contract Call Call.Answer where
  relies _ _ := True
  allows _ request := SignsRequests request
  givesUp _ := True

/-- Every message that the helper signs is the encoding of a request. -/
theorem runRequest_signs
    {crates : Crates}
    {rounds : Nat}
    {args : RequestArgs}
    {trace : List HelperEvent}
    {rest : Routine Stop Nat}
    (steps : Steps (runRequest crates rounds args) trace rest)
    {key message signature : Bytes}
    (signed : ⟨.sign key message, signature⟩ ∈ trace) :
    ∃ body : AuthRequestBody, body.canonicalBytes = .ok message := by
  have meets : (runRequest crates rounds args).Meets signing [] fun _ _ => True := by
    refine Meets.bind ((settles_prepareRequest crates args).meets fun _ _ => id) ?_
      fun _ _ _ => trivial
    intro _ prepared _
    have weaken {α : Type} {routine : Routine Stop α} {past : List HelperEvent}
        (patient : routine.Meets (patience rounds prepared.deadline) past fun _ _ => True) :
        routine.Meets signing past fun _ _ => True :=
      patient.weaken (fun _ _ => id) (fun _ _ => id) fun _ _ => trivial
    refine Meets.bind (weaken patient_exchange) ?_ fun _ _ _ => trivial
    intro _ response _
    exact weaken patient_judgeResponse
  obtain ⟨before, after, split⟩ := List.append_of_mem signed
  exact (meets.steps steps fun _ _ _ _ => trivial).1 before _ after split

theorem ends_operationBudget
    {timeoutMs nowMs : UInt64}
    {trace : List HelperEvent}
    {budget : Nat × UInt64}
    (ended : Ends (operationBudget timeoutMs nowMs) trace (.ok budget)) :
    ∃ now, trace = [⟨.instant, now⟩] ∧ 0 < timeoutMs.toNat ∧
      budget.1 = now + timeoutMs.toNat * 1000000 ∧
      budget.2.toNat = nowMs.toNat + timeoutMs.toNat := by
  unfold operationBudget at ended
  split at ended
  · exact absurd ((ends_fail _ _ _).mp ended).2 (by simp)
  · rename_i positive
    split at ended
    · exact absurd ((ends_fail _ _ _).mp ended).2 (by simp)
    · rename_i small
      rw [ends_perform_bind] at ended
      obtain ⟨now, _, rfl, ended⟩ := ended
      split at ended
      · exact absurd ((ends_fail _ _ _).mp ended).2 (by simp)
      · obtain ⟨rfl, equal⟩ := (ends_pure _ _ _).mp ended
        obtain rfl := Except.ok.inj equal
        refine ⟨now, rfl, ?_, rfl, ?_⟩
        · rw [Nat.pos_iff_ne_zero]
          exact fun zero => positive (UInt64.toNat_inj.mp zero)
        · have size : UInt64.size = 2 ^ 64 := rfl
          rw [UInt64.toNat_add, Nat.mod_eq_of_lt (by omega)]

theorem ends_signRequest
    {body : AuthRequestBody}
    {signingKey : Bytes}
    {trace : List HelperEvent}
    {request : Protocol.SignedAuthRequest}
    (ended : Ends (signRequest body signingKey) trace (.ok request)) :
    request.body = body ∧ body.Encodable ∧
      trace = [⟨.sign signingKey body.encoding, request.signature⟩] := by
  unfold signRequest at ended
  split at ended
  · exact absurd ((ends_fail _ _ _).mp ended).2 (by simp)
  · rename_i bytes encoded
    rw [ends_perform_bind] at ended
    obtain ⟨signature, _, rfl, ended⟩ := ended
    obtain ⟨rfl, equal⟩ := (ends_pure _ _ _).mp ended
    obtain rfl := Except.ok.inj equal
    obtain ⟨encodable, rfl⟩ := Protocol.AuthRequestBody.canonicalBytes_eq_ok_iff.mp encoded
    exact ⟨rfl, encodable, rfl⟩

/-- How a prepared request came about: the clocks were read, a nonce was drawn, and the
request was signed. -/
structure PreparedFrom (prepared : Prepared) (trace : List HelperEvent) where
  timeoutMs : UInt64
  wall : UInt64
  instant : Nat
  nonce : { bytes : Bytes // bytes.length = nonceLen }
  pid : UInt32
  signingKey : Bytes
  setup : List HelperEvent
  trace_eq : trace = setup ++ [⟨.wallClock, some wall⟩, ⟨.instant, instant⟩,
    ⟨.fillBytes nonceLen, nonce⟩, ⟨.processId, pid⟩,
    ⟨.sign signingKey prepared.request.body.encoding, prepared.request.signature⟩]
  encodable : prepared.request.body.Encodable
  timeout_pos : 0 < timeoutMs.toNat
  deadline_eq : prepared.deadline = instant + timeoutMs.toNat * 1000000
  nonce_eq : prepared.request.body.nonce = nonce.val
  created_eq : prepared.request.body.createdAtMs = wall
  expires_eq : prepared.request.body.expiresAtMs.toNat = wall.toNat + timeoutMs.toNat

/-- The nonce was drawn during the preparation. -/
theorem PreparedFrom.drawn
    {prepared : Prepared}
    {trace : List HelperEvent}
    (origin : PreparedFrom prepared trace) :
    (⟨.fillBytes nonceLen, origin.nonce⟩ : HelperEvent) ∈ trace := by
  obtain ⟨_, _, _, nonce, _, _, setup, rfl, _, _, _, _, _, _⟩ := origin
  simp

/-- The request was signed during the preparation. -/
theorem PreparedFrom.signed
    {prepared : Prepared}
    {trace : List HelperEvent}
    (origin : PreparedFrom prepared trace) :
    (⟨.sign origin.signingKey prepared.request.body.encoding, prepared.request.signature⟩ :
      HelperEvent) ∈ trace := by
  obtain ⟨_, _, _, _, _, signingKey, setup, rfl, _, _, _, _, _, _⟩ := origin
  simp

theorem ends_prepareRequest
    {crates : Crates}
    {args : RequestArgs}
    {trace : List HelperEvent}
    {prepared : Prepared}
    (ended : Ends (prepareRequest crates args) trace (.ok prepared)) :
    Nonempty (PreparedFrom prepared trace) := by
  rw [prepareRequest, ends_bind_ok] at ended
  obtain ⟨configuring, _, config, rfl, _, ended⟩ := ended
  rw [ends_bind_ok] at ended
  obtain ⟨loading, _, signingKey, rfl, _, ended⟩ := ended
  rw [ends_bind_ok] at ended
  obtain ⟨pinning, _, agentPubkey, rfl, _, ended⟩ := ended
  rw [ends_bind_ok] at ended
  obtain ⟨locating, _, socket, rfl, _, ended⟩ := ended
  rw [ends_bind_ok] at ended
  obtain ⟨naming, _, hostId, rfl, _, ended⟩ := ended
  rw [ends_bind_ok] at ended
  obtain ⟨naming', _, hostname, rfl, _, ended⟩ := ended
  rw [ends_bind_ok] at ended
  obtain ⟨opening, _, replayCache, rfl, _, ended⟩ := ended
  rw [ends_bind_ok] at ended
  obtain ⟨_, _, wall, rfl, read, ended⟩ := ended
  rw [ends_mapError_ok, ends_unixTimeMs_ok] at read
  rw [ends_bind_ok] at ended
  obtain ⟨_, _, budget, rfl, budgeted, ended⟩ := ended
  obtain ⟨instant, rfl, positive, deadline_eq, expires_eq⟩ :=
    ends_operationBudget (ends_mapError_ok.mp budgeted)
  split at ended
  · exact absurd ((ends_fail _ _ _).mp ended).2 (by simp)
  · rw [ends_bind_ok] at ended
    obtain ⟨_, _, body, rfl, built, ended⟩ := ended
    rw [ends_mapError_ok, buildRequest, ends_perform_bind] at built
    obtain ⟨nonce, _, rfl, built⟩ := built
    rw [ends_perform_bind] at built
    obtain ⟨pid, _, rfl, built⟩ := built
    obtain ⟨rfl, equal⟩ := (ends_pure _ _ _).mp built
    obtain rfl := Except.ok.inj equal
    rw [ends_bind_ok] at ended
    obtain ⟨_, _, request, rfl, signed, ended⟩ := ended
    obtain ⟨body_eq, encodable, rfl⟩ := ends_signRequest (ends_mapError_ok.mp signed)
    obtain ⟨rfl, equal⟩ := (ends_pure _ _ _).mp ended
    obtain rfl := Except.ok.inj equal
    subst read
    refine ⟨{
      timeoutMs := _
      wall := wall
      instant := instant
      nonce := nonce
      pid := pid
      signingKey := signingKey
      setup := configuring ++ (loading ++ (pinning ++ (locating ++ (naming ++ (naming' ++ opening)))))
      trace_eq := ?_
      encodable := ?_
      timeout_pos := positive
      deadline_eq := deadline_eq
      nonce_eq := ?_
      created_eq := ?_
      expires_eq := ?_ }⟩
    · simp [body_eq]
    · rw [body_eq]
      exact encodable
    · rw [body_eq]
    · rw [body_eq]
    · rw [body_eq]
      exact expires_eq

end Helper
end MacosAuth
